import AxumObservability.Formatter

/-!
# Application events

An application may give its events and its spans any names, targets and fields,
those of this package among them. What tells a package callsite apart is its
module path alone.

* `requestField_eq_of_packageSpans`: the spans of a scope count by what the
  package's own ones were created with;
* `formatEvent_application`: what an application event can and cannot put into
  its line.
-/

namespace AxumObservability

open Library.FieldMap Library.Json Library.Panics Library.Text

/-! ## Spans over their lives -/

/-- A span by its creation and the values recorded on it since. -/
structure SpanLife where
  attributes : Attributes
  recorded : List Fields

namespace SpanLife

def data (span : SpanLife) : SpanData :=
  span.recorded.foldl SpanData.onRecord (onNewSpan span.attributes)

/-- A span of a callsite in the package's middleware. -/
def fromPackage (span : SpanLife) : Bool :=
  span.attributes.metadata.modulePath == some middlewareModule

/-- Later records leave the layer's data as it was at the span's creation. -/
theorem data_eq (span : SpanLife) : span.data = onNewSpan span.attributes := by
  rw [data]
  induction span.recorded with
  | nil => rfl
  | cons values recorded ih => exact ih

/-- A span from elsewhere keeps no request fields, whatever it imitates. -/
theorem requestSpanFields_of_not_fromPackage {span : SpanLife} (h : span.fromPackage = false) :
    span.data.requestSpanFields = none := by
  rw [data_eq, onNewSpan]
  refine if_pos (Or.inr (Or.inl fun hm => ?_))
  rw [fromPackage, hm] at h
  cases h

end SpanLife

/-- What the package spans of a scope were created with, the outermost first. -/
def packageSpans (scope : List SpanLife) : List Attributes :=
  (scope.filter SpanLife.fromPackage).map SpanLife.attributes

theorem requestFields_data (scope : List SpanLife) :
    requestFields (scope.map SpanLife.data) =
      requestFields ((packageSpans scope).map onNewSpan) := by
  unfold requestFields packageSpans
  generalize (∅ : Map) = m
  induction scope generalizing m with
  | nil => rfl
  | cons span scope ih =>
    cases h : span.fromPackage with
    | true =>
      rw [List.filter_cons_of_pos h, List.map_cons, List.map_cons, List.map_cons, List.foldl_cons,
        List.foldl_cons, span.data_eq, ih]
    | false =>
      rw [List.filter_cons_of_neg (by simp [h]), List.map_cons, List.foldl_cons,
        SpanLife.requestSpanFields_of_not_fromPackage h, ih]

theorem requestField_eq_of_packageSpans {scope scope' : List SpanLife}
    (h : packageSpans scope = packageSpans scope') (key : String) :
    requestField (scope.map SpanLife.data) key = requestField (scope'.map SpanLife.data) key := by
  rw [requestField, requestField, requestFields_data, requestFields_data, h]

/-! ## The line of an application event -/

/-- An event from elsewhere carries no terminal record, whatever its target. -/
theorem accessRecordOf_application (serde : SerdeJson) {metadata : Metadata}
    (h : metadata.modulePath ≠ some middlewareModule) (fields : Map) :
    accessRecordOf serde metadata fields = none := by
  simp [accessRecordOf, trustedAccessCallsite, h]

/-- **An application event neither forges a package field nor loses one of its
own.**  Two events of one callsite, with any fields, inside stacks of spans with
the same package spans, with any other spans and any later records, agree at
every reserved name; every other name holds exactly what the event recorded
under it. -/
theorem formatEvent_application (serde : SerdeJson) (float : FloatArithmetic) (layer : JsonLayer)
    (timestamp : String) (event event' : Event) (scope scope' : List SpanLife)
    (hmetadata : event.metadata = event'.metadata)
    (happlication : event.metadata.modulePath ≠ some middlewareModule)
    (hspans : packageSpans scope = packageSpans scope') :
    ∃ m line m' line',
      WritesLine serde float layer timestamp (scope.map SpanLife.data) event m line ∧
      WritesLine serde float layer timestamp (scope'.map SpanLife.data) event' m' line' ∧
      (∀ key : String, isEventReserved key layer.fieldConvention = true → m[key]? = m'[key]?) ∧
      (∀ key : String, isEventReserved key layer.fieldConvention = false →
        m[key]? = (recordFields event.fields)[key]?) := by
  have happlication' := hmetadata ▸ happlication
  obtain ⟨m, line, hline⟩ := exists_writesLine serde float layer timestamp
    (scope.map SpanLife.data) event
  obtain ⟨m', line', hline'⟩ := exists_writesLine serde float layer timestamp
    (scope'.map SpanLife.data) event'
  have hportable := getElem?_portableFields_of_none serde float layer.fieldConvention timestamp
    (scope.map SpanLife.data) event (accessRecordOf_application serde happlication _)
  have hportable' := getElem?_portableFields_of_none serde float layer.fieldConvention timestamp
    (scope'.map SpanLife.data) event' (accessRecordOf_application serde happlication' _)
  have hreserved : ∀ key : String, isEventReserved key layer.fieldConvention = true →
      (portableFields serde float layer.fieldConvention timestamp (scope.map SpanLife.data)
        event)[key]? =
      (portableFields serde float layer.fieldConvention timestamp (scope'.map SpanLife.data)
        event')[key]? := by
    intro key hkey
    rw [hportable, hportable', requestField_eq_of_packageSpans hspans, hmetadata, eventField,
      eventField, if_pos hkey, if_pos hkey]
  refine ⟨m, line, m', line', hline, hline', fun key hkey => ?_, fun key hkey => ?_⟩
  · exact formatEvent_agree hline.object hline'.object
      (fun k hk => hreserved k (isEventReserved_of_isRequestField _ hk)) (hreserved key hkey)
  · rw [getElem?_formatEvent hline.object, hportable, providerField_of_not_reserved hkey,
      requestField_of_not_reserved hkey, envelopeField_of_not_reserved hkey, eventField, hkey]
    rfl

/-! ### An event and a span that imitate the package's -/

def imitatingSpan : SpanLife :=
  ⟨⟨⟨"request", requestTarget, some "app::orders", .info⟩,
    [("request_id", some (.str "forged")), ("order", none)]⟩, [[("order", some (.u64 7))]]⟩

def ordersEvent (fields : Fields) : Event :=
  ⟨⟨"event src/orders.rs", accessTarget, some "app::orders", .info⟩, fields⟩

theorem formatEvent_application_imitating :
    ∃ m line m' line',
      WritesLine .reference .whole (.fromConvention .whole .gcp) "2026-01-01T00:00:00Z"
        ([imitatingSpan].map SpanLife.data)
        (ordersEvent [("request_id", some (.str "forged")), ("order", some (.u64 7))]) m line ∧
      WritesLine .reference .whole (.fromConvention .whole .gcp) "2026-01-01T00:00:00Z"
        (([] : List SpanLife).map SpanLife.data) (ordersEvent []) m' line' ∧
      m["request_id"]? = m'["request_id"]? ∧ m["order"]? = some (.number (.posInt 7)) := by
  obtain ⟨m, line, m', line', hline, hline', hreserved, hother⟩ := formatEvent_application
    .reference .whole (.fromConvention .whole .gcp) "2026-01-01T00:00:00Z"
    (ordersEvent [("request_id", some (.str "forged")), ("order", some (.u64 7))])
    (ordersEvent []) [imitatingSpan] [] rfl
    (by simp [ordersEvent, middlewareModule])
    (by simp [packageSpans, SpanLife.fromPackage, imitatingSpan, middlewareModule])
  refine ⟨m, line, m', line', hline, hline', hreserved "request_id" rfl, ?_⟩
  rw [hother "order" rfl, recordFields_eq, getElem?_ofOptions (by decide)]
  rfl

end AxumObservability
