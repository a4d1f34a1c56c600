import AxumObservability.AccessLine
import AxumObservability.EventFields

/-!
# Correlation under nesting

A request may be served inside the span of another one: spans of several
requests then lie around an event, and their fields are merged name by name.

* `getElem?_line_correlation`: an innermost field wins, and where it is missing
  the next enclosing request shows through;
* `formatEvent_correlation_iff`: when all correlation fields of a line are those
  of the innermost request.
-/

namespace AxumObservability

open Std Library.FieldMap Library.Json Library.Panics Library.Text

/-! ## Chains of request spans -/

theorem requestSpans_eq_none_iff (outer : List RequestContext) (key : String) :
    (requestFields (outer.map requestSpanData))[key]? = none ↔
      ∀ context ∈ outer, context.correlationField key = none := by
  induction outer using List.reverseRecOn with
  | nil => simp [requestFields]
  | append_singleton outer context ih =>
    rw [List.map_append, List.map_singleton, getElem?_requestFields_own, Option.or_eq_none_iff, ih]
    simp only [List.mem_append, List.mem_singleton, or_imp, forall_and, forall_eq]
    exact and_comm

theorem requestField_chain {scope : List SpanLife} {outer : List RequestContext}
    {own : RequestContext} (hspans : packageSpans scope = (outer ++ [own]).map requestAttributes)
    {key : String} (hkey : isRequestField key = true) :
    requestField (scope.map SpanLife.data) key =
      (own.correlationField key).or (requestFields (outer.map requestSpanData))[key]? := by
  rw [requestField, if_pos hkey, requestFields_data, hspans, List.map_map, List.map_append,
    List.map_singleton]
  exact getElem?_requestFields_own _ own key

/-! ## Events of a request -/

/-- The terminal event of a request with the given context, however it ends. -/
def IsTerminalEvent (serde : SerdeJson) (float : FloatArithmetic) (context : RequestContext)
    (event : Event) : Prop :=
  ∃ (state : TerminalState) (outcome : TerminalOutcome) (finished : Instant) (enrichment : Map)
    (level : Level) (serialized : String), state.requestContext = context ∧
    serde.toString (state.record float outcome finished enrichment).toValue = some serialized ∧
    event = accessEvent level serialized

/-- A record carries the correlation fields of its context. -/
theorem record_correlationFields (state : TerminalState) (float : FloatArithmetic)
    (outcome : TerminalOutcome) (finished : Instant) (enrichment : Map) :
    (state.record float outcome finished enrichment).correlationFields =
      state.requestContext.correlationFields := by
  rw [AccessRecord.correlationFields, RequestContext.correlationFields, TerminalState.record]
  cases state.requestContext.traceContext <;> rfl

theorem ownField_of_correlationFields {record : AccessRecord} {context : RequestContext}
    (h : record.correlationFields = context.correlationFields) (read : Number → Number)
    {key : String} (hkey : isRequestField key = true) :
    record.ownField read key = context.correlationField key := by
  rw [AccessRecord.ownField, RequestContext.correlationField, AccessRecord.ownFields, h,
    RequestContext.correlationFields]
  cases context.traceContext with
  | none => rcases requestField_cases hkey with rfl | rfl | rfl | rfl | rfl | rfl | rfl <;> rfl
  | some trace =>
    simp only [Option.bind_some]
    cases trace.traceIdRandom <;>
      rcases requestField_cases hkey with rfl | rfl | rfl | rfl | rfl | rfl | rfl <;> rfl

/-! ## The correlation fields of a line -/

theorem requestField_not_mem {key : String} (hkey : isRequestField key = true)
    (convention : FieldConvention) :
    key ∉ providerNames convention ∧ key ∉ envelopeNames convention := by
  rcases requestField_cases hkey with rfl | rfl | rfl | rfl | rfl | rfl | rfl <;>
    cases convention <;> decide

section

variable {serde : SerdeJson} {float : FloatArithmetic} {event : Event} {own : RequestContext}

/-- Under a correlation name a terminal event whose record is read back has the
spans, then the record. -/
theorem getElem?_portableFields_own (convention : FieldConvention) (timestamp : String)
    (scope : List SpanData) (level : Level) {text : String} {record : AccessRecord}
    {read : Number → Number}
    (hdecode : serde.fromStr text = some (record.toValue.mapNumbers read))
    (hrecord : record.correlationFields = own.correlationFields) {key : String}
    (hkey : isRequestField key = true) :
    (portableFields serde float convention timestamp scope (accessEvent level text))[key]? =
      (requestField scope key).or (own.correlationField key) := by
  have haccess : isAccessReserved key convention = true := by
    simp [isAccessReserved, isEventReserved_of_isRequestField convention hkey]
  have hhttp : "httpRequest" ≠ key := by rintro rfl; cases hkey
  have hmessage : "message" ≠ key := by rintro rfl; cases hkey
  rw [getElem?_portableFields_decoded serde float convention timestamp scope level hdecode,
    if_neg (fun h => hhttp h.2), if_pos haccess, if_neg hmessage,
    ownField_of_correlationFields hrecord read hkey,
    envelopeField_of_not_mem (requestField_not_mem hkey convention).2, Option.none_or,
    Option.or_none]

/-- Under a correlation name the spans come first. What an event adds itself is
nothing, or the field of its own context. -/
theorem getElem?_portableFields_correlation (convention : FieldConvention) (timestamp : String)
    (scope : List SpanData) (hevent : event.metadata.modulePath ≠ some middlewareModule ∨
      IsTerminalEvent serde float own event) {key : String} (hkey : isRequestField key = true) :
    ∃ added, (added = none ∨ added = own.correlationField key) ∧
      (portableFields serde float convention timestamp scope event)[key]? =
        (requestField scope key).or added := by
  have hreserved := isEventReserved_of_isRequestField convention hkey
  have hnone : accessRecordOf serde event.metadata (recordFields event.fields) = none →
      (portableFields serde float convention timestamp scope event)[key]? =
        (requestField scope key).or none := fun h => by
    rw [getElem?_portableFields_of_none serde float convention timestamp scope event h,
      envelopeField_of_not_mem (requestField_not_mem hkey convention).2, eventField,
      if_pos hreserved, Option.or_none]
  rcases hevent with happlication | ⟨state, outcome, finished, enrichment, level, text, rfl,
    htext, rfl⟩
  · exact ⟨none, Or.inl rfl, hnone (accessRecordOf_application serde happlication _)⟩
  · have hop := serde.hop _ text htext
    split at hop
    · exact ⟨_, Or.inr rfl, getElem?_portableFields_own convention timestamp scope level hop
        (record_correlationFields state float outcome finished enrichment) hkey⟩
    · exact ⟨none, Or.inl rfl, hnone ((accessRecordOf_accessEvent serde level text).trans hop)⟩

/-- **The innermost field wins.**  Where the innermost context lacks a field, the
line shows the nearest enclosing request's. -/
theorem getElem?_line_correlation (convention : FieldConvention) (timestamp : String)
    {scope : List SpanLife} {outer : List RequestContext} {m : Map}
    (hevent : event.metadata.modulePath ≠ some middlewareModule ∨
      IsTerminalEvent serde float own event)
    (hspans : packageSpans scope = (outer ++ [own]).map requestAttributes)
    (hm : formatEvent serde float convention timestamp (scope.map SpanLife.data) event = .ok m)
    {key : String} (hkey : isRequestField key = true) :
    m[key]? = (own.correlationField key).or
      (requestFields (outer.map requestSpanData))[key]? := by
  obtain ⟨added, hadded, hportable⟩ := getElem?_portableFields_correlation convention timestamp
    (scope.map SpanLife.data) hevent hkey
  rw [getElem?_formatEvent hm, providerField_of_not_mem (requestField_not_mem hkey convention).1,
    Option.none_or, hportable, requestField_chain hspans hkey]
  rcases hadded with rfl | rfl
  · rw [Option.or_none]
  · cases hown : own.correlationField key with
    | none => rw [Option.or_none]
    | some v => rfl

end

/-! ## One request's fields -/

/-- What an enclosing request shows, the inner one has too: a trace context, and
a random flag in it. -/
structure RequestContext.Covers (own outer : RequestContext) : Prop where
  trace : outer.traceContext.isSome = true → own.traceContext.isSome = true
  random : (outer.traceContext.bind TraceContext.traceIdRandom).isSome = true →
    (own.traceContext.bind TraceContext.traceIdRandom).isSome = true

theorem RequestContext.covers_iff (own outer : RequestContext) :
    own.Covers outer ↔ ∀ key, isRequestField key = true →
      own.correlationField key = none → outer.correlationField key = none := by
  have hnone : ∀ {α β : Type} {o o' : Option α} {f : α → β},
      (o.map f = none → o'.map f = none) ↔ (o'.isSome = true → o.isSome = true) := by
    rintro α β (_ | _) (_ | _) f <;> simp
  constructor
  · rintro ⟨htrace, hrandom⟩ key hkey
    rcases requestField_cases hkey with rfl | rfl | rfl | rfl | rfl | rfl | rfl
    · intro h
      cases h
    · intro h
      cases h
    · exact hnone.mpr htrace
    · exact hnone.mpr htrace
    · exact hnone.mpr htrace
    · exact hnone.mpr htrace
    · exact hnone.mpr hrandom
  · exact fun h => ⟨hnone.mp (h "trace_id" (by decide)),
      hnone.mp (h "trace_id_random" (by decide))⟩

/-- Within one context the correlation identifier is that of its trace. -/
theorem RequestContext.correlationField_trace (context : RequestContext) {v : Value}
    (h : context.correlationField "trace_id" = some v) :
    context.correlationField "correlation_id" = some v := by
  obtain ⟨requestId, correlationId, traceContext, rfl⟩ := context
  cases traceContext with
  | none => cases h
  | some trace => exact h

/-- **All correlation fields of a line are those of the innermost request exactly
when it covers every request around it.**  What the innermost context lacks shows
through from an enclosing one. -/
theorem formatEvent_correlation_iff (serde : SerdeJson) (float : FloatArithmetic)
    (layer : JsonLayer) (timestamp : String) (event : Event) (scope : List SpanLife)
    (outer : List RequestContext) (own : RequestContext)
    (hevent : event.metadata.modulePath ≠ some middlewareModule ∨
      IsTerminalEvent serde float own event)
    (hspans : packageSpans scope = (outer ++ [own]).map requestAttributes) :
    ∃ m line, WritesLine serde float layer timestamp (scope.map SpanLife.data) event m line ∧
      (((∀ key, isRequestField key = true → m[key]? = own.correlationField key) ∧
          ∀ v, m["trace_id"]? = some v → m["correlation_id"]? = some v) ↔
        ∀ context ∈ outer, own.Covers context) := by
  obtain ⟨m, line, hline⟩ := exists_writesLine serde float layer timestamp
    (scope.map SpanLife.data) event
  have hfield : ∀ key, isRequestField key = true → m[key]? = (own.correlationField key).or
      (requestFields (outer.map requestSpanData))[key]? := fun key hkey =>
    getElem?_line_correlation layer.fieldConvention timestamp hevent hspans hline.object hkey
  have hown : (∀ key, isRequestField key = true → m[key]? = own.correlationField key) ↔
      ∀ key, isRequestField key = true → own.correlationField key = none →
        ∀ context ∈ outer, context.correlationField key = none := by
    refine forall₂_congr fun key hkey => ?_
    rw [hfield key hkey, ← requestSpans_eq_none_iff]
    cases own.correlationField key <;> simp
  refine ⟨m, line, hline, ?_⟩
  have hcovers : (∀ context ∈ outer, own.Covers context) ↔
      ∀ key, isRequestField key = true → own.correlationField key = none →
        ∀ context ∈ outer, context.correlationField key = none := by
    simp only [own.covers_iff]
    exact ⟨fun h key hkey hnone context hc => h context hc key hkey hnone,
      fun h context hc key hkey hnone => h key hkey hnone context hc⟩
  rw [hcovers, ← hown]
  refine ⟨And.left, fun h => ⟨h, fun v hv => ?_⟩⟩
  rw [h "trace_id" (by decide)] at hv
  rw [h "correlation_id" (by decide)]
  exact own.correlationField_trace hv

/-! ### A traced request around an untraced one -/

def callerTrace : TraceContext :=
  .new 0 "4bf92f3577b34da6a3ce929d0e0e4736" "00f067aa0ba902b7" 1 .level1
    (asBytes "00-4bf92f3577b34da6a3ce929d0e0e4736-00f067aa0ba902b7-01")

def tracedRequest : RequestContext := .new ⟨"traced-request", by decide⟩ (some callerTrace)

def untracedRequest : RequestContext := .new ⟨"untraced-request", by decide⟩ none

def genericLayer : JsonLayer := .fromConvention .whole .generic

def applicationEvent : Event :=
  ⟨⟨"event", "app", some "app", .info⟩, [("message", some (.debug "working"))]⟩

/-- The life of a request's span. -/
def requestSpanLife (context : RequestContext) : SpanLife := ⟨requestAttributes context, []⟩

theorem formatEvent_correlation_traced_inside :
    ∃ m line, WritesLine .reference .whole genericLayer "2026-01-01T00:00:00Z"
      ([requestSpanLife untracedRequest, requestSpanLife tracedRequest].map SpanLife.data)
      applicationEvent m line ∧
      (((∀ key, isRequestField key = true → m[key]? = tracedRequest.correlationField key) ∧
          ∀ v, m["trace_id"]? = some v → m["correlation_id"]? = some v) ↔
        ∀ context ∈ [untracedRequest], tracedRequest.Covers context) :=
  formatEvent_correlation_iff .reference .whole genericLayer _ applicationEvent _
    [untracedRequest] tracedRequest (Or.inl (by decide)) rfl

/-- **Fields of two requests in one line.**  An event of an untraced request inside
a traced one has the outer trace identifier beside the inner correlation
identifier. -/
theorem formatEvent_correlation_mixed :
    ∃ m, formatEvent .reference .whole .generic "2026-01-01T00:00:00Z"
      ([requestSpanLife tracedRequest, requestSpanLife untracedRequest].map SpanLife.data)
      applicationEvent = .ok m ∧
      untracedRequest.correlationField "trace_id" = none ∧
      m["trace_id"]? = some (.string "4bf92f3577b34da6a3ce929d0e0e4736") ∧
      m["correlation_id"]? = some (.string "untraced-request") := by
  obtain ⟨m, hm, -⟩ := formatEvent_spec .reference .whole .generic "2026-01-01T00:00:00Z"
    ([requestSpanLife tracedRequest, requestSpanLife untracedRequest].map SpanLife.data)
    applicationEvent
  have hfield : ∀ key, isRequestField key = true →
      m[key]? = (untracedRequest.correlationField key).or (tracedRequest.correlationField key) := by
    intro key hkey
    have hline : m[key]? = (untracedRequest.correlationField key).or
        (requestFields ([tracedRequest].map requestSpanData))[key]? :=
      getElem?_line_correlation .generic _ (Or.inl (by decide)) rfl hm hkey
    rw [hline]
    exact congrArg _ ((getElem?_requestFields_own [] tracedRequest key).trans
      (by simp [requestFields]))
  exact ⟨m, hm, rfl, hfield "trace_id" (by decide), hfield "correlation_id" (by decide)⟩

end AxumObservability
