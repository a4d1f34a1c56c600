import AxumObservability.Enrichment
import AxumObservability.Service

/-!
# One correlation from the headers to the line

The context of a request reaches the log twice, through the fields of its span
and through its terminal record, and the provider projection reads it from there
with a validation of its own.

* `RequestContext.Reads.validTraceId`: what the parser accepts the projection validates;
* `getElem?_portableFields_provider`: no event brings provider fields of its own;
* `prepare_correlates`: the lines of a request carry its context.
-/

namespace AxumObservability

open Std Library.FieldMap Library.Json Library.Panics Library.Text

/-! ## The two validations of a trace identifier -/

section

variable {M V : Type} [Headers M V]

/-- The trace context of a request is the one that the only traceparent among the
headers spells. -/
structure RequestContext.Reads (context : RequestContext) (headers : M) : Prop where
  accepted : context.traceContext.isSome = true ↔ ∃ parent W T P F S,
    Headers.getAll headers "traceparent" = [parent] ∧
      TraceparentGrammar (Headers.valueBytes M parent) W T P F S
  parts : ∀ trace, context.traceContext = some trace → ∃ parent W T P F S,
    Headers.getAll headers "traceparent" = [parent] ∧
      TraceparentGrammar (Headers.valueBytes M parent) W T P F S ∧
      asBytes trace.traceId = T ∧ asBytes trace.parentId = P ∧
      asBytes (lowerHex02 trace.flags) = F
  correlation : context.correlationId = match context.traceContext with
    | some trace => trace.traceId
    | none => context.requestId.asStr

theorem reads_of_select {headers : M} {level : TraceContextLevel} {context : RequestContext}
    (h : selectTraceContext headers level = .ok context.traceContext) : context.Reads headers := by
  have hcorrelation : context.correlationId = match context.traceContext with
      | some trace => trace.traceId
      | none => context.requestId.asStr := by
    rw [context.correlated]
    cases context.traceContext <;> rfl
  have hparts : ∀ trace, context.traceContext = some trace → ∃ parent W T P F S,
      Headers.getAll headers "traceparent" = [parent] ∧
        TraceparentGrammar (Headers.valueBytes M parent) W T P F S ∧
        asBytes trace.traceId = T ∧ asBytes trace.parentId = P ∧
        asBytes (lowerHex02 trace.flags) = F := by
    intro trace htrace
    rw [htrace] at h
    rcases selectTraceContext_cases headers level with hnone | ⟨parent, read, hone, hparse, hselect⟩
    · cases hnone.symm.trans h
    · cases hselect.symm.trans h
      rcases parse_cases (Headers.valueBytes M parent) level with ⟨l, hbytes, g, read', hread, d⟩ |
        ⟨-, hread⟩
      · cases hread.symm.trans hparse
        rw [hbytes] at g
        exact ⟨parent, _, _, _, _, _, hone, g, d.traceId, d.parentId, d.flags⟩
      · cases hread.symm.trans hparse
  refine ⟨⟨fun hsome => ?_, ?_⟩, hparts, hcorrelation⟩
  · obtain ⟨trace, htrace⟩ := Option.isSome_iff_exists.mp hsome
    obtain ⟨parent, W, T, P, F, S, hone, g, -⟩ := hparts trace htrace
    exact ⟨parent, W, T, P, F, S, hone, g⟩
  · rintro ⟨parent, W, T, P, F, S, hone, g⟩
    obtain ⟨trace, hparse, -⟩ := g.parse level
    rw [Except.ok.inj (h.symm.trans (selectTraceContext_of_accepted hone hparse))]
    rfl

/-- **What the parser accepts the projection validates.** -/
theorem RequestContext.Reads.validTraceId {context : RequestContext} {headers : M}
    (h : context.Reads headers) {trace : TraceContext}
    (htrace : context.traceContext = some trace) :
    ValidTraceId trace.traceId := by
  obtain ⟨parent, W, T, P, F, S, -, g, rfl, -, -⟩ := h.parts trace htrace
  exact ⟨g.traceId.1, List.all_eq_true.mp g.traceId.2.1, g.traceId.2.2⟩

end

/-! ## The maps before the projection -/

section

variable {serde : SerdeJson} {float : FloatArithmetic} {convention : FieldConvention}
  {timestamp : String} {scope : List SpanData} {event : Event} {context : RequestContext}

/-- **No event brings provider fields of its own**, be it from the application or
the terminal one, with its record or without. -/
theorem getElem?_portableFields_provider (timestamp : String) (scope : List SpanData)
    (hevent : event.metadata.modulePath ≠ some middlewareModule ∨
      IsTerminalEvent serde float context event) {key : String}
    (hkey : key ∈ providerNames convention) :
    (portableFields serde float convention timestamp scope event)[key]? = none := by
  obtain ⟨haccess, hown, hmessage, hhttp, henvelope⟩ := providerNames_spec convention key hkey
  have hreserved := isEventReserved_of_mem (Or.inl hkey)
  have hrequest : requestField scope key = none := by
    rw [requestField, if_neg]
    intro h
    exact (requestField_not_mem h convention).1 hkey
  have hnone : accessRecordOf serde event.metadata (recordFields event.fields) = none →
      (portableFields serde float convention timestamp scope event)[key]? = none := by
    intro h
    rw [getElem?_portableFields_of_none serde float convention timestamp scope event h, hrequest,
      envelopeField_of_not_mem henvelope, eventField, if_pos hreserved]
    rfl
  rcases hevent with happlication | ⟨state, outcome, finished, enrichment, level, text, rfl,
    htext, rfl⟩
  · exact hnone (accessRecordOf_application serde happlication _)
  · have hop := serde.hop _ text htext
    split at hop
    · exact getElem?_portableFields_absent hop haccess hown hmessage hhttp henvelope
    · exact hnone ((accessRecordOf_accessEvent serde level text).trans hop)

/-- What the map before the projection shows of a context. -/
structure ShowsContext (context : RequestContext) (convention : FieldConvention) (m : Map) :
    Prop where
  correlation : ∀ key, isRequestField key = true → m[key]? = context.correlationField key
  provider : ∀ key ∈ providerNames convention, m[key]? = none

/-- Where the spans show the context, every event of the request does. -/
theorem showsContext_of_scope (timestamp : String)
    (hevent : event.metadata.modulePath ≠ some middlewareModule ∨
      IsTerminalEvent serde float context event)
    (hscope : ∀ key, isRequestField key = true →
      requestField scope key = context.correlationField key) :
    ShowsContext context convention
      (portableFields serde float convention timestamp scope event) := by
  refine ⟨fun key hkey => ?_, fun key hkey =>
    getElem?_portableFields_provider timestamp scope hevent hkey⟩
  obtain ⟨added, hadded, hportable⟩ :=
    getElem?_portableFields_correlation convention timestamp scope hevent hkey
  rw [hportable, hscope key hkey]
  rcases hadded with rfl | rfl
  · exact Option.or_none
  · exact Option.or_self

/-- Without request spans a terminal event shows the context by its record. -/
theorem showsContext_of_record (timestamp : String) (level : Level) {text : String}
    {record : AccessRecord} (htext : serde.toString record.toValue = some text)
    (hrecord : record.correlationFields = context.correlationFields)
    (hdepth : record.toValue.depth < 128)
    (hevent : IsTerminalEvent serde float context (accessEvent level text))
    (hscope : WithoutRequestSpans scope) :
    ShowsContext context convention
      (portableFields serde float convention timestamp scope (accessEvent level text)) := by
  have hop := serde.hop _ text htext
  rw [if_pos hdepth] at hop
  refine ⟨fun key hkey => ?_, fun key hkey =>
    getElem?_portableFields_provider timestamp scope (Or.inr hevent) hkey⟩
  have hnone : requestField scope key = none := by
    rw [requestField, requestFields_of_none hscope]
    simp
  rw [getElem?_portableFields_own convention timestamp scope level hop hrecord hkey, hnone,
    Option.none_or]

end

/-- In the span of a request alone, the spans show its context. -/
theorem requestField_own {scope : List SpanData} (hscope : WithoutRequestSpans scope)
    (context : RequestContext) {key : String} (hkey : isRequestField key = true) :
    requestField (scope ++ [requestSpanData context]) key = context.correlationField key := by
  rw [requestField, if_pos hkey, getElem?_requestFields_own, requestFields_of_none hscope]
  simp

/-! ## The lines of a request -/

/-- A line carries the context of a request: the seven correlation fields, and the
provider fields of the convention exactly with a trace context. -/
structure RequestContext.CarriedBy (context : RequestContext) (convention : FieldConvention)
    (m : Map) : Prop where
  requestId : m["request_id"]? = some (.string context.requestId.asStr)
  correlationId : m["correlation_id"]? = some (.string context.correlationId)
  traceId : m["trace_id"]? = context.traceContext.map fun trace => .string trace.traceId
  parentId : m["parent_id"]? = context.traceContext.map fun trace => .string trace.parentId
  traceFlags : m["trace_flags"]? =
    context.traceContext.map fun trace => .string (lowerHex02 trace.flags)
  traceSampled : m["trace_sampled"]? = context.traceContext.map fun trace => .bool trace.sampled
  traceIdRandom : m["trace_id_random"]? =
    (context.traceContext.bind TraceContext.traceIdRandom).map .bool
  provider : ∀ key ∈ providerNames convention,
    (m[key]?.isSome = true ↔ context.traceContext.isSome = true)
  gcp : convention = .gcp → ∀ trace, context.traceContext = some trace →
    m["logging.googleapis.com/trace"]? = some (.string trace.traceId) ∧
      m["logging.googleapis.com/trace_sampled"]? = some (.bool trace.sampled)
  azure : convention = .azure → ∀ trace, context.traceContext = some trace →
    m["operation_Id"]? = some (.string trace.traceId) ∧
      m["operation_ParentId"]? = some (.string trace.parentId)
  aws : convention = .aws → ∀ trace, context.traceContext = some trace → ∃ front back,
    m["xray_trace_id"]? = some (.string ("1-" ++ front ++ "-" ++ back)) ∧
      asBytes front = (asBytes trace.traceId).take 8 ∧
      asBytes back = (asBytes trace.traceId).drop 8 ∧ front ++ back = trace.traceId

theorem xrayTraceId_spec {traceId : String} (h : ValidTraceId traceId) : ∃ front back,
    xrayTraceId traceId = .ok ("1-" ++ front ++ "-" ++ back) ∧
      asBytes front = (asBytes traceId).take 8 ∧ asBytes back = (asBytes traceId).drop 8 ∧
      front ++ back = traceId := by
  have hascii : ∀ b ∈ asBytes traceId, b < 128 := by
    intro b hb
    exact isLowerHexDigit_ascii b (h.lowerHex b hb)
  obtain ⟨front, hfront, htake⟩ := slice_ascii (i := 0) (j := 8) hascii (by omega)
    (by rw [h.length]; omega)
  obtain ⟨back, hback, hdrop⟩ := slice_ascii (i := 8) (j := (asBytes traceId).length) hascii
    (by rw [h.length]; omega) le_rfl
  have hrest : asBytes back = (asBytes traceId).drop 8 := by
    rw [hdrop]
    exact List.take_of_length_le (by rw [List.length_drop])
  refine ⟨front, back, by rw [xrayTraceId, hfront, ok_bind, hback]; rfl, htake, hrest, ?_⟩
  apply asBytes_injective
  rw [asBytes_append, htake, hrest]
  exact List.take_append_drop 8 _

/-- The provider field of a map that shows a context with a valid trace identifier. -/
theorem ShowsContext.providerField_eq {context : RequestContext} {convention : FieldConvention}
    {m : Map} (h : ShowsContext context convention m) {trace : TraceContext}
    (htrace : context.traceContext = some trace) (hvalid : ValidTraceId trace.traceId) :
    validatedTraceId m = some trace.traceId ∧
      m["trace_sampled"]? = some (.bool trace.sampled) ∧
      m["parent_id"]? = some (.string trace.parentId) := by
  have hfield : ∀ key, context.correlationField key =
      (context.correlationFields.lookup key).join := fun _ => rfl
  rw [validatedTraceId_eq_some_iff, h.correlation "trace_id" (by decide),
    h.correlation "trace_sampled" (by decide), h.correlation "parent_id" (by decide), hfield,
    hfield, hfield, RequestContext.correlationFields, htrace]
  exact ⟨⟨rfl, hvalid⟩, rfl, rfl⟩

theorem ShowsContext.providerField_eq_none {context : RequestContext}
    {convention : FieldConvention} {m : Map} (h : ShowsContext context convention m)
    (htrace : context.traceContext = none) (key : String) :
    providerField convention m key = none := by
  have hid : m["trace_id"]? = none := by
    rw [h.correlation "trace_id" (by decide), RequestContext.correlationField,
      RequestContext.correlationFields, htrace]
    rfl
  have hnone : validatedTraceId m = none := by
    rw [validatedTraceId, hid]
    rfl
  rw [providerField, hnone]

/-- **A line carries the context that the map before the projection shows.** -/
theorem ShowsContext.carriedBy {context : RequestContext} {convention : FieldConvention}
    {portable m : Map} (h : ShowsContext context convention portable)
    (hvalid : ∀ trace, context.traceContext = some trace → ValidTraceId trace.traceId)
    (hm : ∀ key : String, m[key]? = (providerField convention portable key).or portable[key]?) :
    context.CarriedBy convention m := by
  have hcorrelation : ∀ key, isRequestField key = true →
      m[key]? = context.correlationField key := by
    intro key hkey
    rw [hm, providerField_of_not_mem (requestField_not_mem hkey convention).1, Option.none_or,
      h.correlation key hkey]
  have hprovider : ∀ key ∈ providerNames convention,
      m[key]? = providerField convention portable key := by
    intro key hkey
    rw [hm, h.provider key hkey, Option.or_none]
  refine ⟨hcorrelation _ rfl, hcorrelation _ rfl, hcorrelation _ rfl, hcorrelation _ rfl,
    hcorrelation _ rfl, hcorrelation _ rfl, hcorrelation _ rfl, fun key hkey => ?_, ?_, ?_, ?_⟩
  · rw [hprovider key hkey]
    cases htrace : context.traceContext with
    | none => simp [h.providerField_eq_none htrace]
    | some trace =>
      obtain ⟨hid, hsampled, hparent⟩ := h.providerField_eq htrace (hvalid trace htrace)
      obtain ⟨front, back, hxray, -⟩ := xrayTraceId_spec (hvalid trace htrace)
      rw [providerField, hid]
      cases convention with
      | generic => cases hkey
      | gcp =>
        simp only [providerNames, List.mem_cons, List.not_mem_nil, or_false] at hkey
        rcases hkey with rfl | rfl <;> simp [hsampled]
      | aws =>
        simp only [providerNames, List.mem_cons, List.not_mem_nil, or_false] at hkey
        subst hkey
        simp [hxray, Except.toOption]
      | azure =>
        simp only [providerNames, List.mem_cons, List.not_mem_nil, or_false] at hkey
        rcases hkey with rfl | rfl <;> simp [hparent]
  · rintro rfl trace htrace
    obtain ⟨hid, hsampled, -⟩ := h.providerField_eq htrace (hvalid trace htrace)
    rw [hprovider _ (by decide), hprovider _ (by decide), providerField, providerField, hid]
    exact ⟨rfl, hsampled⟩
  · rintro rfl trace htrace
    obtain ⟨hid, -, hparent⟩ := h.providerField_eq htrace (hvalid trace htrace)
    rw [hprovider _ (by decide), hprovider _ (by decide), providerField, providerField, hid]
    exact ⟨rfl, hparent⟩
  · rintro rfl trace htrace
    obtain ⟨hid, -, -⟩ := h.providerField_eq htrace (hvalid trace htrace)
    obtain ⟨front, back, hxray, hfront, hback, hwhole⟩ := xrayTraceId_spec (hvalid trace htrace)
    refine ⟨front, back, ?_, hfront, hback, hwhole⟩
    rw [hprovider _ (by decide), providerField, hid]
    simp [hxray, Except.toOption]

/-- An application event in the span of a request alone. -/
theorem carriedBy_of_ownSpan (platform : Platform) {context : RequestContext}
    (hvalid : ∀ trace, context.traceContext = some trace → ValidTraceId trace.traceId)
    {scope : List SpanLife} {event : Event} (timestamp : String)
    (hspans : packageSpans scope = [requestAttributes context])
    (happlication : event.metadata.modulePath ≠ some middlewareModule) :
    ∃ m line, WritesLine platform.serde platform.float platform.layer timestamp
        (scope.map SpanLife.data) event m line ∧
      context.CarriedBy platform.layer.fieldConvention m := by
  obtain ⟨m, line, hline⟩ := exists_writesLine platform.serde platform.float platform.layer
    timestamp (scope.map SpanLife.data) event
  have hscope : ∀ key, isRequestField key = true →
      requestField (scope.map SpanLife.data) key = context.correlationField key := by
    intro key hkey
    have hspans' : packageSpans scope =
        (([] : List RequestContext) ++ [context]).map requestAttributes := hspans
    rw [requestField_chain hspans' hkey]
    simp [requestFields]
  refine ⟨m, line, hline, ?_⟩
  exact (showsContext_of_scope timestamp (Or.inl happlication) hscope).carriedBy hvalid
    (getElem?_formatEvent hline.object)

/-- The terminal event of a request, by the request's span or else by its record. -/
theorem carriedBy_of_finish (platform : Platform) {final : TerminalState}
    (hvalid : ∀ trace, final.requestContext.traceContext = some trace →
      ValidTraceId trace.traceId) {outer : List SpanData} (houter : WithoutRequestSpans outer)
    (hspan : final.span = requestSpan platform outer final.requestContext)
    (outcome : TerminalOutcome) (w : World) (timestamp : String)
    (hstatus : outcome = .completed → final.status.isSome = true)
    (hseen : platform.enabled requestMetadata = true ∨ WithoutRequestSpans w.scope ∧
      ∀ (key : String) (v : Value),
        (final.enrichment (w.calls ++ final.levelCalls outcome ++ [.clock]))[key]? = some v →
          v.depth ≤ 125) :
    ∃ guard w' emitted m line,
      ((⟨some final⟩ : TerminalGuard).finish platform outcome).run w = .ok (guard, w') ∧
      w'.emitted = w.emitted ++ [emitted] ∧
      WritesLine platform.serde platform.float platform.layer timestamp emitted.scope
        emitted.event m line ∧
      final.requestContext.CarriedBy platform.layer.fieldConvention m := by
  obtain ⟨guard, w', serialized, m, line, hfinish, htext, hemitted, hline⟩ :=
    exists_terminalLine platform final outcome timestamp w hstatus
  have hevent : IsTerminalEvent platform.serde platform.float final.requestContext
      (accessEvent (final.level outcome w.calls) serialized) :=
    ⟨final, outcome, _, _, _, serialized, rfl, htext, rfl⟩
  refine ⟨guard, w', _, m, line, hfinish, hemitted, hline, ?_⟩
  refine ShowsContext.carriedBy ?_ hvalid (getElem?_formatEvent hline.object)
  rw [hspan, requestSpan]
  by_cases henabled : platform.enabled requestMetadata = true
  · rw [if_pos henabled]
    exact showsContext_of_scope timestamp (Or.inr hevent)
      fun key hkey => requestField_own houter _ hkey
  · obtain ⟨hscope, hdepth⟩ := hseen.resolve_left henabled
    rw [if_neg henabled]
    refine showsContext_of_record timestamp _ htext ?_ ?_ hevent hscope
    · exact record_correlationFields final _ _ _ _
    · exact Nat.lt_succ_of_le ((AccessRecord.depth_toValue_le_iff _ 125).mpr hdepth)

theorem addProviderTraceFields_of_not_valid {output : Map} (convention : FieldConvention)
    (h : ¬ ∃ traceId, output["trace_id"]? = some (.string traceId) ∧ ValidTraceId traceId) :
    addProviderTraceFields output convention = .ok output := by
  have hnone : validatedTraceId output = none := by
    rw [Option.eq_none_iff_forall_ne_some]
    intro traceId hid
    exact h ⟨traceId, (validatedTraceId_eq_some_iff output traceId).mp hid⟩
  rw [addProviderTraceFields, hnone]
  rfl

/-- **The lines of a request carry its context.**  The context is what the headers
say. Inside the request's span, with no other package span around it, every
application event has a line with the seven correlation fields of the context and
the provider fields that follow from it, and so has the terminal event; where the
subscriber has no request spans the terminal line takes them from a record that
can be read back. The projection adds nothing to a map without a valid trace
identifier, and never panics. -/
theorem prepare_correlates {M V X B : Type} [Headers M V] (platform : Platform)
    (config : ObservabilityConfig) (request : Request M X B) (w : World)
    (houter : WithoutRequestSpans w.scope) :
    (∃ request' state w',
      (prepare platform config request).run w = .ok ((request', ⟨some state⟩), w') ∧
      state.requestContext.Reads request'.headers ∧
      (∀ (scope : List SpanLife) (event : Event) (timestamp : String),
        packageSpans scope = [requestAttributes state.requestContext] →
        event.metadata.modulePath ≠ some middlewareModule →
        ∃ m line, WritesLine platform.serde platform.float platform.layer timestamp
            (scope.map SpanLife.data) event m line ∧
          state.requestContext.CarriedBy platform.layer.fieldConvention m) ∧
      ∀ (final : TerminalState) (outcome : TerminalOutcome) (w₁ : World) (timestamp : String),
        final.requestContext = state.requestContext → final.span = state.span →
        (outcome = .completed → final.status.isSome = true) →
        (platform.enabled requestMetadata = true ∨ WithoutRequestSpans w₁.scope ∧
          ∀ (key : String) (v : Value),
            (final.enrichment (w₁.calls ++ final.levelCalls outcome ++ [.clock]))[key]? = some v →
              v.depth ≤ 125) →
        ∃ guard w₂ emitted m line,
          ((⟨some final⟩ : TerminalGuard).finish platform outcome).run w₁ = .ok (guard, w₂) ∧
          w₂.emitted = w₁.emitted ++ [emitted] ∧
          WritesLine platform.serde platform.float platform.layer timestamp emitted.scope
            emitted.event m line ∧
          state.requestContext.CarriedBy platform.layer.fieldConvention m) ∧
    (∀ byte : UInt8, (asBytes (lowerHex02 byte)).length = 2 ∧
      isLowerHex (asBytes (lowerHex02 byte)) = true) ∧
    ∀ (output : Map) (convention : FieldConvention), ∃ output',
      addProviderTraceFields output convention = .ok output' ∧
      ((¬ ∃ traceId, output["trace_id"]? = some (.string traceId) ∧ ValidTraceId traceId) →
        output' = output) := by
  refine ⟨?_, forall_byte (by decide +kernel), fun output convention => ?_⟩
  · obtain ⟨⟨request', guard⟩, w', hrun, state, rfl, hprepared⟩ :=
      prepare_spec platform config request w
    have hreads := reads_of_select hprepared.trace
    have hvalid : ∀ trace, state.requestContext.traceContext = some trace →
        ValidTraceId trace.traceId := fun _ htrace => hreads.validTraceId htrace
    refine ⟨request', state, w', hrun, hreads, ?_, ?_⟩
    · intro scope event timestamp hspans happlication
      exact carriedBy_of_ownSpan platform hvalid timestamp hspans happlication
    · intro final outcome w₁ timestamp hcontext hspan hstatus hseen
      rw [← hcontext] at hvalid ⊢
      rw [hprepared.span, ← hcontext] at hspan
      exact carriedBy_of_finish platform hvalid houter hspan outcome w₁ timestamp hstatus hseen
  · obtain ⟨output', houtput, -⟩ := addProviderTraceFields_spec output convention
    refine ⟨output', houtput, fun hinvalid => ?_⟩
    exact Except.ok.inj (houtput.symm.trans
      (addProviderTraceFields_of_not_valid convention hinvalid))

/-! ### An event of a traced request -/

def tracedArrival : Request HeaderList Unit Unit where
  method := "GET"
  uri := ⟨none, none, "/items/7", none⟩
  version := .http11
  headers := tracedHeaders
  extensions := ⟨some "/items/{item_id}", none, none, none, ()⟩
  body := ()

theorem prepare_correlates_traced :
    ∃ context m line, context.Reads tracedHeaders ∧
      WritesLine .reference .whole (.fromConvention .whole .aws) "2026-01-01T00:00:00Z"
        ([requestSpanLife context].map SpanLife.data) applicationEvent m line ∧
      context.CarriedBy .aws m := by
  obtain ⟨⟨request', state, w', hrun, hreads, hlines, -⟩, -, -⟩ := prepare_correlates
    { Platform.reference with layer := .fromConvention .whole .aws } (.default .reference)
    tracedArrival .initial (by simp [WithoutRequestSpans, World.initial])
  obtain ⟨m, line, hline, hcarried⟩ := hlines [requestSpanLife state.requestContext]
    applicationEvent "2026-01-01T00:00:00Z" rfl (by decide)
  have hheaders : Headers.getAll request'.headers "traceparent" = [tracedParent] := by
    obtain ⟨prepared, _, hrun', state', hstate', hprepared⟩ := prepare_spec
      { Platform.reference with layer := .fromConvention .whole .aws } (.default .reference)
      tracedArrival .initial
    cases hrun.symm.trans hrun'
    obtain ⟨value, -, hinsert⟩ := hprepared.inserted
    rw [hinsert, Headers.getAll_insert]
    rfl
  refine ⟨state.requestContext, m, line, ⟨?_, ?_, hreads.correlation⟩, hline, hcarried⟩
  · have haccepted := hreads.accepted
    rw [hheaders] at haccepted
    exact haccepted
  · have hparts := hreads.parts
    rw [hheaders] at hparts
    exact hparts

end AxumObservability
