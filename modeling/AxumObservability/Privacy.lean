import AxumObservability.Enrichment
import AxumObservability.Lifecycle

/-!
# Privacy

Two exchanges that agree on what a log may show write the same terminal line,
whatever else their requests carry.

* `Prepared.correlationFields_eq`, `Prepared.metadata_eq`: what is captured of two
  requests that agree;
* `TerminalState.Alike.toValue_eq`: states that end alike make equal records;
* `call_noninterference`: the lines of two exchanges are equal.
-/

namespace AxumObservability

open Library.FieldMap Library.Json Library.Machines Library.Panics Library.Text

variable {M V X B ε δ η : Type}

/-! ## What of the headers is read -/

section

variable [Headers M V]

/-- The values of a header as bytes. -/
def headerBytes (headers : M) (name : HeaderName) : List Bytes :=
  (Headers.getAll headers name).map (Headers.valueBytes M)

/-- The traceparent that a request is correlated by: its only one, if the parser
accepts it. -/
def acceptedTraceparent (level : TraceContextLevel) : List Bytes → Option Bytes
  | [value] =>
    match parseTraceparentWithLevel value level with
    | .ok (some _) => some value
    | _ => none
  | _ => none

/-- Setting a header to equal values keeps two header maps equal as far as they are
read. -/
theorem read_insert {α : Type} (read : List Bytes → α) {m₁ m₂ : M} {v₁ v₂ : V}
    (name other : HeaderName) (hv : Headers.valueBytes M v₁ = Headers.valueBytes M v₂)
    (h : read (headerBytes m₁ other) = read (headerBytes m₂ other)) :
    read (headerBytes (Headers.insert m₁ name v₁) other) =
      read (headerBytes (Headers.insert m₂ name v₂) other) := by
  simp only [headerBytes, Headers.getAll_insert]
  split
  · rw [List.map_singleton, List.map_singleton, hv]
  · exact h

theorem exactlyOneHeader_eq (headers : M) (name : HeaderName) :
    exactlyOneHeader headers name = callerValue (headerBytes headers name) := by
  rw [exactlyOneHeader, headerBytes]
  rcases Headers.getAll headers name with _ | ⟨value, _ | ⟨other, others⟩⟩
  · rfl
  · simp only [callerValue, List.map_cons, List.map_nil]
    cases fromUtf8 (Headers.valueBytes M value) with
    | none => rfl
    | some first => cases hn : nativeFieldContent first <;> simp [Option.filter, hn]
  · simp only [callerValue, List.map_cons]
    cases fromUtf8 (Headers.valueBytes M value) <;> simp

/-- The accepted traceparent is the one kept in the trace context. -/
theorem acceptedTraceparent_of_select {headers : M} {level : TraceContextLevel}
    {trace : Option TraceContext} (h : selectTraceContext headers level = .ok trace) :
    acceptedTraceparent level (headerBytes headers "traceparent") =
      trace.map TraceContext.traceparent := by
  rw [headerBytes]
  match hparents : Headers.getAll headers "traceparent" with
  | [] =>
    have hnone : trace = none := by simpa [selectTraceContext, hparents] using h.symm
    rw [hnone]
    rfl
  | first :: second :: others =>
    have hnone : trace = none := by simpa [selectTraceContext, hparents] using h.symm
    rw [hnone]
    rfl
  | [parent] =>
    rw [List.map_singleton, acceptedTraceparent]
    rcases parse_cases (Headers.valueBytes M parent) level with ⟨l, -, -, trace', hparse, d⟩ |
      ⟨-, hparse⟩
    · rw [selectTraceContext_of_accepted hparents hparse] at h
      cases h
      rw [hparse, Option.map_some, TraceContext.withTracestate, d.traceparent]
    · have hnone : trace = none := by simpa [selectTraceContext, hparents, hparse] using h.symm
      rw [hparse, hnone]
      rfl

/-! ## What of a request is captured -/

/-- Two requests agree on what the log of a configuration may show of them. -/
structure Request.Agree (config : ObservabilityConfig) (r₁ r₂ : Request M X B) : Prop where
  method : r₁.method = r₂.method
  traceparent :
    (acceptedTraceparent config.traceContextLevel (headerBytes r₁.headers "traceparent")).map
        (List.take 55) =
      (acceptedTraceparent config.traceContextLevel (headerBytes r₂.headers "traceparent")).map
        (List.take 55)
  matchedPath : r₁.extensions.matchedPath = r₂.extensions.matchedPath
  operationId : r₁.extensions.operationId = r₂.extensions.operationId
  path : config.rawPath = true → r₁.uri.path = r₂.uri.path
  peerIp : config.peerIp = true →
    r₁.extensions.connectInfo.map SocketAddr.ip = r₂.extensions.connectInfo.map SocketAddr.ip
  userAgent : config.userAgent = true →
    exactlyOneHeader r₁.headers "user-agent" = exactlyOneHeader r₂.headers "user-agent"

variable {platform : Platform} {config : ObservabilityConfig} {r₁ r₂ r₁' r₂' : Request M X B}
  {w₁ w₂ w₁' w₂' : World} {s₁ s₂ : TerminalState}

/-- Contexts with one identifier show the same where their traceparents start the
same. -/
theorem RequestContext.correlationFields_eq {c₁ c₂ : RequestContext} (level : TraceContextLevel)
    (hid : c₁.requestId = c₂.requestId)
    (h₁ : ∀ trace, c₁.traceContext = some trace → trace.Encodes level)
    (h₂ : ∀ trace, c₂.traceContext = some trace → trace.Encodes level)
    (hfront : c₁.traceContext.map (fun trace => trace.traceparent.take 55) =
      c₂.traceContext.map (fun trace => trace.traceparent.take 55)) :
    c₁.correlationFields = c₂.correlationFields := by
  obtain ⟨id, _, trace₁, rfl⟩ := c₁
  obtain ⟨_, _, trace₂, rfl⟩ := c₂
  cases hid
  cases trace₁ with
  | none =>
    cases trace₂ with
    | none => rfl
    | some trace₂ => cases hfront
  | some trace₁ =>
    cases trace₂ with
    | none => cases hfront
    | some trace₂ =>
      obtain ⟨hversion, htraceId, hparentId, hflags, hlevel⟩ :=
        (h₁ _ rfl).ext (h₂ _ rfl) (Option.some.inj hfront)
      simp [correlationFields, correlationOf, TraceContext.sampled, TraceContext.traceIdRandom,
        hversion, htraceId, hparentId, hflags, hlevel]

/-- **The contexts of two requests that agree** differ in the rest of their
traceparents and in their tracestates at most. -/
theorem Prepared.correlationFields_eq (h₁ : Prepared platform config r₁ w₁ r₁' s₁ w₁')
    (h₂ : Prepared platform config r₂ w₂ r₂' s₂ w₂') (h : r₁.Agree config r₂)
    (hid : s₁.requestContext.requestId = s₂.requestContext.requestId) :
    s₁.requestContext.correlationFields = s₂.requestContext.correlationFields := by
  obtain ⟨v₁, hbytes₁, hinserted₁⟩ := h₁.inserted
  obtain ⟨v₂, hbytes₂, hinserted₂⟩ := h₂.inserted
  have hfront : s₁.requestContext.traceContext.map (fun trace => trace.traceparent.take 55) =
      s₂.requestContext.traceContext.map (fun trace => trace.traceparent.take 55) := by
    have hread := read_insert
      (fun values => (acceptedTraceparent config.traceContextLevel values).map (List.take 55))
      config.requestIdHeader "traceparent" (hbytes₁.trans (hid ▸ hbytes₂.symm)) h.traceparent
    rw [← hinserted₁, ← hinserted₂, acceptedTraceparent_of_select h₁.trace,
      acceptedTraceparent_of_select h₂.trace, Option.map_map, Option.map_map] at hread
    exact hread
  refine RequestContext.correlationFields_eq config.traceContextLevel hid
    (fun trace htrace => ?_) (fun trace htrace => ?_) hfront
  · exact encodes_of_select (h₁.trace.trans (congrArg Except.ok htrace))
  · exact encodes_of_select (h₂.trace.trans (congrArg Except.ok htrace))

theorem Prepared.metadata_eq (h₁ : Prepared platform config r₁ w₁ r₁' s₁ w₁')
    (h₂ : Prepared platform config r₂ w₂ r₂' s₂ w₂') (h : r₁.Agree config r₂)
    (hid : s₁.requestContext.requestId = s₂.requestContext.requestId) :
    s₁.metadata = s₂.metadata := by
  obtain ⟨v₁, hbytes₁, hinserted₁⟩ := h₁.inserted
  obtain ⟨v₂, hbytes₂, hinserted₂⟩ := h₂.inserted
  have huserAgent : config.userAgent = true →
      exactlyOneHeader r₁'.headers "user-agent" = exactlyOneHeader r₂'.headers "user-agent" := by
    intro hon
    have hread := h.userAgent hon
    rw [exactlyOneHeader_eq, exactlyOneHeader_eq] at hread
    rw [exactlyOneHeader_eq, exactlyOneHeader_eq, hinserted₁, hinserted₂]
    exact read_insert callerValue config.requestIdHeader "user-agent"
      (hbytes₁.trans (hid ▸ hbytes₂.symm)) hread
  rw [h₁.captured, h₂.captured]
  simp only [RequestMetadata.fromRequest, peerIp, RequestMetadata.mk.injEq, h.method,
    h.matchedPath, h.operationId, true_and]
  refine ⟨?_, ?_, ?_⟩
  · split
    · rename_i hon
      rw [h.path hon]
    · rfl
  · cases hon : config.peerIp with
    | true => exact h.peerIp hon
    | false => rfl
  · split
    · rename_i hon
      exact huserAgent hon
    · rfl

end

/-! ## What of an exchange is reported -/

/-- With no other request span around, an event lies in that of its own request. -/
theorem requestFields_inScope (platform : Platform) (context : RequestContext)
    {outer scope : List SpanData} (houter : WithoutRequestSpans outer)
    (hscope : WithoutRequestSpans scope) :
    requestFields ((requestSpan platform outer context).inScope scope) =
      if platform.enabled requestMetadata then
        insertWhere (fun _ _ => true) ∅ (.ofList (ofOptions context.correlationFields))
      else ∅ := by
  rw [requestSpan]
  split
  · change requestFields (outer ++ [requestSpanData context]) = _
    rw [requestFields, List.foldl_append, ← requestFields, requestFields_of_none houter,
      List.foldl_cons, requestSpanData_requestSpanFields]
    rfl
  · exact requestFields_of_none hscope

theorem formatEvent_congr (serde : SerdeJson) (float : FloatArithmetic)
    (convention : FieldConvention) (timestamp : String) (event : Event)
    {scope₁ scope₂ : List SpanData} (h : requestFields scope₁ = requestFields scope₂) :
    formatEvent serde float convention timestamp scope₁ event =
      formatEvent serde float convention timestamp scope₂ event := by
  rw [formatEvent, formatEvent, portableFields, portableFields, h]

/-- Two states at the end of their exchanges report alike. -/
structure TerminalState.Alike (s₁ s₂ : TerminalState) (outcome : TerminalOutcome)
    (calls₁ calls₂ : List Call) : Prop where
  context : s₁.requestContext.correlationFields = s₂.requestContext.correlationFields
  metadata : s₁.metadata = s₂.metadata
  status : s₁.status = s₂.status
  config : s₁.config = s₂.config
  started : s₁.started = s₂.started
  finished : s₁.finished (calls₁ ++ s₁.levelCalls outcome) =
    s₂.finished (calls₂ ++ s₂.levelCalls outcome)
  enrichment : s₁.enrichment (calls₁ ++ s₁.levelCalls outcome ++ [.clock]) =
    s₂.enrichment (calls₂ ++ s₂.levelCalls outcome ++ [.clock])

namespace TerminalState.Alike

variable {s₁ s₂ : TerminalState} {outcome : TerminalOutcome} {calls₁ calls₂ : List Call}

theorem toValue_eq (h : s₁.Alike s₂ outcome calls₁ calls₂) (float : FloatArithmetic) :
    (s₁.terminalRecord outcome calls₁ float).toValue =
      (s₂.terminalRecord outcome calls₂ float).toValue := by
  have hrecord : ∀ finished enrichment, (s₁.record float outcome finished enrichment).toValue =
      (s₂.record float outcome finished enrichment).toValue := by
    intro finished enrichment
    have haccess : (s₁.record float outcome finished enrichment).accessFields =
        (s₂.record float outcome finished enrichment).accessFields := by
      simp only [TerminalState.record, AccessRecord.accessFields, h.metadata, h.status, h.started]
    simp only [AccessRecord.toValue, AccessRecord.fields, AccessRecord.ownFields,
      record_correlationFields, h.context, haccess]
    rfl
  simp only [TerminalState.terminalRecord, h.finished, h.enrichment, hrecord]

theorem level_eq (h : s₁.Alike s₂ outcome calls₁ calls₂)
    (hlevel : ∀ calls₁ calls₂ status,
      s₂.config.levelMapper calls₁ status = s₂.config.levelMapper calls₂ status) :
    s₁.level outcome calls₁ = s₂.level outcome calls₂ := by
  simp only [TerminalState.level, h.status, h.config, hlevel calls₁ calls₂]

end TerminalState.Alike

theorem TerminalState.atEvent_eq {state : TerminalState} (hfresh : state.status = none)
    (event : TerminalEvent M X) : state.atEvent event = { state with
      status := event.head?.map Response.status
      metadata := { state.metadata with
        operationId := ((event.head?.bind fun head => head.extensions.operationId).map
          OperationId.asStr).or state.metadata.operationId } } := by
  rw [TerminalState.atEvent]
  cases event.head? with
  | none =>
    obtain ⟨_, _, _, _, _, _⟩ := state
    cases hfresh
    rfl
  | some head => rfl

/-! ## Two exchanges -/

/-- A call that gave out its future, and what was made of it up to the end of the
exchange, under no other request span. -/
structure ObservedRun (M X B ε δ η : Type) {V : Type} [Headers M V] (platform : Platform)
    (config : ObservabilityConfig) where
  service : InnerService M X B ε δ η
  inner : service.State
  request : Request M X B
  world : World
  exchange : Exchange service
  state : TerminalState
  ops : List Operation
  event : TerminalEvent M X
  called : ObservabilityService.call platform config service inner request world =
    (.ok (), exchange)
  armed : exchange.stage = .future ⟨some state⟩
  ended : (bareMachine service).firstEvent terminalEvent (.ofExchange exchange) ops = some event
  alone : WithoutRequestSpans world.scope
  alone_after : ∀ op ∈ ops, op.Within WithoutRequestSpans

namespace ObservedRun

variable [Headers M V] {platform : Platform} {config : ObservabilityConfig}

def final (run : ObservedRun M X B ε δ η platform config) : Exchange run.service :=
  (exchangeMachine platform config run.service).run run.exchange run.ops

/-- The calls before the last clock reading. -/
def calls (run : ObservedRun M X B ε δ η platform config) : List Call :=
  run.exchange.world.calls ++ (run.state.atEvent run.event).levelCalls run.event.outcome

/-- Two runs agree on their requests as far as the log may show them, on the selected
identifier, the clock readings and the enrichment, and on how they ended. -/
structure Agree (run₁ run₂ : ObservedRun M X B ε δ η platform config) : Prop where
  request : run₁.request.Agree config run₂.request
  requestId : run₁.state.requestContext.requestId = run₂.state.requestContext.requestId
  started : run₁.state.started = run₂.state.started
  finished : run₁.state.finished run₁.calls = run₂.state.finished run₂.calls
  enrichment : run₁.state.enrichment (run₁.calls ++ [.clock]) =
    run₂.state.enrichment (run₂.calls ++ [.clock])
  outcome : run₁.event.outcome = run₂.event.outcome
  status : run₁.event.head?.map Response.status = run₂.event.head?.map Response.status
  operationId : (run₁.event.head?.bind fun head => head.extensions.operationId) =
    run₂.event.head?.bind fun head => head.extensions.operationId

/-- What a run has captured and what it emits. -/
theorem spec (run : ObservedRun M X B ε δ η platform config) :
    (∃ request', Prepared platform config run.request run.world request' run.state
        run.exchange.world) ∧
      ∃ emitted, run.event.Reported run.state platform run.exchange.world.calls
          WithoutRequestSpans emitted ∧
        run.final.world.emitted = run.world.emitted ++ [emitted] := by
  obtain ⟨request', state, hprepared, harmed⟩ :=
    armed_of_call run.called WithoutRequestSpans run.alone
  obtain rfl : run.state = state := by
    have hstage := run.armed.symm.trans harmed.stage_eq
    simpa using hstage
  refine ⟨⟨request', hprepared⟩, ?_⟩
  rcases harmed.run platform config run.ops run.alone_after with ⟨hnone, -⟩ |
    ⟨event, emitted, hsome, hreported, hemitted, -⟩
  · cases hnone.symm.trans run.ended
  · cases hsome.symm.trans run.ended
    exact ⟨emitted, hreported, hemitted.trans (by rw [hprepared.emitted])⟩

/-- Runs that agree end alike. -/
theorem Agree.alike {run₁ run₂ : ObservedRun M X B ε δ η platform config} (h : run₁.Agree run₂) :
    (run₁.state.atEvent run₁.event).Alike (run₂.state.atEvent run₂.event) run₁.event.outcome
      run₁.exchange.world.calls run₂.exchange.world.calls := by
  obtain ⟨⟨_, hprepared₁⟩, -⟩ := run₁.spec
  obtain ⟨⟨_, hprepared₂⟩, -⟩ := run₂.spec
  have hcontext := hprepared₁.correlationFields_eq hprepared₂ h.request h.requestId
  have hmetadata := hprepared₁.metadata_eq hprepared₂ h.request h.requestId
  have hfinished := h.finished
  have henrichment := h.enrichment
  rw [calls, calls, ← h.outcome, TerminalState.atEvent_eq hprepared₁.fresh,
    TerminalState.atEvent_eq hprepared₂.fresh] at hfinished henrichment
  rw [TerminalState.atEvent_eq hprepared₁.fresh, TerminalState.atEvent_eq hprepared₂.fresh]
  exact
    { context := hcontext
      metadata := by rw [hmetadata, h.operationId]
      status := h.status
      config := hprepared₁.configured.trans hprepared₂.configured.symm
      started := h.started
      finished := hfinished
      enrichment := henrichment }

/-- Runs that agree emit the same event. -/
theorem Agree.event_eq {run₁ run₂ : ObservedRun M X B ε δ η platform config}
    (h : run₁.Agree run₂)
    (hlevel : ∀ calls₁ calls₂ status,
      config.levelMapper calls₁ status = config.levelMapper calls₂ status)
    {emitted₁ emitted₂ : Emitted}
    (h₁ : run₁.event.Reported run₁.state platform run₁.exchange.world.calls WithoutRequestSpans
      emitted₁)
    (h₂ : run₂.event.Reported run₂.state platform run₂.exchange.world.calls WithoutRequestSpans
      emitted₂) : emitted₁.event = emitted₂.event := by
  obtain ⟨⟨_, hprepared₂⟩, -⟩ := run₂.spec
  have hconfig : (run₂.state.atEvent run₂.event).config = config := by
    rw [TerminalState.atEvent_eq hprepared₂.fresh, hprepared₂.configured]
  obtain ⟨_, -, serialized₁, htext₁, rfl⟩ := h₁
  obtain ⟨_, -, serialized₂, htext₂, rfl⟩ := h₂
  rw [h.alike.toValue_eq, h.outcome] at htext₁
  cases htext₁.symm.trans htext₂
  rw [h.alike.level_eq (by rwa [hconfig]), h.outcome]

/-- Runs that agree emit under the same span fields. -/
theorem Agree.requestFields_eq {run₁ run₂ : ObservedRun M X B ε δ η platform config}
    (h : run₁.Agree run₂) {emitted₁ emitted₂ : Emitted}
    (h₁ : run₁.event.Reported run₁.state platform run₁.exchange.world.calls WithoutRequestSpans
      emitted₁)
    (h₂ : run₂.event.Reported run₂.state platform run₂.exchange.world.calls WithoutRequestSpans
      emitted₂) : requestFields emitted₁.scope = requestFields emitted₂.scope := by
  obtain ⟨⟨_, hprepared₁⟩, -⟩ := run₁.spec
  obtain ⟨⟨_, hprepared₂⟩, -⟩ := run₂.spec
  obtain ⟨scope₁, hscope₁, _, -, rfl⟩ := h₁
  obtain ⟨scope₂, hscope₂, _, -, rfl⟩ := h₂
  rw [TerminalState.atEvent_eq hprepared₁.fresh, TerminalState.atEvent_eq hprepared₂.fresh]
  dsimp only
  rw [hprepared₁.span, hprepared₂.span, requestFields_inScope _ _ run₁.alone hscope₁,
    requestFields_inScope _ _ run₂.alone hscope₂,
    hprepared₁.correlationFields_eq hprepared₂ h.request h.requestId]

end ObservedRun

/-- **Noninterference.**  Of two exchanges that agree on what the log may show, each
emits one terminal event, and the two are written as one line: nothing else of the
requests reaches it. -/
theorem call_noninterference [Headers M V] (platform : Platform) (config : ObservabilityConfig)
    (hlevel : ∀ calls₁ calls₂ status,
      config.levelMapper calls₁ status = config.levelMapper calls₂ status)
    (run₁ run₂ : ObservedRun M X B ε δ η platform config) (hagree : run₁.Agree run₂)
    (timestamp : String) :
    ∃ emitted₁ emitted₂ m line,
      run₁.final.world.emitted = run₁.world.emitted ++ [emitted₁] ∧
      run₂.final.world.emitted = run₂.world.emitted ++ [emitted₂] ∧
      WritesLine platform.serde platform.float platform.layer timestamp emitted₁.scope
        emitted₁.event m line ∧
      WritesLine platform.serde platform.float platform.layer timestamp emitted₂.scope
        emitted₂.event m line := by
  obtain ⟨-, emitted₁, hreported₁, hemitted₁⟩ := run₁.spec
  obtain ⟨-, emitted₂, hreported₂, hemitted₂⟩ := run₂.spec
  obtain ⟨m, line, hline₁⟩ := exists_writesLine platform.serde platform.float platform.layer
    timestamp emitted₁.scope emitted₁.event
  have hm₂ := hline₁.object
  rw [formatEvent_congr _ _ _ _ _ (hagree.requestFields_eq hreported₁ hreported₂),
    hagree.event_eq hlevel hreported₁ hreported₂] at hm₂
  obtain ⟨line₂, hline₂⟩ := writesLine_of_formatEvent platform.layer hm₂
  cases hline₁.bytes.symm.trans hline₂.bytes
  exact ⟨emitted₁, emitted₂, m, line, hemitted₁, hemitted₂, hline₁, hline₂⟩

/-! ### Two requests with one identifier -/

def quietRequest : Request HeaderList Unit Unit := { greetingRequest with
  headers := [("x-request-id", ⟨asBytes "greeting-1", by decide +kernel⟩),
    ("traceparent", ⟨asBytes "cc-4bf92f3577b34da6a3ce929d0e0e4736-00f067aa0ba902b7-01",
      by decide +kernel⟩)] }

def chattyRequest : Request HeaderList Unit Unit := { greetingRequest with
  uri := ⟨none, none, "/greeting/alice", some "token=secret"⟩
  headers := [("x-request-id", ⟨asBytes "greeting-1", by decide +kernel⟩),
    ("traceparent", ⟨asBytes "cc-4bf92f3577b34da6a3ce929d0e0e4736-00f067aa0ba902b7-01-alice",
      by decide +kernel⟩),
    ("tracestate", ⟨asBytes "vendor=alice", by decide +kernel⟩),
    ("user-agent", ⟨asBytes "browser", by decide +kernel⟩)] }

/-- The run of a request to the greeting service. -/
theorem exists_greetingRun (request : Request HeaderList Unit Unit)
    (hid : headerBytes request.headers "x-request-id" = [asBytes "greeting-1"]) :
    ∃ run : ObservedRun HeaderList Unit Unit String String String .reference
        (.default .reference),
      run.request = request ∧ run.world = .initial ∧
      run.state.requestContext.requestId.asStr = "greeting-1" ∧ run.state.started = ⟨.zero⟩ ∧
      run.state.config = .default .reference ∧
      run.event = .endedWithFrame greetingHead := by
  obtain ⟨request', state, w', hprepared, hanswer, hinner, hok⟩ := call_spec .reference
    (.default .reference) greetingService (0 : Nat) request .initial WithoutRequestSpans nofun
  obtain ⟨-, harmed⟩ := hok rfl
  obtain ⟨added, hselected, hstarted⟩ := hprepared.selected
  obtain ⟨requestId, _, _, _, rfl, hrun, -, haccepted, -⟩ := selectRequestId_selects .reference
    (.default .reference) request.headers .initial
  cases hrun.symm.trans hselected
  let run : ObservedRun HeaderList Unit Unit String String String .reference
      (.default .reference) :=
    { service := greetingService
      inner := (0 : Nat)
      request := request
      world := .initial
      exchange := _
      state := state
      ops := [.pollFuture, .pollFrame, .dropBody]
      event := .endedWithFrame _
      called := Prod.ext hanswer rfl
      armed := harmed.stage_eq
      ended := by
        rw [Bare.ofExchange, hinner]
        rfl
      alone := nofun
      alone_after := by simp [Operation.Within] }
  refine ⟨run, rfl, rfl, haccepted _ ⟨hid, by decide +kernel, ?_⟩, ?_, hprepared.configured, rfl⟩
  · exact ⟨by decide +kernel, by decide +kernel, by decide +kernel⟩
  · have hreading : (startedAt .reference (.default .reference)).run
        (World.initial.calledAll added) = .ok (⟨.zero⟩, _) := rfl
    exact (Prod.ext_iff.mp (Except.ok.inj (hstarted.symm.trans hreading))).1

theorem call_noninterference_greeting :
    ∃ (run₁ run₂ : ObservedRun HeaderList Unit Unit String String String .reference
        (.default .reference)) (emitted₁ emitted₂ : Emitted) (m : Map) (line : Bytes),
      run₁.request = quietRequest ∧ run₂.request = chattyRequest ∧
      run₁.final.world.emitted = [emitted₁] ∧ run₂.final.world.emitted = [emitted₂] ∧
      WritesLine .reference .whole Platform.reference.layer "2026-01-01T00:00:00Z"
        emitted₁.scope emitted₁.event m line ∧
      WritesLine .reference .whole Platform.reference.layer "2026-01-01T00:00:00Z"
        emitted₂.scope emitted₂.event m line := by
  obtain ⟨run₁, hrequest₁, hworld₁, hid₁, hstarted₁, hconfig₁, hevent₁⟩ :=
    exists_greetingRun quietRequest rfl
  obtain ⟨run₂, hrequest₂, hworld₂, hid₂, hstarted₂, hconfig₂, hevent₂⟩ :=
    exists_greetingRun chattyRequest rfl
  have hagree : run₁.Agree run₂ :=
    { request := by
        rw [hrequest₁, hrequest₂]
        exact ⟨rfl, by decide +kernel, rfl, rfl, nofun, nofun, nofun⟩
      requestId := RequestId.ext (hid₁.trans hid₂.symm)
      started := hstarted₁.trans hstarted₂.symm
      finished := by
        rw [TerminalState.finished, TerminalState.finished, hconfig₁, hconfig₂]
        rfl
      enrichment := by
        rw [TerminalState.enrichment, TerminalState.enrichment, hconfig₁, hconfig₂]
        rfl
      outcome := by rw [hevent₁, hevent₂]
      status := by rw [hevent₁, hevent₂]
      operationId := by rw [hevent₁, hevent₂] }
  obtain ⟨emitted₁, emitted₂, m, line, hemitted₁, hemitted₂, hline₁, hline₂⟩ :=
    call_noninterference .reference (.default .reference) (fun _ _ _ => rfl) run₁ run₂ hagree
      "2026-01-01T00:00:00Z"
  rw [hworld₁] at hemitted₁
  rw [hworld₂] at hemitted₂
  exact ⟨run₁, run₂, emitted₁, emitted₂, m, line, hrequest₁, hrequest₂, hemitted₁, hemitted₂,
    hline₁, hline₂⟩

end AxumObservability
