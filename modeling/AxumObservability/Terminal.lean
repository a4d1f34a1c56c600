import AxumObservability.Config

/-!
# The terminal record

What the middleware captures of a request, the guard that holds it until the
exchange ends, and the terminal event the guard emits.

* `AccessRecord.getElem?_readBack`: the record read back as a map, field by field;
* `TerminalGuard.finish_spec`: an armed guard emits one terminal event, whatever
  its callbacks do;
* `TerminalGuard.finish_of_done`: a spent guard does nothing.
-/

namespace AxumObservability

open Std Library.FieldMap Library.Json Library.Panics Library.Text

/-! ## The request span -/

def requestMetadata : Metadata := ⟨"request", requestTarget, some middlewareModule, .info⟩

/-- The fields of a request span. Without a trace context its fields are
declared and left empty. -/
def requestSpanFields (context : RequestContext) : Fields :=
  match context.traceContext with
  | some trace =>
    [("request_id", some (.debug context.requestId.asStr)),
      ("correlation_id", some (.str context.correlationId)),
      ("trace_id", some (.str trace.traceId)),
      ("parent_id", some (.str trace.parentId)),
      ("trace_flags", some (.str (lowerHex02 trace.flags))),
      ("trace_sampled", some (.bool trace.sampled)),
      ("trace_id_random", trace.traceIdRandom.map .bool)]
  | none =>
    [("request_id", some (.debug context.requestId.asStr)),
      ("correlation_id", some (.str context.correlationId)),
      ("trace_id", none),
      ("parent_id", none),
      ("trace_flags", none),
      ("trace_sampled", none),
      ("trace_id_random", none)]

def requestAttributes (context : RequestContext) : Attributes :=
  ⟨requestMetadata, requestSpanFields context⟩

/-- A span handle: the span with the spans around it, or nothing where the
subscriber has it disabled. -/
abbrev Span := Option (List SpanData)

/-- The span of a request created among the spans of `scope`. -/
def requestSpan (platform : Platform) (scope : List SpanData) (context : RequestContext) : Span :=
  if platform.enabled requestMetadata then
    some (scope ++ [onNewSpan (requestAttributes context)])
  else none

/-- The spans around code run in a span. -/
def Span.inScope (span : Span) (current : List SpanData) : List SpanData := span.getD current

/-! ## Request metadata -/

structure RequestMetadata where
  method : String
  path : Option String
  pathTemplate : Option String
  operationId : Option String
  peerIp : Option String
  userAgent : Option String

def canonicalRawPath (value : String) : Option String :=
  if value.isEmpty then none else some value

def canonicalRouteTemplate (native : String) : Option String :=
  if native.isEmpty then none else some native

section

variable {M V X B : Type} [Headers M V]

def peerIp (request : Request M X B) (config : ObservabilityConfig) : Option String :=
  if !config.peerIp then none else request.extensions.connectInfo.map SocketAddr.ip

def exactlyOneHeader (headers : M) (name : HeaderName) : Option String :=
  match Headers.getAll headers name with
  | [] => none
  | value :: others =>
    match fromUtf8 (Headers.valueBytes M value) with
    | none => none
    | some first => if !others.isEmpty || !nativeFieldContent first then none else some first

def RequestMetadata.fromRequest (request : Request M X B) (config : ObservabilityConfig) :
    RequestMetadata where
  method := request.method
  path := if config.rawPath then canonicalRawPath request.uri.path else none
  pathTemplate := request.extensions.matchedPath.bind canonicalRouteTemplate
  operationId := request.extensions.operationId.map OperationId.asStr
  peerIp := AxumObservability.peerIp request config
  userAgent := if config.userAgent then exactlyOneHeader request.headers "user-agent" else none

end

/-! ## The access record -/

inductive DurationMilliseconds where
  | integer (milliseconds : Nat)
  | fractional (milliseconds : FloatLiteral)

def durationMilliseconds (float : FloatArithmetic) (duration : Duration) : DurationMilliseconds :=
  if duration.subsecNanos % 1000000 = 0 then .integer duration.asMillis
  else .fractional (float.literal (float.mul (float.asSecsF64 duration) (float.ofNat 1000)))

def DurationMilliseconds.toNumber : DurationMilliseconds → Number
  | .integer milliseconds => .posInt milliseconds
  | .fractional milliseconds => .float milliseconds

structure AccessRecord where
  requestId : String
  correlationId : String
  traceId : Option String
  parentId : Option String
  traceFlags : Option String
  traceSampled : Option Bool
  traceIdRandom : Option Bool
  method : String
  path : Option String
  pathTemplate : Option String
  operationId : Option String
  status : Option Nat
  durationMs : DurationMilliseconds
  peerIp : Option String
  userAgent : Option String
  terminalReason : Option String
  enrichment : Map

namespace AccessRecord

def correlationFields (record : AccessRecord) : List (String × Option Value) :=
  [("request_id", some (.string record.requestId)),
    ("correlation_id", some (.string record.correlationId)),
    ("trace_id", record.traceId.map .string),
    ("parent_id", record.parentId.map .string),
    ("trace_flags", record.traceFlags.map .string),
    ("trace_sampled", record.traceSampled.map .bool),
    ("trace_id_random", record.traceIdRandom.map .bool)]

/-- The fields after the correlation fields, the enrichment left out. -/
def accessFields (record : AccessRecord) : List (String × Option Value) :=
  [("method", some (.string record.method)),
    ("path", record.path.map .string),
    ("path_template", record.pathTemplate.map .string),
    ("operation_id", record.operationId.map .string),
    ("status", record.status.map fun status => .number (.posInt status)),
    ("duration_ms", some (.number record.durationMs.toNumber)),
    ("peer_ip", record.peerIp.map .string),
    ("user_agent", record.userAgent.map .string),
    ("terminal_reason", record.terminalReason.map .string)]

def ownFields (record : AccessRecord) : List (String × Option Value) :=
  record.correlationFields ++ record.accessFields

/-- The serialized fields in order. One that is absent is skipped. -/
def fields (record : AccessRecord) : List (String × Option Value) :=
  record.ownFields ++ [("enrichment", some record.enrichment.toValue)]

def toValue (record : AccessRecord) : Value := .object (ofOptions record.fields)

/-- The record as a map, its numbers as `read` gives them back. -/
def readBack (record : AccessRecord) (read : Number → Number) : Map :=
  .ofList (ofOptions (record.fields.map fun f => (f.1, f.2.map (Value.mapNumbers read))))

theorem asObject_mapNumbers (record : AccessRecord) (read : Number → Number) :
    (record.toValue.mapNumbers read).asObject = some (record.readBack read) := by
  rw [toValue, Value.mapNumbers, mapMembers_ofOptions]
  rfl

theorem fields_nodup (record : AccessRecord) : (record.fields.map Prod.fst).Nodup := by
  simp only [fields, ownFields, correlationFields, accessFields, List.cons_append,
    List.nil_append, List.map_cons, List.map_nil]
  decide

theorem ownFields_nodup (record : AccessRecord) : (record.ownFields.map Prod.fst).Nodup := by
  have hfields := record.fields_nodup
  rw [fields, List.map_append] at hfields
  exact (List.nodup_append.mp hfields).1

theorem getElem?_readBack (record : AccessRecord) (read : Number → Number) (key : String) :
    (record.readBack read)[key]? =
      (record.fields.lookup key).join.map (Value.mapNumbers read) := by
  rw [readBack, getElem?_ofOptions, lookup_map]
  · cases record.fields.lookup key <;> rfl
  · rw [List.map_map]
    exact record.fields_nodup

end AccessRecord

/-! ## The guard -/

inductive TerminalOutcome where
  | completed
  | serviceError
  | bodyError
  | responseDropped
  deriving DecidableEq

def TerminalOutcome.terminalReason : TerminalOutcome → Option String
  | .completed => none
  | .serviceError => some "service_error"
  | .bodyError => some "body_error"
  | .responseDropped => some "response_dropped"

structure TerminalState where
  metadata : RequestMetadata
  requestContext : RequestContext
  started : Instant
  status : Option StatusCode
  config : ObservabilityConfig
  span : Span

/-- The record of a finished exchange. -/
def TerminalState.record (state : TerminalState) (float : FloatArithmetic)
    (outcome : TerminalOutcome) (finished : Instant) (enrichment : Map) : AccessRecord :=
  let duration := finished.saturatingDurationSince state.started
  let trace := state.requestContext.traceContext
  { requestId := state.requestContext.requestId.asStr
    correlationId := state.requestContext.correlationId
    traceId := trace.map TraceContext.traceId
    parentId := trace.map TraceContext.parentId
    traceFlags := trace.map fun trace => lowerHex02 trace.flags
    traceSampled := trace.map TraceContext.sampled
    traceIdRandom := trace.bind TraceContext.traceIdRandom
    method := state.metadata.method
    path := state.metadata.path
    pathTemplate := state.metadata.pathTemplate
    operationId := state.metadata.operationId
    status := state.status.map StatusCode.asU16
    durationMs := durationMilliseconds float duration
    peerIp := state.metadata.peerIp
    userAgent := state.metadata.userAgent
    terminalReason := outcome.terminalReason
    enrichment := enrichment }

def TerminalState.mappedLevel (state : TerminalState) (status : StatusCode) : Effect Level := do
  let mapped ← catchUnwind (.levelMapper status) fun calls => state.config.levelMapper calls status
  return mapped.toOption.getD (defaultLevel status)

def TerminalState.terminalLevel (state : TerminalState) (outcome : TerminalOutcome) :
    Effect Level :=
  match outcome with
  | .completed => do
    state.mappedLevel (← liftM (expect state.status "completed response has a status"))
  | .serviceError | .bodyError | .responseDropped => return .error

structure TerminalGuard where
  state : Option TerminalState

def accessMetadata (level : Level) : Metadata :=
  ⟨"event src/middleware.rs", accessTarget, some middlewareModule, level⟩

/-- The event of the terminal callsite of a level. -/
def accessEvent (level : Level) (serialized : String) : Event :=
  ⟨accessMetadata level,
    [("message", some (.str "request completed")), ("obs.record", some (.str serialized))]⟩

/-- Hand an event to the subscriber. -/
def dispatch (platform : Platform) (scope : List SpanData) (event : Event) : Effect Unit := do
  if platform.enabled event.metadata then
    let number := (← get).calls.length
    let timestamp ← invoke .nowUtc platform.timestamp
    let w ← get
    let log ← liftM (platform.layer.onEvent platform.serde platform.float number timestamp scope
      event w.log)
    set { w with log := log }

def emitAccess (platform : Platform) (scope : List SpanData) (level : Level)
    (serialized : String) : Effect Unit := do
  let event := accessEvent level serialized
  modify fun w => { w with emitted := w.emitted ++ [⟨event, scope⟩] }
  dispatch platform scope event

namespace TerminalGuard

def new (metadata : RequestMetadata) (requestContext : RequestContext) (started : Instant)
    (config : ObservabilityConfig) (span : Span) : TerminalGuard :=
  ⟨some ⟨metadata, requestContext, started, none, config, span⟩⟩

def requestId (guard : TerminalGuard) : Result RequestId := do
  let state ← expect guard.state "terminal guard has not completed"
  return state.requestContext.requestId

def setStatus (guard : TerminalGuard) (status : StatusCode) : TerminalGuard :=
  ⟨guard.state.map fun state => { state with status := some status }⟩

def setOperationId (guard : TerminalGuard) (operationId : OperationId) : TerminalGuard :=
  ⟨guard.state.map fun state =>
    { state with metadata := { state.metadata with operationId := some operationId.asStr } }⟩

def finish (platform : Platform) (guard : TerminalGuard) (outcome : TerminalOutcome) :
    Effect TerminalGuard :=
  match guard.state with
  | none => return guard
  | some state => do
    let level ← state.terminalLevel outcome
    let finished ← catchUnwind .clock fun calls => state.config.clock calls ()
    let finished := finished.toOption.getD state.started
    let enrichment ← catchUnwind (.enricher state.requestContext) fun calls =>
      state.config.enricher calls state.requestContext
    let enrichment := enrichment.toOption.getD ∅
    let record := state.record platform.float outcome finished enrichment
    let serialized ← liftM (expect (platform.serde.toString record.toValue)
      "access record is serializable")
    let w ← get
    emitAccess platform (state.span.inScope w.scope) level serialized
    return ⟨none⟩

end TerminalGuard

/-! ## What finishing does -/

namespace TerminalState

variable (state : TerminalState) (outcome : TerminalOutcome) (calls : List Call)

/-- The level of the terminal event: the mapper's for a completed response, or
the default where the mapper panics, and an error otherwise. -/
def level : Level :=
  match outcome, state.status with
  | .completed, some status =>
    (state.config.levelMapper calls status).toOption.getD (defaultLevel status)
  | _, _ => .error

def levelCalls : List Call :=
  match outcome, state.status with
  | .completed, some status => [.levelMapper status]
  | _, _ => []

/-- The final clock reading, or the start where the clock panics. -/
def finished : Instant := (state.config.clock calls ()).toOption.getD state.started

/-- The enricher's fields, or none where it panics. -/
def enrichment : Map := (state.config.enricher calls state.requestContext).toOption.getD ∅

/-- The record of an exchange that ends with `outcome` after `calls`. -/
def terminalRecord (float : FloatArithmetic) : AccessRecord :=
  let calls := calls ++ state.levelCalls outcome
  state.record float outcome (state.finished calls) (state.enrichment (calls ++ [.clock]))

end TerminalState

theorem dispatch_spec (platform : Platform) (scope : List SpanData) (event : Event) (w : World) :
    Returns (dispatch platform scope event) w fun _ w' =>
      w'.emitted = w.emitted ∧ w'.scope = w.scope := by
  unfold dispatch
  split
  · apply Returns.get_bind
    refine (invoke_spec .nowUtc platform.timestamp w).bind fun timestamp w' ht => ?_
    obtain ⟨rfl, rfl⟩ := ht
    obtain ⟨log, hlog⟩ := exists_onEvent platform.serde platform.float platform.layer
      w.calls.length (platform.timestamp w.calls) scope event w.log
    refine ⟨(), { w.called .nowUtc with log := log }, ?_, rfl, rfl⟩
    simp only [StateT.run_bind, StateT.run_get, pure_eq_ok, ok_bind, called_log, hlog]
    rfl
  · exact Returns.pure ⟨rfl, rfl⟩

theorem emitAccess_spec (platform : Platform) (scope : List SpanData) (level : Level)
    (serialized : String) (w : World) :
    Returns (emitAccess platform scope level serialized) w fun _ w' =>
      w'.emitted = w.emitted ++ [⟨accessEvent level serialized, scope⟩] ∧ w'.scope = w.scope := by
  rw [emitAccess]
  apply Returns.modify_bind
  exact dispatch_spec platform scope (accessEvent level serialized) _

namespace TerminalGuard

/-- **A spent guard does nothing.** -/
theorem finish_of_done (platform : Platform) {guard : TerminalGuard} (outcome : TerminalOutcome)
    (h : guard.state = none) (w : World) :
    (guard.finish platform outcome).run w = .ok (guard, w) := by
  unfold finish
  rw [h]
  rfl

end TerminalGuard

theorem TerminalState.terminalLevel_spec (state : TerminalState) (outcome : TerminalOutcome)
    (hstatus : outcome = .completed → state.status.isSome = true) (w : World) :
    Returns (state.terminalLevel outcome) w fun level w' =>
      level = state.level outcome w.calls ∧ w' = w.calledAll (state.levelCalls outcome) := by
  cases outcome with
  | completed =>
    obtain ⟨status, hs⟩ := Option.isSome_iff_exists.mp (hstatus rfl)
    apply Returns.lift_bind (congrArg (expect · "completed response has a status") hs)
    apply (catchUnwind_spec _ _ w).bind
    intro mapped w' hm
    obtain ⟨rfl, rfl⟩ := hm
    refine Returns.pure ⟨?_, ?_⟩
    · simp [TerminalState.level, hs]
    · simp [TerminalState.levelCalls, hs, World.called, World.calledAll]
  | serviceError => exact Returns.pure ⟨rfl, by simp [levelCalls, World.calledAll]⟩
  | bodyError => exact Returns.pure ⟨rfl, by simp [levelCalls, World.calledAll]⟩
  | responseDropped => exact Returns.pure ⟨rfl, by simp [levelCalls, World.calledAll]⟩

/-- An emitted event is the terminal one of a state, ended with `outcome` after
`calls`, under `scope`. -/
def TerminalState.Reported (state : TerminalState) (platform : Platform)
    (outcome : TerminalOutcome) (calls : List Call) (scope : List SpanData) (emitted : Emitted) :
    Prop :=
  ∃ serialized, platform.serde.toString
      (state.terminalRecord outcome calls platform.float).toValue = some serialized ∧
    emitted = ⟨accessEvent (state.level outcome calls) serialized, state.span.inScope scope⟩

/-- **An armed guard emits one terminal event and is spent.**  No callback can
keep it from that, and none of its expectations fails. -/
theorem TerminalGuard.finish_spec (platform : Platform) {guard : TerminalGuard}
    {state : TerminalState} (outcome : TerminalOutcome) (hstate : guard.state = some state)
    (hstatus : outcome = .completed → state.status.isSome = true) (w : World) :
    Returns (guard.finish platform outcome) w fun guard' w' =>
      guard'.state = none ∧ ∃ emitted, state.Reported platform outcome w.calls w.scope emitted ∧
        w'.emitted = w.emitted ++ [emitted] := by
  unfold finish
  rw [hstate]
  apply (state.terminalLevel_spec outcome hstatus w).bind
  intro level w₁ hlevel
  obtain ⟨rfl, rfl⟩ := hlevel
  apply (catchUnwind_spec .clock _ _).bind
  intro finished w₂ hfinished
  obtain ⟨rfl, rfl⟩ := hfinished
  apply (catchUnwind_spec (.enricher state.requestContext) _ _).bind
  intro enrichment w₃ he
  obtain ⟨rfl, rfl⟩ := he
  obtain ⟨serialized, hserialized⟩ := platform.serde.exists_toString
    (state.terminalRecord outcome w.calls platform.float).toValue
  apply Returns.lift_bind (congrArg (expect · "access record is serializable") hserialized)
  apply Returns.get_bind
  apply (emitAccess_spec platform _ _ serialized _).bind
  intro _ w' h
  exact Returns.pure ⟨rfl, _, ⟨serialized, hserialized, rfl⟩, h.1⟩

end AxumObservability
