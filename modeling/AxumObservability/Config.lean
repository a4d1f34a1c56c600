import AxumObservability.Formatter
import AxumObservability.Http

/-!
# Configuration, callbacks and the world

The configuration of the middleware, and the world its effects happen in. A
callback of the application may answer or panic, and may do so differently every
time: it sees everything that was called before.

* `catchUnwind_spec`: a contained call returns whatever the callback does.
-/

namespace AxumObservability

open Library.Json Library.Panics Library.Text

/-! ## Calls -/

/-- A call out of the package: to a callback, or for a clock reading or a random
identifier. -/
inductive Call where
  | validator (value : String)
  | generator
  | newV4
  | clock
  | now
  | levelMapper (status : StatusCode)
  | enricher (context : RequestContext)
  | nowUtc
  deriving DecidableEq

/-- A function of the application: what it returns, or that it panics, given the
calls before and its argument. -/
abbrev Callback (α β : Type) := List Call → α → Result β

structure ObservabilityConfig where
  fieldConvention : FieldConvention
  traceContextLevel : TraceContextLevel
  requestIdHeader : HeaderName
  responseHeader : Bool
  rawPath : Bool
  peerIp : Bool
  userAgent : Bool
  generator : Callback Unit (Option RequestId)
  validator : Option (Callback String Bool)
  levelMapper : Callback StatusCode Level
  clock : Callback Unit Instant
  enricher : Callback RequestContext Map

/-! ## The world -/

/-- A terminal event as its callsite emits it. -/
structure Emitted where
  event : Event
  scope : List SpanData

/-- What the package's effects leave behind, and the spans around the code that
runs. -/
structure World where
  calls : List Call
  scope : List SpanData
  emitted : List Emitted
  log : LogOutput

def World.initial : World := ⟨[], [], [], ⟨[], []⟩⟩

/-- Everything below the package: the codec, the float operations, the sources
of time and randomness, the subscriber's filter and its JSON layer. -/
structure Platform where
  serde : SerdeJson
  float : FloatArithmetic
  newV4 : List Call → Uuid
  now : List Call → Instant
  timestamp : List Call → Except InternalFailure String
  enabled : Metadata → Bool
  layer : JsonLayer

/-- The reference codec, whole-number floats, sources that stand still and a
writer that takes every line. -/
def Platform.reference : Platform where
  serde := .reference
  float := .whole
  newV4 _ := ⟨"0123456789abcdef0123456789abcdef", by decide +kernel, by decide +kernel⟩
  now _ := ⟨.zero⟩
  timestamp _ := .ok "2026-01-01T00:00:00Z"
  enabled _ := true
  layer := .fromConvention .whole .generic

abbrev Effect (α : Type) := Run World α

def World.called (w : World) (call : Call) : World := { w with calls := w.calls ++ [call] }

/-- Make a call whose panic is caught. -/
def catchUnwind {α : Type} (call : Call) (answer : List Call → Result α) : Effect (Result α) :=
  fun w => .ok (answer w.calls, w.called call)

/-- Make a call that always returns. -/
def invoke {α : Type} (call : Call) (answer : List Call → α) : Effect α :=
  fun w => .ok (answer w.calls, w.called call)

@[simp] theorem called_log (w : World) (call : Call) : (w.called call).log = w.log := rfl

def World.calledAll (w : World) (calls : List Call) : World := { w with calls := w.calls ++ calls }

theorem calledAll_called (w : World) (calls : List Call) (call : Call) :
    (w.calledAll calls).called call = w.calledAll (calls ++ [call]) := by
  simp [World.called, World.calledAll]

theorem catchUnwind_spec {α : Type} (call : Call) (answer : List Call → Result α) (w : World) :
    Returns (catchUnwind call answer) w fun r w' => r = answer w.calls ∧ w' = w.called call :=
  ⟨_, _, rfl, rfl, rfl⟩

theorem invoke_spec {α : Type} (call : Call) (answer : List Call → α) (w : World) :
    Returns (invoke call answer) w fun r w' => r = answer w.calls ∧ w' = w.called call :=
  ⟨_, _, rfl, rfl, rfl⟩

def defaultLevel (status : StatusCode) : Level :=
  if status.isServerError then .error
  else if status.isClientError then .warn
  else .info

def requestIdOfUuid (uuid : Uuid) : Result RequestId :=
  expect (RequestId.parse uuid.simple).toOption
    "UUID simple formatting satisfies the request-ID contract"

/-- A UUID never fails the baseline parser. -/
theorem requestIdOfUuid_eq (uuid : Uuid) :
    requestIdOfUuid uuid = .ok ⟨uuid.simple, native_of_validate uuid.validate_simple⟩ := by
  rw [requestIdOfUuid, RequestId.parse_of_validate uuid.validate_simple]
  rfl

def ObservabilityConfig.default (platform : Platform) : ObservabilityConfig where
  fieldConvention := .generic
  traceContextLevel := .level1
  requestIdHeader := "x-request-id"
  responseHeader := true
  rawPath := false
  peerIp := false
  userAgent := false
  generator calls _ := return some (← requestIdOfUuid (platform.newV4 calls))
  validator := none
  levelMapper _ status := return defaultLevel status
  clock calls _ := return platform.now calls
  enricher _ _ := return ∅

/-! ## Builders -/

namespace ObservabilityConfig

variable (config : ObservabilityConfig)

def withFieldConvention (convention : FieldConvention) : ObservabilityConfig :=
  { config with fieldConvention := convention }

def withTraceContextLevel (level : TraceContextLevel) : ObservabilityConfig :=
  { config with traceContextLevel := level }

def withRequestIdHeader (name : HeaderName) : ObservabilityConfig :=
  { config with requestIdHeader := name }

def withResponseHeader (enabled : Bool) : ObservabilityConfig :=
  { config with responseHeader := enabled }

def withRawPath (enabled : Bool) : ObservabilityConfig := { config with rawPath := enabled }

def withPeerIp (enabled : Bool) : ObservabilityConfig := { config with peerIp := enabled }

def withUserAgent (enabled : Bool) : ObservabilityConfig := { config with userAgent := enabled }

def withRequestIdGenerator (generator : Callback Unit (Option RequestId)) : ObservabilityConfig :=
  { config with generator := generator }

def withRequestIdValidator (validator : Callback String Bool) : ObservabilityConfig :=
  { config with validator := some validator }

def withStatusLevelMapper (mapper : Callback StatusCode Level) : ObservabilityConfig :=
  { config with levelMapper := mapper }

def withClock (clock : Callback Unit Instant) : ObservabilityConfig :=
  { config with clock := clock }

def withAccessEnricher (enricher : Callback RequestContext Map) : ObservabilityConfig :=
  { config with enricher := enricher }

end ObservabilityConfig

end AxumObservability
