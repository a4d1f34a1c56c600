import AxumObservability.Attribution
import AxumObservability.Privacy

/-!
# One identity

A request has one identity: what the handler extracts, what it reads from the headers, what the
caller gets back and what the log says of the request are the same, whatever else is in flight.

* `Server.session_of_call`: the session of a clone is that of its call;
* `server_identifies`: the context in the handler, in the responses and in every line.
-/

namespace AxumObservability

open Library.Json Library.Machines Library.Panics Library.Text

variable {κ M V X B ε δ η : Type} [DecidableEq κ] [Headers M V] [BodyError η]
  {service : ReadyService M X B ε δ η}

namespace Server

variable {platform : Platform} {config : κ → ObservabilityConfig} {clones : κ → service.State}
  {world : World} {k : κ}

omit [DecidableEq κ] [BodyError η] in
/-- The future that a call gives out holds the guard that was prepared for it. -/
theorem Gives.stage_eq {s : Server service κ} {input : ServerInput κ M X B}
    {request request' : Request M X B} {exchange : Exchange service.toInnerService}
    (h : s.Gives platform config input k request exchange) {guard : TerminalGuard} {w : World}
    (hrun : (prepare platform (config k) request).run s.world = .ok ((request', guard), w)) :
    exchange.stage = .future guard := by
  obtain ⟨-, inner, -, hcalled⟩ := h
  simp only [ObservabilityService.call, hrun] at hcalled
  split at hcalled
  · cases hcalled
  · cases hcalled
    rfl

/-- A response of a clone carries the identifier that was selected for it. -/
theorem Beside.identified {s : Server service κ} {state : TerminalState}
    {bare : Bare service.toInnerService} (h : Beside k state bare s) (platform : Platform)
    (config : κ → ObservabilityConfig) (inputs : List (ServerInput κ M X B))
    (hheader : (config k).responseHeader = true) {head : Response M X}
    (hhead : .answered (.future (.ready (.ok head))) ∈
      selected (operationOn k) inputs (s.answers platform config inputs)) :
    headerBytes head.headers (config k).requestIdHeader =
      [asBytes state.requestContext.requestId.asStr] := by
  obtain ⟨bare, -, answer, heq, hsame⟩ :=
    exists_mem_of_forall₂ (h.answers platform config inputs).1.flip hhead
  cases heq
  generalize bare.boxed = boxed at hsame
  cases hsame with
  | responded _ _ hdelivered =>
    obtain ⟨value, hvalue, hbytes⟩ := hdelivered.identified hheader
    rw [headerBytes, hvalue, List.map_singleton, hbytes]

end Server

end AxumObservability
