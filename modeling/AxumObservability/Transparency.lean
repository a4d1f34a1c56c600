import AxumObservability.Lifecycle

/-!
# Transparency

What the middleware changes of the traffic through it: the identifier header and the
context extension of the request, the identifier header of the response, and nothing
else.

* `call_transparent`: the inner service gets the caller's request but for these, and
  the consumer its answers but for these, over every run.
-/

namespace AxumObservability

open Library.Json Library.Machines Library.Panics Library.Text

variable {M V X B ε δ η : Type} [Headers M V]

/-- **In step to the end**: whatever the guard has done, the answers are the same
and the inner service is in the same state. -/
theorem Armed.answers {service : InnerService M X B ε δ η} {state : TerminalState}
    {calls : List Call} {s : Bare service} {s' : Exchange service}
    (h : Armed service state calls (fun _ => True) s s') (platform : Platform)
    (config : ObservabilityConfig) (ops : List Operation) :
    List.Forall₂ (SameAnswer config state.requestContext.requestId)
        ((bareMachine service).answers s ops)
        ((exchangeMachine platform config service).answers s' ops) ∧
      ((exchangeMachine platform config service).run s' ops).inner =
        ((bareMachine service).run s ops).inner := by
  let m := bareMachine service
  let m' := exchangeMachine platform config service
  have hstep : ∀ (s : m.State) (s' : m'.State) op,
      Armed service state calls (fun _ => True) s s' ∨ Spent service s s' →
      SameAnswer config state.requestContext.requestId (m.step s op).1 (m'.step s' op).1 ∧
        (Armed service state calls (fun _ => True) (m.step s op).2 (m'.step s' op).2 ∨
          Spent service (m.step s op).2 (m'.step s' op).2) := by
    rintro s s' op (h | h)
    · obtain ⟨hsame, ⟨-, -, hnext⟩ | ⟨-, -, -, -, -, hnext⟩⟩ :=
        h.step platform config op op.within_all
      · exact ⟨hsame, Or.inl hnext⟩
      · exact ⟨hsame, Or.inr hnext⟩
    · obtain ⟨hsame, -, hnext⟩ := h.step platform config state.requestContext.requestId op
      exact ⟨hsame, Or.inr hnext⟩
  obtain ⟨hanswers, hfinal⟩ := lockstep hstep (Or.inl h) ops
  exact ⟨hanswers, hfinal.elim Armed.inner Spent.inner⟩

/-- **The middleware is transparent.**  The inner service gets the caller's request
with the selected identifier alone under the configured name and the context set, and
is called exactly as often and in the same states as without the middleware. Whatever
the inner service and the callbacks do, panics included, the consumer gets the answers
of the inner service; a response has its identifier header set where the configuration
asks for it. The writer of the log is one that returns. -/
theorem call_transparent (platform : Platform) (config : ObservabilityConfig)
    (service : InnerService M X B ε δ η) (inner : service.State) (request : Request M X B)
    (world : World) :
    ∃ (context : RequestContext) (headers : M) (value : V) (added : List Call),
      (selectRequestId platform config request.headers).run world =
        .ok ((context.requestId, headers), world.calledAll added) ∧
      Headers.getAll headers config.requestIdHeader = [value] ∧
      Headers.valueBytes M value = asBytes context.requestId.asStr ∧
      (∀ name, name ≠ config.requestIdHeader →
        Headers.getAll headers name = Headers.getAll request.headers name) ∧
      let called := service.call inner { request with
        headers := headers
        extensions := { request.extensions with requestContext := some context } }
      let observed := ObservabilityService.call platform config service inner request world
      observed.1 = called.1 ∧ observed.2.inner = called.2 ∧
        (called.1 = .ok () → ∀ ops : List Operation,
          List.Forall₂ (SameAnswer config context.requestId)
              ((bareMachine service).answers ⟨called.2, .future⟩ ops)
              ((exchangeMachine platform config service).answers observed.2 ops) ∧
            ((exchangeMachine platform config service).run observed.2 ops).inner =
              ((bareMachine service).run ⟨called.2, .future⟩ ops).inner) := by
  obtain ⟨request', state, w', hprepared, hanswer, hinner, hok⟩ :=
    call_spec platform config service inner request world (fun _ => True) trivial
  obtain ⟨added, hselected, -⟩ := hprepared.selected
  obtain ⟨value, hbytes, hinserted⟩ := hprepared.inserted
  refine ⟨state.requestContext, request'.headers, value, added, hselected, ?_, hbytes,
    fun name hname => ?_, ?_⟩
  · rw [hinserted, Headers.getAll_insert, if_pos rfl]
  · rw [hinserted, Headers.getAll_insert, if_neg hname]
  · rw [← hprepared.passed]
    refine ⟨hanswer, hinner, fun hcalled ops => ?_⟩
    rw [← hinner]
    exact (hok hcalled).2.answers platform config ops

end AxumObservability
