import AxumObservability.Library.Machines
import AxumObservability.Service

/-!
# The life of an exchange

The exchange through the middleware runs in step with the exchange with the inner
service alone. Along it the guard stays armed until the first terminal event, and
is spent from then on.

* `Armed.step`, `Spent.step`: what one operation does to the two sides;
* `Armed.run`, `Armed.emits`: what a run does to them;
* `call_spec`: what a call leaves behind;
* `call_emits_once`: every run after a call emits the record of its first terminal
  event, once.
-/

namespace AxumObservability

open Library.Json Library.Machines Library.Panics Library.Text

/-! ## Terminal events -/

/-- The ways an exchange can end, as seen between the consumer and the inner
service. -/
inductive TerminalEvent (M X : Type) where
  | serviceFailed
  | futureUnwound
  | futureDropped
  | endedAtOnce (head : Response M X)
  | endOfStream (head : Response M X)
  | endedWithFrame (head : Response M X)
  | bodyFailed (head : Response M X)
  | bodyDropped (head : Response M X)

variable {M V X B ε δ η : Type}

namespace TerminalEvent

def outcome : TerminalEvent M X → TerminalOutcome
  | .serviceFailed => .serviceError
  | .endedAtOnce _ | .endOfStream _ | .endedWithFrame _ => .completed
  | .bodyFailed _ => .bodyError
  | .futureUnwound | .futureDropped | .bodyDropped _ => .responseDropped

/-- The response head that was there by then. -/
def head? : TerminalEvent M X → Option (Response M X)
  | .serviceFailed | .futureUnwound | .futureDropped => none
  | .endedAtOnce head | .endOfStream head | .endedWithFrame head | .bodyFailed head
  | .bodyDropped head => some head

end TerminalEvent

/-- The terminal event in a poll of the body, where the body may have ended with a
frame. -/
def frameEvent (head : Response M X) (polled : Poll (Option (Except η δ))) (ended : Bool) :
    Option (TerminalEvent M X) :=
  match polled with
  | .pending => none
  | .ready none => some (.endOfStream head)
  | .ready (some (.error _)) => some (.bodyFailed head)
  | .ready (some (.ok _)) => if ended then some (.endedWithFrame head) else none

/-- The terminal event that an operation makes of an exchange with the inner
service, if it makes one. -/
def terminalEvent {service : InnerService M X B ε δ η} (s : Bare service) :
    Operation → Option (TerminalEvent M X)
  | .pollFuture =>
    match s.phase with
    | .future =>
      match service.pollFuture s.inner with
      | (.error _, _) => some .futureUnwound
      | (.ok .pending, _) => none
      | (.ok (.ready (.error _)), _) => some .serviceFailed
      | (.ok (.ready (.ok head)), inner) =>
        if service.isEndStream inner then some (.endedAtOnce head) else none
    | _ => none
  | .dropFuture =>
    match s.phase with
    | .future => some .futureDropped
    | _ => none
  | .pollFrame =>
    match s.phase with
    | .body head =>
      match service.pollFrame s.inner with
      | (.error _, _) => none
      | (.ok polled, inner) => frameEvent head polled (service.isEndStream inner)
    | _ => none
  | .dropBody =>
    match s.phase with
    | .body head => some (.bodyDropped head)
    | _ => none
  | _ => none

/-- The state of an exchange at a terminal event. -/
def TerminalState.atEvent (state : TerminalState) (event : TerminalEvent M X) : TerminalState :=
  match event.head? with
  | some head => state.withHead head
  | none => state

/-- An emitted event is the terminal one of an exchange that ended with `event`, under
one of `scopes`. -/
def TerminalEvent.Reported (event : TerminalEvent M X) (state : TerminalState)
    (platform : Platform) (calls : List Call) (scopes : List SpanData → Prop)
    (emitted : Emitted) : Prop :=
  ∃ scope, scopes scope ∧
    (state.atEvent event).Reported platform event.outcome calls scope emitted

/-- An operation runs under `scopes` only. -/
def Operation.Within (scopes : List SpanData → Prop) : Operation → Prop
  | .enterScope scope => scopes scope
  | _ => True

theorem Operation.within_all (op : Operation) : op.Within fun _ => True := by
  cases op <;> trivial

/-! ## The two machines -/

/-- The inner service alone, as a machine of operations. -/
def bareMachine (service : InnerService M X B ε δ η) : Machine Operation (Answer M X ε δ η) where
  State := Bare service
  step := Bare.step service

section

variable [Headers M V]

/-- The exchange through the middleware, as a machine of operations. -/
def exchangeMachine (platform : Platform) (config : ObservabilityConfig)
    (service : InnerService M X B ε δ η) : Machine Operation (Answer M X ε δ η) where
  State := Exchange service
  step := Exchange.step platform config service

/-- The answers of the two sides: the same, but for the response head. -/
inductive SameAnswer (config : ObservabilityConfig) (requestId : RequestId) :
    Answer M X ε δ η → Answer M X ε δ η → Prop where
  | pending : SameAnswer config requestId (.future .pending) (.future .pending)
  | failed (error : ε) :
      SameAnswer config requestId (.future (.ready (.error error)))
        (.future (.ready (.error error)))
  | responded (head head' : Response M X) (delivered : Delivered config requestId head head') :
      SameAnswer config requestId (.future (.ready (.ok head))) (.future (.ready (.ok head')))
  | frame (polled : Poll (Option (Except η δ))) :
      SameAnswer config requestId (.frame polled) (.frame polled)
  | endStream (ended : Bool) : SameAnswer config requestId (.endStream ended) (.endStream ended)
  | sizeHint (hint : SizeHint) : SameAnswer config requestId (.sizeHint hint) (.sizeHint hint)
  | dropped : SameAnswer config requestId .dropped .dropped
  | panicked (panic : Panic) : SameAnswer config requestId (.panicked panic) (.panicked panic)
  | idle : SameAnswer config requestId .idle .idle

theorem SameAnswer.ofDrop (config : ObservabilityConfig) (requestId : RequestId)
    (r : Result Unit) :
    SameAnswer config requestId (.ofDrop r : Answer M X ε δ η) (.ofDrop r) := by
  cases r with
  | ok => exact .dropped
  | error panic => exact .panicked panic

/-- In a box both sides answer the same as well. -/
theorem SameAnswer.boxed [BodyError η] {config : ObservabilityConfig} {requestId : RequestId}
    {answer answer' : Answer M X ε δ η} (h : SameAnswer config requestId answer answer') :
    SameAnswer config requestId answer.boxed answer'.boxed := by
  cases h with
  | pending => exact .pending
  | failed error => exact .failed error
  | responded head head' hdelivered => exact .responded head head' hdelivered
  | frame polled => exact .frame polled.boxed
  | endStream ended => exact .endStream ended
  | sizeHint hint => exact .sizeHint hint
  | dropped => exact .dropped
  | panicked panic => exact .panicked panic
  | idle => exact .idle

/-! ## In step -/

omit [Headers M V] in
/-- Code of the package that returns is run without a panic. -/
theorem settle_of_returns (service : InnerService M X B ε δ η) {α : Type} {effect : Effect α}
    {world : World} {Q : α → World → Prop} (h : Returns effect world Q) (inner : service.State)
    (next : α → Answer M X ε δ η × Stage) :
    ∃ a w', Q a w' ∧
      Exchange.settle inner world effect next = ((next a).1, ⟨inner, (next a).2, w'⟩) := by
  obtain ⟨a, w', hrun, hq⟩ := h
  refine ⟨a, w', hq, ?_⟩
  rw [Exchange.settle, hrun]

omit [Headers M V] in
theorem finish_of_spent (platform : Platform) {guard : TerminalGuard} (outcome : TerminalOutcome)
    (h : guard.state = none) (w : World) :
    Returns (guard.finish platform outcome) w fun guard' w' => guard'.state = none ∧ w' = w :=
  ⟨guard, w, TerminalGuard.finish_of_done platform outcome h w, h, rfl⟩

omit [Headers M V] in
theorem observe_of_spent (platform : Platform) {body : ObservedBody} (h : body.guard.state = none)
    (polled : Poll (Option (Except η δ))) (ended : Bool) (w : World) :
    Returns (body.observe platform polled ended) w fun body' w' =>
      body'.guard.state = none ∧ w' = w := by
  have hfinish : ∀ outcome, Returns (do return (⟨← body.guard.finish platform outcome⟩ :
      ObservedBody)) w fun body' w' => body'.guard.state = none ∧ w' = w := fun outcome =>
    (finish_of_spent platform outcome h w).bind fun _ _ hg => Returns.pure hg
  match polled, ended with
  | .pending, _ => exact Returns.pure ⟨h, rfl⟩
  | .ready none, _ => exact hfinish .completed
  | .ready (some (.error _)), _ => exact hfinish .bodyError
  | .ready (some (.ok _)), true => exact hfinish .completed
  | .ready (some (.ok _)), false => exact Returns.pure ⟨h, rfl⟩

omit [Headers M V] in
theorem observe_of_armed (platform : Platform) {body : ObservedBody} {state : TerminalState}
    (head : Response M X) (hguard : body.guard.state = some (state.withHead head))
    (polled : Poll (Option (Except η δ))) (ended : Bool) {scopes : List SpanData → Prop}
    {w : World} (hscope : scopes w.scope) :
    Returns (body.observe platform polled ended) w fun body' w' =>
      (frameEvent head polled ended = none ∧ body'.guard.state = some (state.withHead head) ∧
        w' = w) ∨
      ∃ event emitted, frameEvent head polled ended = some event ∧
        event.Reported state platform w.calls scopes emitted ∧ w'.emitted = w.emitted ++ [emitted] ∧
        body'.guard.state = none := by
  have hfinish : ∀ event : TerminalEvent M X, event.head? = some head →
      frameEvent head polled ended = some event →
      Returns (do return (⟨← body.guard.finish platform event.outcome⟩ : ObservedBody)) w
        fun body' w' => (frameEvent head polled ended = none ∧
          body'.guard.state = some (state.withHead head) ∧ w' = w) ∨
        ∃ event emitted, frameEvent head polled ended = some event ∧
          event.Reported state platform w.calls scopes emitted ∧
          w'.emitted = w.emitted ++ [emitted] ∧ body'.guard.state = none := by
    intro event hhead hevent
    have hstate : state.atEvent event = state.withHead head := by
      rw [TerminalState.atEvent, hhead]
    refine (TerminalGuard.finish_spec platform event.outcome hguard (fun _ => rfl) w).bind
      fun guard w' h => Returns.pure (Or.inr ?_)
    obtain ⟨hspent, emitted, hreported, hemitted⟩ := h
    exact ⟨event, emitted, hevent, ⟨w.scope, hscope, hstate ▸ hreported⟩, hemitted, hspent⟩
  match polled, ended with
  | .pending, _ => exact Returns.pure (Or.inl ⟨rfl, hguard, rfl⟩)
  | .ready none, _ => exact hfinish (.endOfStream head) rfl rfl
  | .ready (some (.error _)), _ => exact hfinish (.bodyFailed head) rfl rfl
  | .ready (some (.ok _)), true => exact hfinish (.endedWithFrame head) rfl rfl
  | .ready (some (.ok _)), false => exact Returns.pure (Or.inl ⟨rfl, hguard, rfl⟩)

variable (platform : Platform) (config : ObservabilityConfig)
  (service : InnerService M X B ε δ η) (state : TerminalState) (calls : List Call)
  (scopes : List SpanData → Prop)

/-- Before the first terminal event: the guard holds the state of the exchange,
with the response head once there is one, and no callback has been called since. -/
structure Armed (s : Bare service) (s' : Exchange service) : Prop where
  inner : s'.inner = s.inner
  calls : s'.world.calls = calls
  scope : scopes s'.world.scope
  stage : match s.phase, s'.stage with
    | .future, .future guard => guard.state = some state
    | .body head, .body body => body.guard.state = some (state.withHead head)
    | _, _ => False

/-- After it: the guard is spent. -/
structure Spent (s : Bare service) (s' : Exchange service) : Prop where
  inner : s'.inner = s.inner
  stage : match s.phase, s'.stage with
    | .body _, .body body => body.guard.state = none
    | .gone, .gone => True
    | _, _ => False

/-- One operation on the two sides answers the same; the exchange stays armed, or it
reports the terminal event that the operation makes and is spent. -/
def Advances (s : Bare service) (s' : Exchange service) (op : Operation) : Prop :=
  SameAnswer config state.requestContext.requestId (s.step service op).1
      (s'.step platform config service op).1 ∧
    ((terminalEvent s op = none ∧
        (s'.step platform config service op).2.world.emitted = s'.world.emitted ∧
        Armed service state calls scopes (s.step service op).2
          (s'.step platform config service op).2) ∨
      ∃ event emitted, terminalEvent s op = some event ∧
        event.Reported state platform calls scopes emitted ∧
        (s'.step platform config service op).2.world.emitted = s'.world.emitted ++ [emitted] ∧
        Spent service (s.step service op).2 (s'.step platform config service op).2)

variable {platform config service state calls scopes}

theorem Spent.step {s : Bare service} {s' : Exchange service} (h : Spent service s s')
    (platform : Platform) (config : ObservabilityConfig) (requestId : RequestId)
    (op : Operation) :
    SameAnswer config requestId (s.step service op).1 (s'.step platform config service op).1 ∧
      (s'.step platform config service op).2.world.emitted = s'.world.emitted ∧
      Spent service (s.step service op).2 (s'.step platform config service op).2 := by
  obtain ⟨inner, phase⟩ := s
  obtain ⟨inner', stage, world⟩ := s'
  obtain ⟨hinner, hstage⟩ := h
  cases hinner
  cases phase with
  | future => cases stage <;> exact hstage.elim
  | gone =>
    cases stage with
    | future guard => exact hstage.elim
    | body body => exact hstage.elim
    | gone => cases op <;> exact ⟨.idle, rfl, rfl, trivial⟩
  | body head =>
    cases stage with
    | future guard => exact hstage.elim
    | gone => exact hstage.elim
    | body body =>
      cases op with
      | pollFuture => exact ⟨.idle, rfl, rfl, hstage⟩
      | dropFuture => exact ⟨.idle, rfl, rfl, hstage⟩
      | isEndStream => exact ⟨.endStream _, rfl, rfl, hstage⟩
      | sizeHint => exact ⟨.sizeHint _, rfl, rfl, hstage⟩
      | external n => exact ⟨.idle, rfl, rfl, hstage⟩
      | enterScope scope => exact ⟨.idle, rfl, rfl, hstage⟩
      | pollFrame =>
        simp only [Bare.step, Exchange.step]
        obtain ⟨polled, inner₁⟩ := service.pollFrame inner
        cases polled with
        | error panic => exact ⟨.panicked panic, rfl, rfl, hstage⟩
        | ok polled =>
          obtain ⟨body', w', ⟨hspent, rfl⟩, hsettle⟩ := settle_of_returns service
            (observe_of_spent platform hstage polled (service.isEndStream inner₁) world) inner₁
            fun body => (.frame polled, .body body)
          dsimp only
          rw [hsettle]
          exact ⟨.frame polled, rfl, rfl, hspent⟩
      | dropBody =>
        obtain ⟨_, w', ⟨-, rfl⟩, hsettle⟩ := settle_of_returns service
          (finish_of_spent platform .responseDropped hstage world) (service.dropBody inner).2
          fun _ => (.ofDrop (service.dropBody inner).1, .gone)
        simp only [Bare.step, Exchange.step, TerminalGuard.drop, hsettle]
        exact ⟨SameAnswer.ofDrop config requestId _, trivial, rfl, trivial⟩

/-- Dropping an armed guard emits the record of a dropped response. -/
theorem drop_of_armed (platform : Platform) (event : TerminalEvent M X) {guard : TerminalGuard}
    {state : TerminalState} (hguard : guard.state = some (state.atEvent event))
    (hevent : event.outcome = .responseDropped) {scopes : List SpanData → Prop} {w : World}
    (hscope : scopes w.scope) :
    Returns (guard.drop platform) w fun _ w' =>
      ∃ emitted, event.Reported state platform w.calls scopes emitted ∧
        w'.emitted = w.emitted ++ [emitted] := by
  apply (TerminalGuard.finish_spec platform .responseDropped hguard nofun w).mono
  intro guard' w' h
  obtain ⟨-, emitted, hreported, hemitted⟩ := h
  exact ⟨emitted, ⟨w.scope, hscope, hevent ▸ hreported⟩, hemitted⟩

theorem respond_error_of_armed (platform : Platform) (config : ObservabilityConfig)
    {guard : TerminalGuard} {state : TerminalState} (hguard : guard.state = some state) (error : ε)
    (ended : Bool) {scopes : List SpanData → Prop} {w : World} (hscope : scopes w.scope) :
    Returns (respond platform config guard (.error error : Except ε (Response M X)) ended) w
      fun answer w' => answer = .error error ∧ ∃ emitted,
        (TerminalEvent.serviceFailed : TerminalEvent M X).Reported state platform w.calls scopes
          emitted ∧
        w'.emitted = w.emitted ++ [emitted] := by
  apply (TerminalGuard.finish_spec platform .serviceError hguard nofun w).bind
  intro guard' w' h
  obtain ⟨hspent, emitted, hreported, hemitted⟩ := h
  apply (finish_of_spent platform .responseDropped hspent w').bind
  intro _ w'' h
  obtain ⟨-, rfl⟩ := h
  exact Returns.pure ⟨rfl, emitted, ⟨w.scope, hscope, hreported⟩, hemitted⟩

theorem pollFuture_of_armed (platform : Platform) (config : ObservabilityConfig)
    {guard : TerminalGuard} (hguard : guard.state = some state) (inner : service.State)
    {world : World} (hscope : scopes world.scope) :
    Advances platform config service state world.calls scopes ⟨inner, .future⟩
      ⟨inner, .future guard, world⟩ .pollFuture := by
  simp only [Advances, Bare.step, Exchange.step, terminalEvent]
  obtain ⟨polled, inner₁⟩ := service.pollFuture inner
  cases polled with
  | error panic =>
    obtain ⟨_, w', ⟨emitted, hreported, hemitted⟩, hsettle⟩ := settle_of_returns service
      (drop_of_armed platform (.futureUnwound : TerminalEvent M X) hguard rfl hscope)
      inner₁ fun _ => (.panicked panic, .gone)
    dsimp only
    rw [hsettle]
    exact ⟨.panicked panic, Or.inr ⟨_, emitted, rfl, hreported, hemitted, rfl, trivial⟩⟩
  | ok polled =>
    cases polled with
    | pending => exact ⟨.pending, Or.inl ⟨rfl, rfl, rfl, rfl, hscope, hguard⟩⟩
    | ready answer =>
      cases answer with
      | error error =>
        obtain ⟨_, w', ⟨rfl, emitted, hreported, hemitted⟩, hsettle⟩ := settle_of_returns service
          (respond_error_of_armed platform config hguard error (service.isEndStream inner₁) hscope)
          inner₁ answered
        dsimp only
        rw [hsettle]
        exact ⟨.failed error, Or.inr ⟨_, emitted, rfl, hreported, hemitted, rfl, trivial⟩⟩
      | ok head =>
        obtain ⟨_, w', ⟨head', body, rfl, hdelivered, hbody⟩, hsettle⟩ := settle_of_returns service
          (respond_spec platform config hguard head (service.isEndStream inner₁) world) inner₁
          answered
        dsimp only
        rw [hsettle]
        refine ⟨.responded head head' hdelivered, ?_⟩
        rcases hbody with ⟨hended, harmed, rfl⟩ | ⟨hended, hspent, emitted, hreported, hemitted⟩
        · exact Or.inl ⟨by rw [hended]; rfl, rfl, rfl, rfl, hscope, harmed⟩
        · exact Or.inr ⟨.endedAtOnce head, emitted, by rw [hended]; rfl,
            ⟨world.scope, hscope, hreported⟩, hemitted, rfl, hspent⟩

theorem pollFrame_of_armed (platform : Platform) (config : ObservabilityConfig)
    {body : ObservedBody} (head : Response M X)
    (hguard : body.guard.state = some (state.withHead head)) (inner : service.State)
    {world : World} (hscope : scopes world.scope) :
    Advances platform config service state world.calls scopes ⟨inner, .body head⟩
      ⟨inner, .body body, world⟩ .pollFrame := by
  simp only [Advances, Bare.step, Exchange.step, terminalEvent]
  obtain ⟨polled, inner₁⟩ := service.pollFrame inner
  cases polled with
  | error panic => exact ⟨.panicked panic, Or.inl ⟨rfl, rfl, rfl, rfl, hscope, hguard⟩⟩
  | ok polled =>
    obtain ⟨body', w', hbody, hsettle⟩ := settle_of_returns service
      (observe_of_armed platform head hguard polled (service.isEndStream inner₁) hscope)
      inner₁ fun body => (.frame polled, .body body)
    dsimp only
    rw [hsettle]
    refine ⟨.frame polled, ?_⟩
    rcases hbody with ⟨hnone, harmed, rfl⟩ | ⟨event, emitted, hevent, hreported, hemitted, hspent⟩
    · exact Or.inl ⟨hnone, rfl, rfl, rfl, hscope, harmed⟩
    · exact Or.inr ⟨event, emitted, hevent, hreported, hemitted, rfl, hspent⟩

theorem Armed.step {s : Bare service} {s' : Exchange service}
    (h : Armed service state calls scopes s s') (platform : Platform)
    (config : ObservabilityConfig) (op : Operation) (hop : op.Within scopes) :
    Advances platform config service state calls scopes s s' op := by
  obtain ⟨inner, phase⟩ := s
  obtain ⟨inner', stage, world⟩ := s'
  obtain ⟨hinner, hcalls, hscope, hstage⟩ := h
  cases hinner
  cases hcalls
  cases phase with
  | gone => cases stage <;> exact hstage.elim
  | future =>
    cases stage with
    | body body => exact hstage.elim
    | gone => exact hstage.elim
    | future guard =>
      cases op with
      | pollFuture => exact pollFuture_of_armed platform config hstage inner hscope
      | dropFuture =>
        obtain ⟨_, w', ⟨emitted, hreported, hemitted⟩, hsettle⟩ := settle_of_returns service
          (drop_of_armed platform (.futureDropped : TerminalEvent M X) hstage rfl hscope)
          (service.dropFuture inner).2 fun _ => (.ofDrop (service.dropFuture inner).1, .gone)
        simp only [Advances, Bare.step, Exchange.step, hsettle]
        exact ⟨SameAnswer.ofDrop config _ _, Or.inr ⟨_, emitted, rfl, hreported, hemitted, rfl,
          trivial⟩⟩
      | pollFrame => exact ⟨.idle, Or.inl ⟨rfl, rfl, rfl, rfl, hscope, hstage⟩⟩
      | isEndStream => exact ⟨.idle, Or.inl ⟨rfl, rfl, rfl, rfl, hscope, hstage⟩⟩
      | sizeHint => exact ⟨.idle, Or.inl ⟨rfl, rfl, rfl, rfl, hscope, hstage⟩⟩
      | dropBody => exact ⟨.idle, Or.inl ⟨rfl, rfl, rfl, rfl, hscope, hstage⟩⟩
      | external n => exact ⟨.idle, Or.inl ⟨rfl, rfl, rfl, rfl, hscope, hstage⟩⟩
      | enterScope scope => exact ⟨.idle, Or.inl ⟨rfl, rfl, rfl, rfl, hop, hstage⟩⟩
  | body head =>
    cases stage with
    | future guard => exact hstage.elim
    | gone => exact hstage.elim
    | body body =>
      cases op with
      | pollFrame => exact pollFrame_of_armed platform config head hstage inner hscope
      | dropBody =>
        obtain ⟨_, w', ⟨emitted, hreported, hemitted⟩, hsettle⟩ := settle_of_returns service
          (drop_of_armed platform (.bodyDropped head) hstage rfl hscope)
          (service.dropBody inner).2 fun _ => (.ofDrop (service.dropBody inner).1, .gone)
        simp only [Advances, Bare.step, Exchange.step, hsettle]
        exact ⟨SameAnswer.ofDrop config _ _, Or.inr ⟨_, emitted, rfl, hreported, hemitted, rfl,
          trivial⟩⟩
      | pollFuture => exact ⟨.idle, Or.inl ⟨rfl, rfl, rfl, rfl, hscope, hstage⟩⟩
      | dropFuture => exact ⟨.idle, Or.inl ⟨rfl, rfl, rfl, rfl, hscope, hstage⟩⟩
      | isEndStream => exact ⟨.endStream _, Or.inl ⟨rfl, rfl, rfl, rfl, hscope, hstage⟩⟩
      | sizeHint => exact ⟨.sizeHint _, Or.inl ⟨rfl, rfl, rfl, rfl, hscope, hstage⟩⟩
      | external n => exact ⟨.idle, Or.inl ⟨rfl, rfl, rfl, rfl, hscope, hstage⟩⟩
      | enterScope scope => exact ⟨.idle, Or.inl ⟨rfl, rfl, rfl, rfl, hop, hstage⟩⟩

/-! ## Runs of a call -/

/-- The exchange with the inner service once it has given out its future. -/
def Bare.ofExchange (exchange : Exchange service) : Bare service := ⟨exchange.inner, .future⟩

/-- **A call panics only where the inner call does.**  The inner service gets the
prepared request, and a call that gives out a future leaves an armed exchange. -/
theorem call_spec (platform : Platform) (config : ObservabilityConfig)
    (service : InnerService M X B ε δ η) (inner : service.State) (request : Request M X B)
    (world : World) (scopes : List SpanData → Prop) (hscope : scopes world.scope) :
    ∃ request' state w', Prepared platform config request world request' state w' ∧
      (ObservabilityService.call platform config service inner request world).1 =
        (service.call inner request').1 ∧
      (ObservabilityService.call platform config service inner request world).2.inner =
        (service.call inner request').2 ∧
      ((service.call inner request').1 = .ok () →
        (ObservabilityService.call platform config service inner request world).2.world = w' ∧
        Armed service state w'.calls scopes
          (.ofExchange (ObservabilityService.call platform config service inner request world).2)
          (ObservabilityService.call platform config service inner request world).2) := by
  obtain ⟨⟨request', guard⟩, w', hrun, state, hguard, hprepared⟩ :=
    prepare_spec platform config request world
  cases hguard
  refine ⟨request', state, w', hprepared, ?_⟩
  rw [ObservabilityService.call, hrun]
  dsimp only
  obtain ⟨r, inner₁⟩ := service.call inner request'
  cases r with
  | error panic => exact ⟨rfl, rfl, nofun⟩
  | ok => exact ⟨rfl, rfl, fun _ => ⟨rfl, rfl, rfl, hprepared.scope ▸ hscope, rfl⟩⟩

/-- A call that has given out its future leaves an armed exchange. -/
theorem armed_of_call {platform : Platform} {config : ObservabilityConfig} {inner : service.State}
    {request : Request M X B} {world : World} {exchange : Exchange service}
    (hcall : ObservabilityService.call platform config service inner request world =
      (.ok (), exchange)) (scopes : List SpanData → Prop) (hscope : scopes world.scope) :
    ∃ request' state, Prepared platform config request world request' state exchange.world ∧
      Armed service state exchange.world.calls scopes (.ofExchange exchange) exchange := by
  obtain ⟨request', state, w', hprepared, hanswer, -, hok⟩ :=
    call_spec platform config service inner request world scopes hscope
  rw [hcall] at hanswer hok
  obtain ⟨rfl, harmed⟩ := hok hanswer.symm
  exact ⟨request', state, hprepared, harmed⟩

/-- A service that takes every request is called without a panic. -/
theorem exists_call (platform : Platform) (config : ObservabilityConfig)
    (service : InnerService M X B ε δ η) (inner : service.State) {inner' : service.State}
    (hcall : ∀ request, service.call inner request = (.ok (), inner')) (request : Request M X B)
    (world : World) :
    ∃ exchange, ObservabilityService.call platform config service inner request world =
      (.ok (), exchange) ∧ Bare.ofExchange exchange = ⟨inner', .future⟩ := by
  obtain ⟨request', state, w', -, hanswer, hinner, -⟩ :=
    call_spec platform config service inner request world (fun _ => True) trivial
  rw [hcall] at hanswer hinner
  obtain ⟨called, hcalled⟩ : ∃ called,
    ObservabilityService.call platform config service inner request world = called := ⟨_, rfl⟩
  obtain ⟨answer, exchange⟩ := called
  rw [hcalled] at hanswer hinner
  cases hanswer
  exact ⟨exchange, hcalled, congrArg (fun inner => (⟨inner, .future⟩ : Bare service)) hinner⟩

theorem Armed.stage_eq {exchange : Exchange service}
    (h : Armed service state calls scopes (.ofExchange exchange) exchange) :
    exchange.stage = .future ⟨some state⟩ := by
  have hstage := h.stage
  obtain ⟨inner, stage, world⟩ := exchange
  cases stage with
  | future guard => exact congrArg (fun state => Stage.future ⟨state⟩) hstage
  | body body => exact hstage.elim
  | gone => exact hstage.elim

theorem Armed.stage_ne_gone {s : Bare service} {s' : Exchange service}
    (h : Armed service state calls scopes s s') : s'.stage ≠ .gone := by
  obtain ⟨inner, phase⟩ := s
  obtain ⟨inner', stage, world⟩ := s'
  rintro rfl
  cases phase <;> exact h.stage

/-- **The two machines in step, over a run**: the record of the first terminal event,
once. -/
theorem Armed.run {s : Bare service} {s' : Exchange service}
    (h : Armed service state calls scopes s s') (platform : Platform)
    (config : ObservabilityConfig) (ops : List Operation) (hops : ∀ op ∈ ops, op.Within scopes) :
    ((bareMachine service).firstEvent terminalEvent s ops = none ∧
        ((exchangeMachine platform config service).run s' ops).world.emitted =
          s'.world.emitted ∧
        Armed service state calls scopes ((bareMachine service).run s ops)
          ((exchangeMachine platform config service).run s' ops)) ∨
      ∃ event emitted, (bareMachine service).firstEvent terminalEvent s ops = some event ∧
        event.Reported state platform calls scopes emitted ∧
        ((exchangeMachine platform config service).run s' ops).world.emitted =
          s'.world.emitted ++ [emitted] ∧
        Spent service ((bareMachine service).run s ops)
          ((exchangeMachine platform config service).run s' ops) := by
  let m := bareMachine service
  let m' := exchangeMachine platform config service
  have harmed : ∀ (s : m.State) (s' : m'.State) op, op.Within scopes →
      Armed service state calls scopes s s' →
      (terminalEvent s op = none ∧ (m'.step s' op).2.world.emitted = s'.world.emitted ∧
        Armed service state calls scopes (m.step s op).2 (m'.step s' op).2) ∨
      ∃ event emitted, terminalEvent s op = some event ∧
        event.Reported state platform calls scopes emitted ∧
        (m'.step s' op).2.world.emitted = s'.world.emitted ++ [emitted] ∧
        Spent service (m.step s op).2 (m'.step s' op).2 :=
    fun _ _ op hop h => (h.step platform config op hop).2
  have hspent : ∀ (s : m.State) (s' : m'.State) op, Spent service s s' →
      (m'.step s' op).2.world.emitted = s'.world.emitted ∧
        Spent service (m.step s op).2 (m'.step s' op).2 :=
    fun _ _ op h => (h.step platform config state.requestContext.requestId op).2
  exact oneShot (m := m) terminalEvent
    (fun s' : m'.State => s'.world.emitted) harmed hspent h ops hops

/-- A run with a terminal event has emitted the record of the first one, and the
exchange is spent. -/
theorem Armed.emits {state : TerminalState} {calls : List Call} {s : Bare service}
    {s' : Exchange service} (h : Armed service state calls (fun _ => True) s s')
    (platform : Platform) (config : ObservabilityConfig) {ops : List Operation}
    {event : TerminalEvent M X}
    (hsome : (bareMachine service).firstEvent terminalEvent s ops = some event) :
    let final : Exchange service := (exchangeMachine platform config service).run s' ops
    ∃ emitted serialized, final.world.emitted = s'.world.emitted ++ [emitted] ∧
      emitted.event =
        accessEvent ((state.atEvent event).level event.outcome calls) serialized ∧
      platform.serde.toString ((state.atEvent event).terminalRecord event.outcome calls
        platform.float).toValue = some serialized ∧
      Spent service ((bareMachine service).run s ops) final := by
  intro final
  rcases h.run platform config ops (fun op _ => op.within_all) with ⟨hnone, -⟩ |
    ⟨event', emitted, hsome', ⟨scope, -, serialized, htext, hreported⟩, hemitted, hspent⟩
  · cases hnone.symm.trans hsome
  · cases hsome'.symm.trans hsome
    exact ⟨emitted, serialized, hemitted, congrArg Emitted.event hreported, htext, hspent⟩

end

/-! ## One record -/

/-- The record of an exchange and the level of its event, as its first terminal event
decides them. -/
structure TerminalEvent.Classifies (event : TerminalEvent M X) (record : AccessRecord)
    (level : Level) : Prop where
  serviceError : record.terminalReason = some "service_error" ↔ event = .serviceFailed
  completed : record.terminalReason = none ↔
    ∃ head, event = .endedAtOnce head ∨ event = .endOfStream head ∨ event = .endedWithFrame head
  bodyError : record.terminalReason = some "body_error" ↔ ∃ head, event = .bodyFailed head
  responseDropped : record.terminalReason = some "response_dropped" ↔
    event = .futureUnwound ∨ event = .futureDropped ∨ ∃ head, event = .bodyDropped head
  status : record.status = event.head?.map fun head => head.status.asU16
  level : record.terminalReason ≠ none → level = .error

theorem TerminalEvent.classifies (event : TerminalEvent M X) {state : TerminalState}
    (hstatus : state.status = none) (calls : List Call) (float : FloatArithmetic) :
    event.Classifies ((state.atEvent event).terminalRecord event.outcome calls float)
      ((state.atEvent event).level event.outcome calls) := by
  constructor
  · cases event <;> simp [TerminalState.terminalRecord, TerminalState.record, outcome,
      TerminalOutcome.terminalReason]
  · cases event <;> simp [TerminalState.terminalRecord, TerminalState.record, outcome,
      TerminalOutcome.terminalReason]
  · cases event <;> simp [TerminalState.terminalRecord, TerminalState.record, outcome,
      TerminalOutcome.terminalReason]
  · cases event <;> simp [TerminalState.terminalRecord, TerminalState.record, outcome,
      TerminalOutcome.terminalReason]
  · cases event <;> simp [TerminalState.terminalRecord, TerminalState.record, head?,
      TerminalState.atEvent, TerminalState.withHead, hstatus]
  · cases event <;> simp [TerminalState.terminalRecord, TerminalState.record, outcome,
      TerminalOutcome.terminalReason, TerminalState.level]

/-- **Exactly one terminal record.**  Whatever the consumer does, whatever the inner
service answers and whichever callbacks panic: up to the first terminal event
nothing is emitted, from then on exactly its record at the level of its outcome, and
an exchange that is gone has had one. The writer of the log is one that returns. -/
theorem call_emits_once [Headers M V] (platform : Platform) (config : ObservabilityConfig)
    (service : InnerService M X B ε δ η) (inner : service.State) (request : Request M X B)
    (world : World) (exchange : Exchange service)
    (hcall : ObservabilityService.call platform config service inner request world =
      (.ok (), exchange)) :
    ∃ request' state, Prepared platform config request world request' state exchange.world ∧
      ∀ ops : List Operation,
        let first := (bareMachine service).firstEvent terminalEvent (.ofExchange exchange) ops
        let final := (exchangeMachine platform config service).run exchange ops
        (first = none → final.world.emitted = world.emitted ∧ final.stage ≠ .gone) ∧
        ∀ event, first = some event → ∃ emitted record level serialized,
          final.world.emitted = world.emitted ++ [emitted] ∧
          emitted.event = accessEvent level serialized ∧
          platform.serde.toString record.toValue = some serialized ∧
          record = (state.atEvent event).terminalRecord event.outcome exchange.world.calls
            platform.float ∧
          level = (state.atEvent event).level event.outcome exchange.world.calls ∧
          event.Classifies record level := by
  obtain ⟨request', state, hprepared, harmed⟩ :=
    armed_of_call hcall (fun _ => True) trivial
  refine ⟨request', state, hprepared, fun ops => ?_⟩
  intro first final
  refine ⟨fun hnone => ?_, fun event hevent => ?_⟩
  · rcases harmed.run platform config ops (fun op _ => op.within_all) with
      ⟨-, hemitted, harmed'⟩ | ⟨event, -, hsome, -⟩
    · exact ⟨hemitted.trans hprepared.emitted, harmed'.stage_ne_gone⟩
    · cases hnone.symm.trans hsome
  · obtain ⟨emitted, serialized, hemitted, hlevel, htext, -⟩ := harmed.emits platform config hevent
    exact ⟨emitted, _, _, serialized, hemitted.trans (by rw [hprepared.emitted]), hlevel, htext,
      rfl, rfl, event.classifies hprepared.fresh _ _⟩

/-! ### A response in one frame -/

def greetingHead : Response HeaderList Unit where
  status := ⟨200, by decide⟩
  version := .http11
  headers := []
  extensions := ⟨none, some ⟨"greet", by decide⟩, none, none, ()⟩

/-- Answers at once; the body gives one frame and has ended with it. Its state counts
the polls of the body. -/
def greetingService : InnerService HeaderList Unit Unit String String String where
  State := Nat
  call polls _ := (.ok (), polls)
  pollFuture polls := (.ok (.ready (.ok greetingHead)), polls)
  dropFuture polls := (.ok (), polls)
  pollFrame polls := (.ok (.ready (if polls = 0 then some (.ok "hello") else none)), polls + 1)
  isEndStream polls := polls ≠ 0
  sizeHint polls := if polls = 0 then ⟨5, some 5⟩ else ⟨0, some 0⟩
  dropBody polls := (.ok (), polls)
  external _ polls := polls

/-- The same, but that its body breaks off at once. -/
def brokenService : InnerService HeaderList Unit Unit String String String :=
  { greetingService with
    pollFrame := fun polls : Nat => (.ok (.ready (some (.error "reset"))), polls) }

instance : BodyError String := ⟨fun error => "Error(" ++ error ++ ")"⟩

def greetingRequest : Request HeaderList Unit Unit where
  method := "GET"
  uri := ⟨none, none, "/greeting", some "name=world"⟩
  version := .http11
  headers := []
  extensions := ⟨some "/greeting", none, none, none, ()⟩
  body := ()

theorem call_emits_once_greeting :
    ∃ exchange, ObservabilityService.call .reference (.default .reference) greetingService
        (0 : Nat) greetingRequest .initial = (.ok (), exchange) ∧
      ∃ emitted, ((exchangeMachine .reference (.default .reference) greetingService).run exchange
        [.pollFuture, .pollFrame, .pollFrame, .dropBody]).world.emitted = [emitted] := by
  obtain ⟨exchange, hcalled, hbare⟩ := exists_call .reference (.default .reference)
    greetingService (0 : Nat) (fun _ => rfl) greetingRequest .initial
  obtain ⟨-, state, -, hruns⟩ := call_emits_once .reference (.default .reference) greetingService
    (0 : Nat) greetingRequest .initial exchange hcalled
  obtain ⟨emitted, -, -, -, hemitted, -⟩ :=
    (hruns [.pollFuture, .pollFrame, .pollFrame, .dropBody]).2 _ (by rw [hbare]; rfl)
  exact ⟨exchange, hcalled, emitted, hemitted⟩

end AxumObservability
