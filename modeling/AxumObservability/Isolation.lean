import AxumObservability.Projection
import AxumObservability.Server

/-!
# Isolation

What the exchange of one clone has to do with the others in flight: nothing. The inner
service answers it as it does alone, from the question whether it is ready to the drop of the
body.

* `Server.ready_answers`: a clone that is not called yet is ready when the inner service is;
* `server_transparent`: a clone among others answers like the inner service alone.
-/

namespace AxumObservability

open Library.Json Library.Machines Library.Panics Library.Text

variable {κ M V X B ε δ η : Type} [DecidableEq κ] [Headers M V] [BodyError η]
  {service : ReadyService M X B ε δ η}

/-! ## Other clones -/

/-- The clone that an input is for. -/
def ServerInput.clone : ServerInput κ M X B → Option κ
  | .pollReady k | .call k _ _ | .operation k _ => some k
  | .event _ _ _ | .enterScope _ => none

/-- An input changes no clone but the one it is for. -/
theorem Server.step_slots_of_ne (platform : Platform) (config : κ → ObservabilityConfig)
    (s : Server service κ) {input : ServerInput κ M X B} {k : κ} (h : input.clone ≠ some k) :
    (s.step platform config input).2.slots k = s.slots k := by
  have hne : ∀ k', input.clone = some k' → k ≠ k' := by
    rintro k' hk rfl
    exact h hk
  cases input with
  | pollReady k' =>
    cases hslot : s.slots k' with
    | called inner stage => simp only [Server.step, hslot]
    | ready inner =>
      simp only [Server.step, hslot]
      exact slots_put_of_ne s (hne k' rfl) _ _
  | call k' request events =>
    cases hslot : s.slots k' with
    | called inner stage => simp only [Server.step, hslot]
    | ready inner =>
      simp only [Server.step, hslot]
      split <;> exact slots_put_of_ne s (hne k' rfl) _ _
  | operation k' op =>
    cases hslot : s.slots k' with
    | ready inner => simp only [Server.step, hslot]
    | called inner stage =>
      simp only [Server.step, hslot]
      exact slots_put_of_ne s (hne k' rfl) _ _
  | event k' inside event =>
    simp only [Server.step]
    split <;> rfl
  | enterScope scope => rfl

/-! ## Readiness -/

/-- The inner service alone, as it is asked whether it is ready. -/
def readyMachine (service : ReadyService M X B ε δ η) :
    Machine Unit (Result (Poll (Except ε Unit))) where
  State := service.State
  step inner _ := service.pollReady inner

namespace Server

/-- The input asks the clone `k` whether it is ready. -/
def readinessOn (k : κ) : ServerInput κ M X B → Option Unit
  | .pollReady k' => if k' = k then some () else none
  | _ => none

/-- An input that does not call the clone `k`. -/
def Spares (k : κ) : ServerInput κ M X B → Prop
  | .call k' _ _ => k' ≠ k
  | _ => True

/-- **Until it is called** a clone answers as the inner service alone, and is where that is. -/
theorem ready_answers (platform : Platform) (config : κ → ObservabilityConfig) {k : κ}
    {s : Server service κ} {inner : service.State} (hready : s.slots k = .ready inner)
    (inputs : List (ServerInput κ M X B)) (hinputs : ∀ input ∈ inputs, Spares k input) :
    List.Forall₂ (fun polled answer => answer = .readiness polled)
      ((readyMachine service).answers inner (inputs.filterMap (readinessOn k)))
      (selected (readinessOn k) inputs (s.answers platform config inputs)) ∧
    (s.run platform config inputs).slots k =
      .ready ((readyMachine service).run inner (inputs.filterMap (readinessOn k))) := by
  let m := readyMachine service
  let m' := serverMachine platform config service
  refine lockstepPart (m := m) (R := fun inner (s : m'.State) => Server.slots s k = .ready inner)
    (G := Spares k) (readinessOn k) ?_ ?_ hready inputs hinputs
  · intro inner s input _ hinput h
    cases input with
    | pollReady k' =>
      obtain rfl : k' = k := by
        by_contra hk
        simp [readinessOn, hk] at hinput
      have hstep : Server.step platform config s (.pollReady k') =
          (.readiness (service.pollReady inner).1,
            Server.put s k' (.ready (service.pollReady inner).2) (Server.world s)) := by
        simp only [Server.step, h]
        rfl
      simp only [m', serverMachine, hstep]
      exact ⟨rfl, slots_put _ _ _ _⟩
    | _ => cases hinput
  · intro inner s input hspares hinput h
    by_cases hclone : input.clone = some k
    · cases input with
      | operation k' op =>
        cases hclone
        simp only [m', serverMachine, Server.step, h]
      | pollReady k' =>
        cases hclone
        simp [readinessOn] at hinput
      | call k' request events =>
        cases hclone
        exact absurd rfl hspares
      | _ => cases hclone
    · exact (step_slots_of_ne platform config s hclone).trans h

end Server

/-! ## The answers -/

namespace Server

/-- A called clone, and the inner service alone where it has come to. -/
def Beside (k : κ) (state : TerminalState) (bare : Bare service.toInnerService)
    (s : Server service κ) : Prop :=
  ∃ closed, (s.slots k).Tracks (fun _ => True) (some (state, bare)) closed

variable {platform : Platform} {config : κ → ObservabilityConfig} {k : κ} {state : TerminalState}
  {bare : Bare service.toInnerService} {s : Server service κ}

omit [DecidableEq κ] [BodyError η] in
theorem Beside.called (h : Beside k state bare s) :
    ∃ inner stage, s.slots k = .called inner stage ∧ inner = bare.inner := by
  obtain ⟨closed, htracks⟩ := h
  cases hslot : s.slots k with
  | ready inner =>
    rw [hslot] at htracks
    cases htracks.1
  | called inner stage =>
    rw [hslot] at htracks
    obtain ⟨_, _, ⟨⟩, ⟨-, hspent⟩ | ⟨-, harmed⟩⟩ := htracks
    · exact ⟨inner, stage, rfl, (hspent s.world).inner⟩
    · exact ⟨inner, stage, rfl, (harmed s.world trivial).inner⟩

theorem Beside.operation (h : Beside k state bare s) (platform : Platform)
    (config : κ → ObservabilityConfig) (op : Operation) :
    (∃ answer, (s.step platform config (.operation k op)).1 = .answered answer ∧
        SameAnswer (config k) state.requestContext.requestId
          (bare.step service.toInnerService op).1.boxed answer) ∧
      Beside k state (bare.step service.toInnerService op).2
        (s.step platform config (.operation k op)).2 := by
  classical
  obtain ⟨inner, stage, hslot, -⟩ := h.called
  obtain ⟨closed, htracks⟩ := h
  rw [hslot] at htracks
  obtain ⟨hsame, hnext, -⟩ := htracks.step platform (config k) op.within_all trivial
  simp only [Server.step, hslot]
  refine ⟨⟨_, rfl, hsame.boxed⟩, closed ∨ (terminalEvent bare op).isSome = true, ?_⟩
  rw [slots_put]
  exact hnext

/-- What is not an operation on a called clone leaves it as it is. -/
theorem Beside.other (h : Beside k state bare s) (platform : Platform)
    (config : κ → ObservabilityConfig) (input : ServerInput κ M X B)
    (hinput : operationOn k input = none) :
    Beside k state bare (s.step platform config input).2 := by
  have hkept : (s.step platform config input).2.slots k = s.slots k := by
    by_cases hclone : input.clone = some k
    · obtain ⟨inner, stage, hslot, -⟩ := h.called
      cases input with
      | pollReady k' =>
        cases hclone
        simp only [Server.step, hslot]
      | call k' request events =>
        cases hclone
        simp only [Server.step, hslot]
      | operation k' op =>
        cases hclone
        simp [operationOn] at hinput
      | _ => cases hclone
    · exact s.step_slots_of_ne platform config hclone
  rw [Beside, hkept]
  exact h

/-- In step with the inner service alone, whatever is done to the other clones. -/
theorem Beside.answers (h : Beside k state bare s) (platform : Platform)
    (config : κ → ObservabilityConfig) (inputs : List (ServerInput κ M X B)) :
    List.Forall₂ (fun bare answer => ∃ answer', answer = .answered answer' ∧
        SameAnswer (config k) state.requestContext.requestId bare.boxed answer')
      ((bareMachine service.toInnerService).answers bare (operationsOn k inputs))
      (selected (operationOn k) inputs (s.answers platform config inputs)) ∧
    Beside k state ((bareMachine service.toInnerService).run bare (operationsOn k inputs))
      (s.run platform config inputs) := by
  let m := bareMachine service.toInnerService
  let m' := serverMachine platform config service
  refine lockstepPart (m := m) (R := fun bare (s : m'.State) => Beside k state bare s)
    (G := fun _ => True) (operationOn k) ?_ ?_ h inputs fun _ _ => trivial
  · intro bare s input op hinput h
    cases input with
    | operation k' op' =>
      obtain ⟨rfl, rfl⟩ : k' = k ∧ op' = op := by simpa [operationOn] using hinput
      exact h.operation platform config op'
    | _ => cases hinput
  · intro bare s input _ hinput h
    exact h.other platform config input hinput

/-- What a call of a ready clone hands to the inner service and does to the clone. -/
structure Given (platform : Platform) (config : κ → ObservabilityConfig) (s : Server service κ)
    (k : κ) (inner : service.State) (request : Request M X B) (events : List ApplicationEvent)
    (request' : Request M X B) (state : TerminalState) (w' : World) : Prop where
  prepared : Prepared platform (config k) request s.world request' state w'
  answer : (s.step platform config (.call k request events)).1 =
    .called (service.call inner request').1
  refused : ∀ panic, (service.call inner request').1 = .error panic →
    (s.step platform config (.call k request events)).2.slots k =
      .ready (service.call inner request').2
  given : (service.call inner request').1 = .ok () →
    (∃ exchange : Exchange service.toInnerService,
      s.Gives platform config (.call k request events) k request exchange ∧
        exchange.stage = .future ⟨some state⟩) ∧
    (s.step platform config (.call k request events)).2.slots k =
      .called (service.call inner request').2 (.future ⟨some state⟩) ∧
    Beside k state ⟨(service.call inner request').2, .future⟩
      (s.step platform config (.call k request events)).2

theorem exists_given (platform : Platform) (config : κ → ObservabilityConfig)
    {inner : service.State} (hready : s.slots k = .ready inner) (request : Request M X B)
    (events : List ApplicationEvent) :
    ∃ request' state w', s.Given platform config k inner request events request' state w' := by
  obtain ⟨request', state, w', hprepared, hanswer, hinner, hok⟩ := call_spec platform (config k)
    service.toInnerService inner request s.world (fun _ => True) trivial
  obtain ⟨_, _, world, -, -, hemitting, -⟩ := callEmitting_spec platform (config k)
    service.toInnerService inner request events s.world
  obtain ⟨called, hcalled⟩ : ∃ called, ObservabilityService.call platform (config k)
    service.toInnerService inner request s.world = called := ⟨_, rfl⟩
  rw [hcalled] at hanswer hinner hok hemitting
  obtain ⟨result, exchange⟩ := called
  refine ⟨request', state, w', ?_⟩
  cases result with
  | error panic =>
    have hnext : s.step platform config (.call k request events) = (.called (.error panic),
        s.put k (.ready exchange.inner) world) := by
      simp only [Server.step, hready, hemitting]
    refine ⟨hprepared, ?_, fun _ _ => ?_, fun hok => ?_⟩
    · rw [hnext, ← hanswer]
    · rw [hnext, Server.slots_put, ← hinner]
    · cases hanswer.trans hok
  | ok =>
    have hnext : s.step platform config (.call k request events) = (.called (.ok ()),
        s.put k (.called exchange.inner exchange.stage) world) := by
      simp only [Server.step, hready, hemitting]
    refine ⟨hprepared, ?_, fun panic hpanic => ?_, fun hreturned => ?_⟩
    · rw [hnext, ← hanswer]
    · cases hanswer.trans hpanic
    · obtain ⟨-, harmed⟩ := hok hreturned
      have hbare : (⟨(service.call inner request').2, .future⟩ : Bare service.toInnerService) =
          .ofExchange exchange :=
        congrArg (fun inner => (⟨inner, .future⟩ : Bare service.toInnerService)) hinner.symm
      refine ⟨⟨exchange, ⟨⟨events, rfl⟩, inner, hready, hcalled⟩, harmed.stage_eq⟩, ?_, False, ?_⟩
      · rw [hnext, Server.slots_put, ← hinner, ← harmed.stage_eq]
      · rw [hnext, Server.slots_put, hbare]
        exact ⟨state, _, rfl, Or.inr ⟨id, harmed.anywhere⟩⟩

end Server

/-- **Exchanges are isolated.**  Until a clone is called it is ready when the inner service is,
and to ask it moves nothing else. A call hands the inner service the caller's request with the
selected identifier and the context, and gives its answer. From then on the clone answers what
is done with its future and its body as the inner service alone would, but that an error of the
body comes in a box, and the inner service is where it would be. So it is however the calls,
operations, events and panics of other clones come in between. -/
theorem server_transparent (platform : Platform) (config : κ → ObservabilityConfig)
    (service : ReadyService M X B ε δ η) (s : Server service κ) (k : κ) (inner : service.State)
    (hready : s.slots k = .ready inner) (before : List (ServerInput κ M X B))
    (hbefore : ∀ input ∈ before, Server.Spares k input) (request : Request M X B)
    (events : List ApplicationEvent) (after : List (ServerInput κ M X B)) :
    let polls := before.filterMap (Server.readinessOn k)
    let asked := s.run platform config before
    let inner' : service.State := (readyMachine service).run inner polls
    (List.Forall₂ (fun polled answer => answer = .readiness polled)
      ((readyMachine service).answers inner polls)
      (selected (Server.readinessOn k) before (s.answers platform config before))) ∧
    (∀ s : Server service κ, (s.step platform config (.pollReady k)).2.world = s.world) ∧
    ∃ request' state w', Prepared platform (config k) request asked.world request' state w' ∧
      let called := service.call inner' request'
      let next := (asked.step platform config (.call k request events)).2
      let bare : Bare service.toInnerService := ⟨called.2, .future⟩
      (asked.step platform config (.call k request events)).1 = .called called.1 ∧
      (∀ panic, called.1 = .error panic → next.slots k = .ready called.2) ∧
      (called.1 = .ok () →
        List.Forall₂ (fun bare answer => ∃ answer', answer = .answered answer' ∧
            SameAnswer (config k) state.requestContext.requestId bare.boxed answer')
          ((bareMachine service.toInnerService).answers bare (Server.operationsOn k after))
          (selected (Server.operationOn k) after (next.answers platform config after)) ∧
        ∃ stage, (next.run platform config after).slots k = .called
          ((bareMachine service.toInnerService).run bare (Server.operationsOn k after)).inner
          stage) := by
  intro polls asked inner'
  obtain ⟨hpolls, hasked⟩ := Server.ready_answers platform config hready before hbefore
  refine ⟨hpolls, fun s => ?_, ?_⟩
  · cases hslot : s.slots k <;> simp only [Server.step, hslot, Server.world_put]
  obtain ⟨request', state, w', hgiven⟩ :=
    Server.exists_given platform config hasked request events
  refine ⟨request', state, w', hgiven.prepared, hgiven.answer, hgiven.refused, fun hreturned => ?_⟩
  obtain ⟨-, -, hbeside⟩ := hgiven.given hreturned
  obtain ⟨hanswers, hfinal⟩ := hbeside.answers platform config after
  obtain ⟨_, stage, hslot, rfl⟩ := hfinal.called
  exact ⟨hanswers, stage, hslot⟩

/-! ### Two greetings at a time -/

def greetingServer : ReadyService HeaderList Unit Unit String String String :=
  { greetingService with pollReady := fun polls => (.ok (.ready (.ok ())), polls) }

/-- The service logs while it is called. -/
def greetingEvents : List ApplicationEvent := [⟨[], applicationEvent⟩]

/-- The exchanges of two clones go on in turns. -/
def greetingTurns : List (ServerInput Bool HeaderList Unit Unit) :=
  [.call false greetingRequest [], .operation true .pollFuture, .event false [] applicationEvent,
    .operation false .pollFuture, .operation false .pollFrame, .operation true .pollFrame,
    .operation false .dropBody]

def brokenServer : ReadyService HeaderList Unit Unit String String String :=
  { brokenService with pollReady := fun polls => (.ok (.ready (.ok ())), polls) }

theorem server_transparent_broken :
    ∃ requestId, List.Forall₂ (fun bare answer => ∃ answer', answer = .answered answer' ∧
        SameAnswer (.default .reference) requestId bare answer')
      [.future (.ready (.ok greetingHead)),
        .frame (.ready (some (.error (BodyError.new "reset"))))]
      (selected (Server.operationOn true) greetingTurns
        (Server.answers .reference (fun _ => .default .reference)
          (((Server.start (fun _ => (0 : Nat)) .initial : Server brokenServer Bool).run
            .reference (fun _ => .default .reference) [.pollReady true]).step
            .reference (fun _ => .default .reference) (.call true greetingRequest [])).2
          greetingTurns)) := by
  obtain ⟨-, -, _, state, _, -, -, -, hanswers⟩ := server_transparent .reference
    (fun _ => .default .reference) brokenServer
    (.start (fun _ : Bool => (0 : Nat)) .initial) true (0 : Nat) rfl [.pollReady true]
    (by simp [Server.Spares]) greetingRequest [] greetingTurns
  have hsame := (List.forall₂_map_left_iff (f := Answer.boxed)
    (R := fun bare answer => ∃ answer', answer = ServerAnswer.answered answer' ∧
      SameAnswer (.default .reference) state.requestContext.requestId bare answer')).mpr
    (hanswers rfl).1
  exact ⟨_, hsame⟩

end AxumObservability
