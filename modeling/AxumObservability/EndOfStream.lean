import AxumObservability.Lifecycle

/-!
# The end of a body

The end of the inner body is visible to the consumer at any moment, while the
middleware looks for it when it wraps the body and after each frame.

* `not_showsEnd_step`: between terminal events an end becomes visible only where it
  is unseen;
* `showsEnd_iff_endedUnseen`: up to the first terminal event, what is visible are the
  unseen ends that stand;
* `isEndStream_completed_iff`: when every end that the consumer is shown has been reported;
* `firstEvent_unpolled`: how a body that is never polled ends;
* `dropBody_unpolled`: the record of such a body.
-/

namespace AxumObservability

open Library.Json Library.Machines Library.Panics Library.Text

variable {M V X B ε δ η : Type}

/-! ## Visible ends -/

/-- The body shows its consumer that it has ended. -/
def Bare.ShowsEnd (service : InnerService M X B ε δ η) (s : Bare service) : Prop :=
  (s.step service .isEndStream).1 = .endStream true

/-- A poll that gives nothing: it is pending, or it has panicked. -/
def Unanswered {α : Type} (polled : Result (Poll α)) : Prop := ∀ a, polled ≠ .ok (.ready a)

/-- The operation ends a body without an answer that would tell: it happens outside,
or in a poll that gives nothing. -/
def EndsUnseen (service : InnerService M X B ε δ η) (s : Bare service) (op : Operation) : Prop :=
  (∃ head, s.phase = .body head) ∧ service.isEndStream s.inner = false ∧
    match op with
    | .external n => service.isEndStream (service.external n s.inner) = true
    | .pollFrame => Unanswered (service.pollFrame s.inner).1 ∧
        service.isEndStream (service.pollFrame s.inner).2 = true
    | _ => False

variable {service : InnerService M X B ε δ η}

theorem showsEnd_iff (s : Bare service) : Bare.ShowsEnd service s ↔
    (∃ head, s.phase = .body head) ∧ service.isEndStream s.inner = true := by
  obtain ⟨inner, phase⟩ := s
  cases phase with
  | future => simp [Bare.ShowsEnd, Bare.step]
  | body head => simp [Bare.ShowsEnd, Bare.step]
  | gone => simp [Bare.ShowsEnd, Bare.step]

/-- What a poll of the inner future leads to. A response makes a terminal event where
its body has ended. -/
theorem pollFuture_cases (inner : service.State) :
    (Bare.step service ⟨inner, .future⟩ .pollFuture).2.phase = .gone ∨
      (Bare.step service ⟨inner, .future⟩ .pollFuture).2.phase = .future ∧
        terminalEvent (⟨inner, .future⟩ : Bare service) .pollFuture = none ∨
      ∃ head, (Bare.step service ⟨inner, .future⟩ .pollFuture).2.phase = .body head ∧
        terminalEvent (⟨inner, .future⟩ : Bare service) .pollFuture =
          if service.isEndStream (Bare.step service ⟨inner, .future⟩ .pollFuture).2.inner then
            some (.endedAtOnce head)
          else none := by
  obtain ⟨⟨polled, inner₁⟩, h⟩ : ∃ answered, service.pollFuture inner = answered := ⟨_, rfl⟩
  cases polled with
  | error panic => simp [Bare.step, h]
  | ok polled =>
    cases polled with
    | pending => simp [Bare.step, terminalEvent, h]
    | ready answer =>
      cases answer with
      | error error => simp [Bare.step, h]
      | ok head => simp [Bare.step, terminalEvent, h]

/-- What a poll of the inner body leads to. -/
theorem pollFrame_cases (inner : service.State) (head : Response M X) :
    (Bare.step service ⟨inner, .body head⟩ .pollFrame).2 =
        ⟨(service.pollFrame inner).2, .body head⟩ ∧
      (Unanswered (service.pollFrame inner).1 ∧
          terminalEvent (⟨inner, .body head⟩ : Bare service) .pollFrame = none ∨
        ∃ answer, (service.pollFrame inner).1 = .ok (.ready answer) ∧
          terminalEvent (⟨inner, .body head⟩ : Bare service) .pollFrame =
            frameEvent head (.ready answer) (service.isEndStream (service.pollFrame inner).2)) := by
  obtain ⟨⟨polled, inner₁⟩, h⟩ : ∃ answered, service.pollFrame inner = answered := ⟨_, rfl⟩
  cases polled with
  | error panic => simp [Bare.step, terminalEvent, Unanswered, h]
  | ok polled =>
    cases polled with
    | pending => simp [Bare.step, terminalEvent, frameEvent, Unanswered, h]
    | ready answer => simp [Bare.step, terminalEvent, Unanswered, h]

/-- An answered poll makes a terminal event where the body has ended after it. -/
theorem frameEvent_of_ended (head : Response M X) (answer : Option (Except η δ)) :
    ∃ event, frameEvent head (.ready answer) true = some event ∧
      (event.outcome = .completed ∨ event = .bodyFailed head) := by
  rcases answer with _ | _ | _
  · exact ⟨_, rfl, Or.inl rfl⟩
  · exact ⟨_, rfl, Or.inr rfl⟩
  · exact ⟨_, rfl, Or.inl rfl⟩

theorem outcome_of_frameEvent {head : Response M X} {answer : Option (Except η δ)} {ended : Bool}
    {event : TerminalEvent M X} (h : frameEvent head (.ready answer) ended = some event) :
    event.outcome = .completed ∨ event = .bodyFailed head := by
  cases ended with
  | true =>
    obtain ⟨event', hevent', hout⟩ := frameEvent_of_ended head answer
    cases h.symm.trans hevent'
    exact hout
  | false =>
    rcases answer with _ | _ | _
    · cases h
      exact Or.inl rfl
    · cases h
      exact Or.inr rfl
    · cases h

/-- **Nothing else makes an end visible.**  A step that makes no terminal event and
does not end the body unseen leaves the end invisible. -/
theorem not_showsEnd_step {s : Bare service} {op : Operation}
    (hs : ¬ Bare.ShowsEnd service s) (hevent : terminalEvent s op = none)
    (hunseen : ¬ EndsUnseen service s op) : ¬ Bare.ShowsEnd service (s.step service op).2 := by
  obtain ⟨inner, phase⟩ := s
  rw [showsEnd_iff] at hs ⊢
  intro ⟨⟨head, hphase⟩, hended⟩
  cases phase with
  | gone => cases op <;> cases hphase
  | future =>
    cases op with
    | pollFuture =>
      rcases pollFuture_cases inner with h | ⟨h, -⟩ | ⟨head', h, hmade⟩
      · cases hphase.symm.trans h
      · cases hphase.symm.trans h
      · rw [hmade, if_pos hended] at hevent
        cases hevent
    | dropFuture => cases hevent
    | _ => cases hphase
  | body head' =>
    have hnot : service.isEndStream inner = false := by simpa using hs
    cases op with
    | pollFrame =>
      obtain ⟨hnext, ⟨hpolled, -⟩ | ⟨answer, -, hmade⟩⟩ := pollFrame_cases inner head'
      · rw [hnext] at hended
        exact hunseen ⟨⟨head', rfl⟩, hnot, hpolled, hended⟩
      · rw [hnext] at hended
        obtain ⟨event, hsome, -⟩ := frameEvent_of_ended head' answer
        rw [hmade, hended, hsome] at hevent
        cases hevent
    | external n => exact hunseen ⟨⟨head', rfl⟩, hnot, hended⟩
    | dropBody => cases hevent
    | _ => exact absurd (hnot.symm.trans hended) (by decide)

/-- An unseen end is visible at once, and makes no terminal event. -/
theorem EndsUnseen.step {s : Bare service} {op : Operation} (h : EndsUnseen service s op) :
    terminalEvent s op = none ∧ Bare.ShowsEnd service (s.step service op).2 := by
  obtain ⟨inner, phase⟩ := s
  obtain ⟨⟨head, rfl⟩, -, hends⟩ := h
  cases op with
  | external n => exact ⟨rfl, (showsEnd_iff _).mpr ⟨⟨head, rfl⟩, hends⟩⟩
  | pollFrame =>
    obtain ⟨hpolled, hended⟩ := hends
    obtain ⟨hnext, ⟨-, hnone⟩ | ⟨answer, hanswer, -⟩⟩ := pollFrame_cases inner head
    · rw [hnext]
      exact ⟨hnone, (showsEnd_iff _).mpr ⟨⟨head, rfl⟩, hended⟩⟩
    · exact absurd hanswer (hpolled answer)
  | _ => exact hends.elim

theorem phase_body_step {s : Bare service} (hs : ∃ head, s.phase = .body head) {op : Operation}
    (hevent : terminalEvent s op = none) : ∃ head, (s.step service op).2.phase = .body head := by
  obtain ⟨inner, phase⟩ := s
  obtain ⟨head, rfl⟩ := hs
  cases op with
  | pollFrame =>
    rw [(pollFrame_cases inner head).1]
    exact ⟨head, rfl⟩
  | dropBody => cases hevent
  | _ => exact ⟨head, rfl⟩

/-- An operation of the run has ended the body unseen, and the body has been at its end
ever since. -/
def EndedUnseen (service : InnerService M X B ε δ η) (s : Bare service) (ops : List Operation) :
    Prop :=
  ∃ before op since, ops = before ++ op :: since ∧
    EndsUnseen service ((bareMachine service).run s before) op ∧
    ∀ meanwhile, meanwhile <+: since →
      service.isEndStream ((bareMachine service).run s (before ++ op :: meanwhile)).inner = true

theorem EndedUnseen.concat {s : Bare service} {ops : List Operation}
    (h : EndedUnseen service s ops) {op : Operation}
    (hended : service.isEndStream ((bareMachine service).run s (ops ++ [op])).inner = true) :
    EndedUnseen service s (ops ++ [op]) := by
  obtain ⟨before, first, since, rfl, hunseen, hsince⟩ := h
  refine ⟨before, first, since ++ [op], by simp, hunseen, fun meanwhile hmeanwhile => ?_⟩
  rcases List.prefix_concat_iff.mp hmeanwhile with rfl | hmeanwhile
  · rw [← List.cons_append, ← List.append_assoc]
    exact hended
  · exact hsince meanwhile hmeanwhile

/-- Where no event has come, an end that is visible has gone unseen. -/
theorem endedUnseen_of_showsEnd {s : Bare service} (hs : ¬ Bare.ShowsEnd service s)
    {ops : List Operation} (hnone : (bareMachine service).firstEvent terminalEvent s ops = none)
    (hshows : Bare.ShowsEnd service ((bareMachine service).run s ops)) :
    EndedUnseen service s ops := by
  induction ops using List.reverseRecOn with
  | nil => exact absurd hshows hs
  | append_singleton before op ih =>
    have hfirst := Machine.firstEvent_append (m := bareMachine service) terminalEvent s before [op]
    have hrun := Machine.run_append (m := bareMachine service) s before [op]
    obtain ⟨hbefore, hlast⟩ := Option.or_eq_none_iff.mp (hfirst.symm.trans hnone)
    have hevent := (Option.or_eq_none_iff.mp hlast).1
    have hended := ((showsEnd_iff _).mp hshows).2
    by_cases hearlier : Bare.ShowsEnd service ((bareMachine service).run s before)
    · exact (ih hbefore hearlier).concat hended
    · have hunseen : EndsUnseen service ((bareMachine service).run s before) op := by
        by_contra hseen
        rw [hrun] at hshows
        exact not_showsEnd_step hearlier hevent hseen hshows
      refine ⟨before, op, [], rfl, hunseen, fun meanwhile hmeanwhile => ?_⟩
      rw [List.prefix_nil.mp hmeanwhile]
      exact hended

/-- An unseen end that stands is visible. -/
theorem EndedUnseen.showsEnd {s : Bare service} {ops : List Operation}
    (h : EndedUnseen service s ops)
    (hnone : (bareMachine service).firstEvent terminalEvent s ops = none) :
    Bare.ShowsEnd service ((bareMachine service).run s ops) := by
  obtain ⟨before, op, since, rfl, hunseen, hsince⟩ := h
  refine (showsEnd_iff _).mpr ⟨?_, hsince since (List.prefix_refl _)⟩
  have hfirst := Machine.firstEvent_append (m := bareMachine service) terminalEvent s before
    (op :: since)
  obtain ⟨-, hafter⟩ := Option.or_eq_none_iff.mp (hfirst.symm.trans hnone)
  have hrun := Machine.run_append (m := bareMachine service) s before (op :: since)
  rw [hrun]
  exact Machine.run_of_firstEvent_none (m := bareMachine service)
    (P := fun s => ∃ head, Bare.phase s = .body head) (G := fun _ _ => True) terminalEvent
    (fun _ _ hbody hevent _ => phase_body_step hbody hevent)
    ((showsEnd_iff _).mp hunseen.step.2).1 since (fun _ _ _ _ _ => trivial)
    (Option.or_eq_none_iff.mp hafter).2

/-- **What is visible between terminal events.**  Up to the first of them the consumer can
see an end where one has gone unseen and stands. -/
theorem showsEnd_iff_endedUnseen {s : Bare service} (hs : ¬ Bare.ShowsEnd service s)
    {ops : List Operation} (hnone : (bareMachine service).firstEvent terminalEvent s ops = none) :
    Bare.ShowsEnd service ((bareMachine service).run s ops) ↔ EndedUnseen service s ops :=
  ⟨endedUnseen_of_showsEnd hs hnone, fun h => h.showsEnd hnone⟩

/-! ## Ends after a terminal event -/

/-- A terminal event leaves the exchange gone, or it is an end or an error of the
body. -/
theorem phase_of_terminalEvent {s : Bare service} {op : Operation} {event : TerminalEvent M X}
    (h : terminalEvent s op = some event) : (s.step service op).2.phase = .gone ∨
      event.outcome = .completed ∨ ∃ head, event = .bodyFailed head := by
  obtain ⟨inner, phase⟩ := s
  cases phase with
  | gone => cases op <;> cases h
  | future =>
    cases op with
    | pollFuture =>
      rcases pollFuture_cases inner with hgone | ⟨-, hnone⟩ | ⟨head, -, hmade⟩
      · exact Or.inl hgone
      · cases hnone.symm.trans h
      · rw [hmade] at h
        split at h
        · cases h
          exact Or.inr (Or.inl rfl)
        · cases h
    | dropFuture => exact Or.inl rfl
    | _ => cases h
  | body head =>
    cases op with
    | pollFrame =>
      obtain ⟨-, ⟨-, hnone⟩ | ⟨answer, -, hmade⟩⟩ := pollFrame_cases inner head
      · cases hnone.symm.trans h
      · exact Or.inr ((outcome_of_frameEvent (hmade.symm.trans h)).imp_right fun heq => ⟨head, heq⟩)
    | dropBody => exact Or.inl rfl
    | _ => cases h

theorem phase_gone_step {s : Bare service} (h : s.phase = .gone) (op : Operation) :
    (s.step service op).2.phase = .gone := by
  obtain ⟨inner, phase⟩ := s
  cases h
  cases op <;> rfl

/-- While a body is there, what has been reported is its end or its error. -/
theorem event_of_showsEnd {s : Bare service} {ops : List Operation} {event : TerminalEvent M X}
    (hfirst : (bareMachine service).firstEvent terminalEvent s ops = some event)
    (hshows : Bare.ShowsEnd service ((bareMachine service).run s ops)) :
    event.outcome = .completed ∨ ∃ head, event = .bodyFailed head := by
  have hafter := Machine.run_of_firstEvent_some (m := bareMachine service)
    (P := fun event s => Bare.phase s = .gone ∨ event.outcome = .completed ∨
      ∃ head, event = .bodyFailed head) terminalEvent
    (fun _ _ _ => phase_of_terminalEvent)
    (fun _ op _ => Or.imp_left fun hgone => phase_gone_step hgone op) hfirst
  refine hafter.resolve_left fun hgone => ?_
  obtain ⟨⟨head, hbody⟩, -⟩ := (showsEnd_iff _).mp hshows
  cases hgone.symm.trans hbody

/-! ## Visible ends of an exchange -/

section

variable [Headers M V]

/-- The exchange shows its consumer that the body has ended. -/
def Exchange.ShowsEnd (platform : Platform) (config : ObservabilityConfig)
    (s : Exchange service) : Prop :=
  (s.step platform config service .isEndStream).1 = .endStream true

/-- After the run of `before` the terminal record of the exchange is out. It reports a
completed response, or the error that the consumer got in a frame before, and what is done
from then on, a drop of the body too, adds nothing to it. -/
def EndReported (platform : Platform) (config : ObservabilityConfig) (world : World)
    (exchange : Exchange service) (before after : List Operation) : Prop :=
  let shown : Exchange service := (exchangeMachine platform config service).run exchange before
  ∃ (event : TerminalEvent M X) (emitted : Emitted) (record : AccessRecord) (level : Level)
    (serialized : String),
    (bareMachine service).firstEvent terminalEvent (.ofExchange exchange) before = some event ∧
    shown.world.emitted = world.emitted ++ [emitted] ∧
    emitted.event = accessEvent level serialized ∧
    platform.serde.toString record.toValue = some serialized ∧
    (record.terminalReason = none ∨
      record.terminalReason = some "body_error" ∧ ∃ head, event = .bodyFailed head) ∧
    ((exchangeMachine platform config service).run exchange (before ++ after)).world.emitted =
      shown.world.emitted

variable {platform : Platform} {config : ObservabilityConfig}

omit [Headers M V] in
theorem TerminalEvent.outcome_eq_completed (event : TerminalEvent M X) :
    event.outcome = .completed ↔
      ∃ head, event = .endedAtOnce head ∨ event = .endOfStream head ∨
        event = .endedWithFrame head := by
  cases event <;> simp [outcome]

omit [Headers M V] in
theorem TerminalEvent.Classifies.of_end {event : TerminalEvent M X} {record : AccessRecord}
    {level : Level} (h : event.Classifies record level)
    (hevent : event.outcome = .completed ∨ ∃ head, event = .bodyFailed head) :
    record.terminalReason = none ∨
      record.terminalReason = some "body_error" ∧ ∃ head, event = .bodyFailed head := by
  rcases hevent with hout | ⟨head, rfl⟩
  · exact Or.inl (h.completed.mpr (event.outcome_eq_completed.mp hout))
  · exact Or.inr ⟨h.bodyError.mpr ⟨head, rfl⟩, head, rfl⟩

/-- Both sides show an end, or neither does. -/
theorem showsEnd_of_same {s : Bare service} {s' : Exchange service} {requestId : RequestId}
    (h : SameAnswer config requestId (s.step service .isEndStream).1
      (s'.step platform config service .isEndStream).1) :
    s'.ShowsEnd platform config ↔ Bare.ShowsEnd service s := by
  rw [Exchange.ShowsEnd, Bare.ShowsEnd]
  generalize (s.step service .isEndStream).1 = answer at h
  generalize (s'.step platform config service .isEndStream).1 = answer' at h
  cases h <;> simp

/-- A spent exchange emits nothing more. -/
theorem Spent.run_emitted {s : Bare service} {s' : Exchange service} (h : Spent service s s')
    (platform : Platform) (config : ObservabilityConfig) (requestId : RequestId)
    (ops : List Operation) :
    ((exchangeMachine platform config service).run s' ops).world.emitted = s'.world.emitted := by
  induction ops generalizing s s' with
  | nil => rfl
  | cons op ops ih =>
    obtain ⟨-, hemitted, hnext⟩ := h.step platform config requestId op
    exact (ih hnext).trans hemitted

/-- **Where an end is shown.**  After the run of a call, the exchange shows an end
where the inner body does, and the end has been reported unless no terminal event has
come. -/
theorem showsEnd_after_call (platform : Platform) (config : ObservabilityConfig)
    {state : TerminalState} {calls : List Call}
    {exchange : Exchange service} {world : World}
    (harmed : Armed service state calls (fun _ => True) (.ofExchange exchange) exchange)
    (hfresh : state.status = none) (hworld : exchange.world.emitted = world.emitted)
    (before after : List Operation) :
    let s : Bare service := (bareMachine service).run (.ofExchange exchange) before
    let s' : Exchange service := (exchangeMachine platform config service).run exchange before
    (s'.ShowsEnd platform config ↔ Bare.ShowsEnd service s) ∧
      ((bareMachine service).firstEvent terminalEvent (.ofExchange exchange) before = none ∨
        (Bare.ShowsEnd service s → EndReported platform config world exchange before after)) := by
  intro s s'
  rcases harmed.run platform config before (fun op _ => op.within_all) with
    ⟨hnone, -, hafter⟩ | ⟨event, -, hsome, -⟩
  · exact ⟨showsEnd_of_same (hafter.step platform config .isEndStream trivial).1, Or.inl hnone⟩
  · obtain ⟨emitted, serialized, hemitted, hlevel, htext, hspent⟩ :=
      harmed.emits platform config hsome
    have hend := hspent.step platform config state.requestContext.requestId .isEndStream
    have hrest := hspent.run_emitted platform config state.requestContext.requestId after
    refine ⟨showsEnd_of_same hend.1, Or.inr fun hshows => ?_⟩
    refine ⟨event, emitted, _, _, serialized, hsome, hworld ▸ hemitted, hlevel, htext, ?_, ?_⟩
    · exact (event.classifies hfresh calls platform.float).of_end (event_of_showsEnd hsome hshows)
    · have hrun := Machine.run_append (m := exchangeMachine platform config service) exchange
        before after
      exact (congrArg (fun s : Exchange service => s.world.emitted) hrun).trans hrest

/-- **When the ends that are shown have been reported.**  Along every run of an exchange the
terminal record is out before each `is_end_stream` of the consumer that answers with the
end, and nothing comes after it, if and only if up to the first terminal event the consumer
asks nowhere for an end that has gone unseen and stands. -/
theorem isEndStream_completed_iff (platform : Platform) (config : ObservabilityConfig)
    (service : InnerService M X B ε δ η) (inner : service.State) (request : Request M X B)
    (world : World) (exchange : Exchange service)
    (hcall : ObservabilityService.call platform config service inner request world =
      (.ok (), exchange)) (ops : List Operation) :
    (∀ before after, ops = before ++ .isEndStream :: after →
        Exchange.ShowsEnd platform config
          ((exchangeMachine platform config service).run exchange before) →
        EndReported platform config world exchange before (.isEndStream :: after)) ↔
      ∀ before after, ops = before ++ .isEndStream :: after →
        (bareMachine service).firstEvent terminalEvent (.ofExchange exchange) before = none →
        ¬ EndedUnseen service (.ofExchange exchange) before := by
  obtain ⟨request', state, hprepared, harmed⟩ :=
    armed_of_call hcall (fun _ => True) trivial
  have hafter := showsEnd_after_call platform config harmed hprepared.fresh hprepared.emitted
  have hstart : ¬ Bare.ShowsEnd service (.ofExchange exchange) := by
    rw [showsEnd_iff]
    rintro ⟨⟨head, hphase⟩, -⟩
    cases hphase
  constructor
  · intro hreported before after hops hnone hunseen
    have hshown := (hafter before (.isEndStream :: after)).1.mpr (hunseen.showsEnd hnone)
    obtain ⟨event, _, _, _, _, hsome, -⟩ := hreported before after hops hshown
    cases hnone.symm.trans hsome
  · intro hunseen before after hops hshows
    obtain ⟨hsame, hnone | hreported⟩ := hafter before (.isEndStream :: after)
    · have hvisible := hsame.mp hshows
      exact absurd ((showsEnd_iff_endedUnseen hstart hnone).mp hvisible)
        (hunseen before after hops hnone)
    · exact hreported (hsame.mp hshows)

end

/-! ### A body that ends outside -/

/-- A body fed from outside: it gives one frame, and ends once its feed is closed. -/
def fedService : InnerService HeaderList Unit Unit String String String where
  State := Nat
  call fed _ := (.ok (), fed)
  pollFuture fed := (.ok (.ready (.ok greetingHead)), fed)
  dropFuture fed := (.ok (), fed)
  pollFrame fed :=
    if fed = 0 then (.ok (.ready (some (.ok "hello"))), 1)
    else if fed = 1 then (.ok .pending, 1)
    else (.ok (.ready none), fed)
  isEndStream fed := fed = 2
  sizeHint _ := ⟨0, none⟩
  dropBody fed := (.ok (), fed)
  external _ fed := if fed = 1 then 2 else fed

/-- The feed is closed between two polls, and the consumer polls once more before it asks. -/
def fedReads : List Operation := [.pollFuture, .pollFrame, .external 0, .pollFrame]

theorem isEndStream_completed_fed :
    ∃ exchange, ObservabilityService.call .reference (.default .reference) fedService
        (0 : Nat) greetingRequest .initial = (.ok (), exchange) ∧
      ∀ before after, fedReads ++ [.isEndStream, .dropBody] = before ++ .isEndStream :: after →
        Exchange.ShowsEnd .reference (.default .reference)
          ((exchangeMachine .reference (.default .reference) fedService).run exchange before) →
        EndReported .reference (.default .reference) .initial exchange before
          (.isEndStream :: after) := by
  obtain ⟨exchange, hcalled, hbare⟩ := exists_call .reference (.default .reference)
    fedService (0 : Nat) (fun _ => rfl) greetingRequest .initial
  refine ⟨exchange, hcalled, ?_⟩
  refine (isEndStream_completed_iff .reference (.default .reference) fedService (0 : Nat)
    greetingRequest .initial exchange hcalled _).mpr fun before after hops hnone => ?_
  obtain ⟨rfl, -⟩ : before = fedReads ∧ after = [.dropBody] := by
    simpa [fedReads, List.cons_eq_append_iff] using hops
  rw [hbare] at hnone
  cases hnone

/-- The feed is closed between two polls: the consumer asks, is shown the end, and nothing
has been reported; dropping the body then reports a dropped response. -/
theorem isEndStream_unreported :
    ∃ exchange, ObservabilityService.call .reference (.default .reference) fedService (0 : Nat)
        greetingRequest .initial = (.ok (), exchange) ∧
      let machine := exchangeMachine .reference (.default .reference) fedService
      let reads : List Operation := [.pollFuture, .pollFrame, .external 0]
      let shown : Exchange fedService := machine.run exchange (reads ++ [.isEndStream])
      let final : Exchange fedService := machine.run exchange (reads ++ [.isEndStream, .dropBody])
      (machine.answers exchange (reads ++ [.isEndStream]))[3]? = some (.endStream true) ∧
      shown.world.emitted = [] ∧
      ∃ emitted record serialized, final.world.emitted = [emitted] ∧
        emitted.event = accessEvent .error serialized ∧
        Platform.reference.serde.toString record.toValue = some serialized ∧
        AccessRecord.terminalReason record = some "response_dropped" := by
  obtain ⟨exchange, hcalled, hbare⟩ := exists_call .reference (.default .reference)
    fedService (0 : Nat) (fun _ => rfl) greetingRequest .initial
  obtain ⟨request', state, hprepared, harmed⟩ := armed_of_call hcalled (fun _ => True) trivial
  rw [hbare] at harmed
  refine ⟨exchange, hcalled, ?_⟩
  intro machine reads shown final
  have hreads := harmed.run .reference (.default .reference) reads (fun op _ => op.within_all)
  have hshown := harmed.run .reference (.default .reference) (reads ++ [.isEndStream])
    (fun op _ => op.within_all)
  rcases hreads with ⟨-, -, hasked⟩ | ⟨event, -, hsome, -⟩
  · rcases hshown with ⟨-, hemitted, hafter⟩ | ⟨event, -, hsome, -⟩
    · have hquiet : shown.world.emitted = [] := hemitted.trans hprepared.emitted
      have hend := showsEnd_of_same (hasked.step .reference (.default .reference) .isEndStream
        trivial).1
      have hdrop : (bareMachine fedService).firstEvent terminalEvent
          (⟨(2 : Nat), .body greetingHead⟩ : Bare fedService) [.dropBody] =
            some (.bodyDropped greetingHead) := rfl
      obtain ⟨emitted, serialized, hdropped, hlevel, htext, -⟩ :=
        hafter.emits .reference (.default .reference) hdrop
      refine ⟨congrArg some (hend.mpr rfl), hquiet, emitted, _, serialized, ?_, hlevel, htext, rfl⟩
      exact hdropped.trans (by rw [hquiet]; rfl)
    · cases hsome
  · cases hsome

/-! ## Bodies dropped without a poll -/

/-- An operation that neither polls the body nor drops it. -/
def Operation.LeavesBody : Operation → Prop
  | .pollFrame | .dropBody => False
  | _ => True

theorem leavesBody_step {s : Bare service} {head : Response M X} (hs : s.phase = .body head)
    {op : Operation} (hop : op.LeavesBody) :
    (s.step service op).2.phase = .body head ∧ terminalEvent s op = none := by
  obtain ⟨inner, phase⟩ := s
  cases hs
  cases op with
  | pollFrame => exact hop.elim
  | dropBody => exact hop.elim
  | _ => exact ⟨rfl, rfl⟩

theorem leavesBody_run {s : Bare service} {head : Response M X} (hs : s.phase = .body head)
    {reads : List Operation} (hreads : ∀ op ∈ reads, op.LeavesBody) :
    Bare.phase ((bareMachine service).run s reads) = .body head ∧
      (bareMachine service).firstEvent terminalEvent s reads = none := by
  induction reads generalizing s with
  | nil => exact ⟨hs, rfl⟩
  | cons op reads ih =>
    obtain ⟨hphase, hevent⟩ := leavesBody_step hs (hreads op List.mem_cons_self)
    obtain ⟨hlast, hrest⟩ := ih hphase fun op' h => hreads op' (List.mem_cons_of_mem op h)
    exact ⟨hlast, Option.or_eq_none_iff.mpr ⟨hevent, hrest⟩⟩

theorem terminalEvent_dropBody {s : Bare service} {head : Response M X}
    (hs : s.phase = .body head) : terminalEvent s .dropBody = some (.bodyDropped head) := by
  simp [terminalEvent, hs]

theorem phase_ne_future_step {s : Bare service} (h : s.phase ≠ .future) (op : Operation) :
    (s.step service op).2.phase ≠ .future := by
  obtain ⟨inner, phase⟩ := s
  cases phase with
  | future => exact absurd rfl h
  | gone => cases op <;> exact h
  | body head =>
    cases op with
    | pollFrame =>
      rw [(pollFrame_cases inner head).1]
      exact h
    | dropBody => exact nofun
    | _ => exact h

/-- While the inner future has not answered there is no terminal event. -/
theorem firstEvent_of_future {s : Bare service} {ops : List Operation}
    (h : Bare.phase ((bareMachine service).run s ops) = .future) :
    (bareMachine service).firstEvent terminalEvent s ops = none := by
  have hmade : ∀ (s : Bare service) op event, terminalEvent s op = some event →
      (s.step service op).2.phase ≠ .future := by
    rintro ⟨inner, phase⟩ op event hevent hfuture
    cases phase with
    | gone => cases op <;> cases hevent
    | body head => exact phase_ne_future_step (s := ⟨inner, .body head⟩) nofun op hfuture
    | future =>
      cases op with
      | pollFuture =>
        rcases pollFuture_cases inner with hgone | ⟨-, hnone⟩ | ⟨head, hbody, -⟩
        · cases hgone.symm.trans hfuture
        · cases hnone.symm.trans hevent
        · cases hbody.symm.trans hfuture
      | dropFuture => cases hfuture
      | _ => cases hevent
  cases hfirst : (bareMachine service).firstEvent terminalEvent s ops with
  | none => rfl
  | some event =>
    exact absurd h (Machine.run_of_firstEvent_some (m := bareMachine service)
      (P := fun _ s => Bare.phase s ≠ .future) terminalEvent hmade
      (fun _ op _ h => phase_ne_future_step h op) hfirst)

/-- The first terminal event of a body that is dropped without a poll: its end where it
had ended when it was wrapped, the drop otherwise. -/
theorem firstEvent_unpolled {s : Bare service} {before reads : List Operation}
    {inner inner' : service.State} {head : Response M X}
    (hbefore : (bareMachine service).run s before = (⟨inner, .future⟩ : Bare service))
    (hanswer : service.pollFuture inner = (.ok (.ready (.ok head)), inner'))
    (hreads : ∀ op ∈ reads, op.LeavesBody) :
    (bareMachine service).firstEvent terminalEvent s
        (before ++ .pollFuture :: (reads ++ [.dropBody])) =
      some (if service.isEndStream inner' then .endedAtOnce head else .bodyDropped head) := by
  have hnone : (bareMachine service).firstEvent terminalEvent s before = none :=
    firstEvent_of_future (by rw [hbefore])
  have hstep : (Bare.step service ⟨inner, .future⟩ .pollFuture).2 = ⟨inner', .body head⟩ := by
    simp [Bare.step, hanswer]
  have hmade : terminalEvent (⟨inner, .future⟩ : Bare service) .pollFuture =
      if service.isEndStream inner' then some (.endedAtOnce head) else none := by
    simp [terminalEvent, hanswer]
  obtain ⟨hphase, hquiet⟩ := leavesBody_run (s := (⟨inner', .body head⟩ : Bare service)) rfl hreads
  have hdropped : (bareMachine service).firstEvent terminalEvent
      (⟨inner', .body head⟩ : Bare service) (reads ++ [.dropBody]) = some (.bodyDropped head) := by
    refine (Machine.firstEvent_append (m := bareMachine service) _ _ reads _).trans ?_
    rw [hquiet, Option.none_or]
    exact Option.or_eq_some_iff.mpr (Or.inl (terminalEvent_dropBody hphase))
  calc (bareMachine service).firstEvent terminalEvent s
        (before ++ .pollFuture :: (reads ++ [.dropBody]))
      = (bareMachine service).firstEvent terminalEvent (⟨inner, .future⟩ : Bare service)
          (.pollFuture :: (reads ++ [.dropBody])) := by
        refine (Machine.firstEvent_append (m := bareMachine service) _ _ before _).trans ?_
        rw [hnone, Option.none_or, hbefore]
    _ = (if service.isEndStream inner' then some (.endedAtOnce head) else none).or
          (some (.bodyDropped head)) := congrArg₂ Option.or hmade (hstep ▸ hdropped)
    _ = some (if service.isEndStream inner' then .endedAtOnce head else .bodyDropped head) := by
        split <;> rfl

/-- **A body that is dropped without a poll.**  The one record has the method of the
request, whichever it is, and the status of the response. It reports a completed
response at the mapped level where the body had ended when it was wrapped, and a
dropped one where it had not. -/
theorem dropBody_unpolled [Headers M V] (platform : Platform) (config : ObservabilityConfig)
    (service : InnerService M X B ε δ η) (inner : service.State) (request : Request M X B)
    (world : World) (exchange : Exchange service)
    (hcall : ObservabilityService.call platform config service inner request world =
      (.ok (), exchange)) (before reads : List Operation) (inner₁ inner₂ : service.State)
    (head : Response M X)
    (hbefore : (bareMachine service).run (.ofExchange exchange) before =
      (⟨inner₁, .future⟩ : Bare service))
    (hanswer : service.pollFuture inner₁ = (.ok (.ready (.ok head)), inner₂))
    (hreads : ∀ op ∈ reads, op.LeavesBody) :
    let final : Exchange service := (exchangeMachine platform config service).run exchange
      (before ++ .pollFuture :: (reads ++ [.dropBody]))
    ∃ (emitted : Emitted) (record : AccessRecord) (level : Level) (serialized : String),
      final.world.emitted = world.emitted ++ [emitted] ∧
      emitted.event = accessEvent level serialized ∧
      platform.serde.toString record.toValue = some serialized ∧
      record.method = request.method ∧ record.status = some head.status.asU16 ∧
      (service.isEndStream inner₂ = true → record.terminalReason = none ∧
        level = (config.levelMapper exchange.world.calls head.status).toOption.getD
          (defaultLevel head.status)) ∧
      (service.isEndStream inner₂ = false →
        record.terminalReason = some "response_dropped" ∧ level = .error) := by
  obtain ⟨request', state, hprepared, harmed⟩ := armed_of_call hcall (fun _ => True) trivial
  have hfirst := firstEvent_unpolled hbefore hanswer hreads
  obtain ⟨emitted, serialized, hemitted, hlevel, htext, -⟩ := harmed.emits platform config hfirst
  have hmethod : state.metadata.method = request.method := by
    rw [hprepared.captured]
    rfl
  refine ⟨emitted, _, _, serialized, hemitted.trans (by rw [hprepared.emitted]), hlevel, htext, ?_⟩
  cases service.isEndStream inner₂ with
  | true =>
    refine ⟨hmethod, rfl, fun _ => ⟨rfl, ?_⟩, nofun⟩
    exact congrArg (fun config : ObservabilityConfig =>
      (config.levelMapper exchange.world.calls head.status).toOption.getD
        (defaultLevel head.status)) hprepared.configured
  | false => exact ⟨hmethod, rfl, nofun, fun _ => ⟨rfl, rfl⟩⟩

def headRequest : Request HeaderList Unit Unit := { greetingRequest with method := "HEAD" }

theorem dropBody_unpolled_head :
    ∃ exchange, ObservabilityService.call .reference (.default .reference) greetingService
        (1 : Nat) headRequest .initial = (.ok (), exchange) ∧
      let final : Exchange greetingService :=
        (exchangeMachine .reference (.default .reference) greetingService).run exchange
          [.pollFuture, .sizeHint, .dropBody]
      ∃ (emitted : Emitted) (record : AccessRecord) (level : Level) (serialized : String),
        final.world.emitted = [emitted] ∧ emitted.event = accessEvent level serialized ∧
        Platform.reference.serde.toString record.toValue = some serialized ∧
        record.method = "HEAD" ∧ record.terminalReason = none := by
  obtain ⟨exchange, hcalled, hbare⟩ := exists_call .reference (.default .reference)
    greetingService (1 : Nat) (fun _ => rfl) headRequest .initial
  obtain ⟨emitted, record, level, serialized, hemitted, hlevel, htext, hmethod, -, hended, -⟩ :=
    dropBody_unpolled .reference (.default .reference) greetingService (1 : Nat) headRequest
      .initial exchange hcalled [] [.sizeHint] (1 : Nat) (1 : Nat) greetingHead hbare rfl
      (by simp [Operation.LeavesBody])
  exact ⟨exchange, hcalled, emitted, record, level, serialized, hemitted, hlevel, htext, hmethod,
    (hended rfl).1⟩

/-- The greeting to a `HEAD` request: its body is dropped without a poll, after its size
hint is read, and the exchange is reported as a dropped response. -/
theorem dropBody_greeting_head :
    ∃ exchange, ObservabilityService.call .reference (.default .reference) greetingService
        (0 : Nat) headRequest .initial = (.ok (), exchange) ∧
      let final : Exchange greetingService :=
        (exchangeMachine .reference (.default .reference) greetingService).run exchange
          [.pollFuture, .sizeHint, .dropBody]
      ∃ (emitted : Emitted) (record : AccessRecord) (serialized : String),
        final.world.emitted = [emitted] ∧ emitted.event = accessEvent .error serialized ∧
        Platform.reference.serde.toString record.toValue = some serialized ∧
        record.method = "HEAD" ∧ record.status = some 200 ∧
        record.terminalReason = some "response_dropped" := by
  obtain ⟨exchange, hcalled, hbare⟩ := exists_call .reference (.default .reference)
    greetingService (0 : Nat) (fun _ => rfl) headRequest .initial
  obtain ⟨request', state, hprepared, harmed⟩ := armed_of_call hcalled (fun _ => True) trivial
  have hbefore : (bareMachine greetingService).run (.ofExchange exchange) [] =
    (⟨(0 : Nat), .future⟩ : Bare greetingService) := hbare
  have hreads : ∀ op ∈ ([.sizeHint] : List Operation), op.LeavesBody := by
    simp [Operation.LeavesBody]
  have hfirst := firstEvent_unpolled hbefore rfl hreads
  obtain ⟨emitted, serialized, hemitted, hlevel, htext, -⟩ :=
    harmed.emits .reference (.default .reference) hfirst
  have hmethod : state.metadata.method = "HEAD" := by
    rw [hprepared.captured]
    rfl
  exact ⟨exchange, hcalled, emitted, _, serialized, hemitted.trans (by rw [hprepared.emitted]; rfl),
    hlevel, htext, hmethod, rfl, rfl⟩

end AxumObservability
