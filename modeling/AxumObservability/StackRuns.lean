import AxumObservability.Lifecycle
import AxumObservability.Stacks

/-!
# Runs of stacked layers

Each layer of a stack holds a guard of its own, and each body it hands on wraps the one it got
in a box. Whatever is done with the outermost one passes through all of them: the innermost
layer sees what the service answers first.

* `respondStack_passes`, `respondStack_fails`, `observeStack_emits`, `dropFutures_emits`,
  `dropBodies_emits`: what the layers make of an answer, of a poll and of a drop;
* `StackArmed.step`, `StackSpent.step`: one operation on a stack;
* `stack_emits_once`: every run emits one record for each layer, all of one terminal event.
-/

namespace AxumObservability

open Library.Json Library.Machines Library.Panics Library.Text

variable {M V X B ε δ η : Type}

/-! ## The layers together -/

/-- Poll the bodies of a stack after the inner one has answered. What a layer has observed
leaves it in a box. -/
def observeStack [BodyError η] (platform : Platform) (polled : Poll (Option (Except η δ)))
    (ended : Bool) : List Layer → Effect (Poll (Option (Except η δ)) × List Layer)
  | [] => return (polled, [])
  | layer :: layers => do
    let (polled, layers) ← observeStack platform polled ended layers
    let body ← ObservedBody.observe platform ⟨layer.guard⟩ polled ended
    return (polled.boxed, ⟨layer.config, body.guard⟩ :: layers)

/-- Drop the bodies of a stack: the fields of a body in their order, its guard last. -/
def dropBodies (platform : Platform) : List Layer → Effect Unit
  | [] => return ()
  | layer :: layers => do
    dropBodies platform layers
    let _ ← layer.guard.drop platform

/-- Drop the futures of a stack, each one inside its span. -/
def dropFutures (platform : Platform) (guardFirst : Bool) : List Layer → Effect Unit
  | [] => return ()
  | layer :: layers => inSpan layer.guard.span do
    if guardFirst then
      let _ ← layer.guard.drop platform
      dropFutures platform guardFirst layers
    else
      dropFutures platform guardFirst layers
      let _ ← layer.guard.drop platform

/-- The layers with the bodies that have left them. -/
def bodiesOf (layers : List Layer) (left : List (Except ε (Response M X × ObservedBody))) :
    List Layer :=
  List.zipWith (fun layer answer =>
    match answer with
    | .ok (_, body) => ⟨layer.config, body.guard⟩
    | .error _ => layer) layers left

/-- Where a stack stands. A future may have been polled before. -/
inductive StackStage where
  | future (polled : Bool) (layers : List Layer)
  | body (layers : List Layer)
  | gone

/-- An exchange through the layers of a stack. -/
structure Stack (service : InnerService M X B ε δ η) where
  inner : service.State
  stage : StackStage
  world : World

/-- Run code of the package for all layers. -/
def Stack.settle {service : InnerService M X B ε δ η} {α : Type} (inner : service.State)
    (world : World) (effect : Effect α) (next : α → Answer M X ε δ η × StackStage) :
    Answer M X ε δ η × Stack service :=
  match effect.run world with
  | .ok (a, world) => ((next a).1, ⟨inner, (next a).2, world⟩)
  | .error panic => (.panicked panic, ⟨inner, .gone, world⟩)

/-- What leaves the outermost layer, and how the stack goes on. -/
def leaving (layers : List Layer) :
    Except ε (Response M X) × List (Except ε (Response M X × ObservedBody)) →
      Answer M X ε δ η × StackStage
  | (.ok response, left) => (.future (.ready (.ok response)), .body (bodiesOf layers left))
  | (.error error, _) => (.future (.ready (.error error)), .gone)

section

variable [Headers M V] [BodyError η]

omit [BodyError η] in
/-- A call of the service through the layers of a stack. A guard is made only once the
call inside it has given out a future. -/
def Stack.call (platform : Platform) (configs : List ObservabilityConfig)
    (service : InnerService M X B ε δ η) (inner : service.State) (request : Request M X B)
    (world : World) : Result Unit × Stack service :=
  match (callStack platform configs request).run world with
  | .error panic => (.error panic, ⟨inner, .gone, world⟩)
  | .ok ((request, layers), world) =>
    match service.call inner request with
    | (.error panic, inner) => (.error panic, ⟨inner, .gone, world⟩)
    | (.ok (), inner) => (.ok (), ⟨inner, .future false layers, world⟩)

/-- One operation on a stack. A future that has been polled drops what it holds in the
reverse order, the one it awaits before its guard; which is dropped first of what a future
that was never polled has captured is left open. -/
def Stack.step (platform : Platform) (guardFirst : Bool) (service : InnerService M X B ε δ η)
    (s : Stack service) : Operation → Answer M X ε δ η × Stack service
  | .pollFuture =>
    match s.stage with
    | .future _ layers =>
      match service.pollFuture s.inner with
      | (.error panic, inner) =>
        settle inner s.world (dropFutures platform false layers) fun _ => (.panicked panic, .gone)
      | (.ok .pending, inner) => (.future .pending, { s with inner, stage := .future true layers })
      | (.ok (.ready answer), inner) =>
        settle inner s.world (respondStack platform layers answer (service.isEndStream inner))
          (leaving layers)
    | _ => (.idle, s)
  | .dropFuture =>
    match s.stage with
    | .future polled layers =>
      settle (service.dropFuture s.inner).2 s.world
        (dropFutures platform (!polled && guardFirst) layers) fun _ =>
          (.ofDrop (service.dropFuture s.inner).1, .gone)
    | _ => (.idle, s)
  | .pollFrame =>
    match s.stage with
    | .body layers =>
      match service.pollFrame s.inner with
      | (.error panic, inner) => (.panicked panic, { s with inner := inner })
      | (.ok polled, inner) =>
        settle inner s.world (observeStack platform polled (service.isEndStream inner) layers)
          fun observed => (.frame observed.1, .body observed.2)
    | _ => (.idle, s)
  | .isEndStream =>
    match s.stage with
    | .body _ => (.endStream (service.isEndStream s.inner), s)
    | _ => (.idle, s)
  | .sizeHint =>
    match s.stage with
    | .body _ => (.sizeHint (service.sizeHint s.inner), s)
    | _ => (.idle, s)
  | .dropBody =>
    match s.stage with
    | .body layers =>
      settle (service.dropBody s.inner).2 s.world (dropBodies platform layers) fun _ =>
        (.ofDrop (service.dropBody s.inner).1, .gone)
    | _ => (.idle, s)
  | .external n => (.idle, { s with inner := service.external n s.inner })
  | .enterScope scope => (.idle, { s with world := { s.world with scope := scope } })

/-- A stack as a machine of operations. -/
def stackMachine (platform : Platform) (guardFirst : Bool) (service : InnerService M X B ε δ η) :
    Machine Operation (Answer M X ε δ η) where
  State := Stack service
  step := Stack.step platform guardFirst service

/-- A response head on its way out through the layers. -/
def Through : List TerminalState → Response M X → Response M X → Prop
  | [], head, head' => head' = head
  | state :: states, head, head' => ∃ between, Through states head between ∧
      Delivered state.config state.requestContext.requestId between head'

/-- The answers of a service and of a stack around it: the same, but for the response head and
for the boxes around an error of the body, one for each layer. -/
def PassedAnswer (states : List TerminalState) : Answer M X ε δ η → Answer M X ε δ η → Prop
  | .future (.ready (.ok head)), answer =>
    ∃ head', answer = .future (.ready (.ok head')) ∧ Through states head head'
  | .frame polled, answer => answer = .frame (Poll.boxed^[states.length] polled)
  | answer, answer' => answer' = answer

end

/-! ## What the layers hold and emit -/

/-- A state with the response head, once there is one. -/
def TerminalState.headed (state : TerminalState) : Option (Response M X) → TerminalState
  | some head => state.withHead head
  | none => state

/-- The layers hold the states, with the response head once there is one. -/
def Holding (head : Option (Response M X)) (layers : List Layer) (states : List TerminalState) :
    Prop :=
  List.Forall₂ (fun layer state => layer.config = state.config ∧
    layer.guard.state = some (state.headed head)) layers states

/-- The layers that held the states have spent their guards. -/
def AllSpent (layers : List Layer) (states : List TerminalState) : Prop :=
  List.Forall₂ (fun layer _ => layer.guard.state = none) layers states

/-- The records of one event, for one state after the other. -/
def Records (platform : Platform) (event : TerminalEvent M X) (order : List TerminalState)
    (records : List Emitted) : Prop :=
  List.Forall₂ (fun state emitted =>
    ∃ calls, event.Reported state platform calls (fun _ => True) emitted) order records

/-- The records of one event have been emitted. -/
def Emits (platform : Platform) (event : TerminalEvent M X) (order : List TerminalState)
    (w w' : World) : Prop :=
  ∃ records, w'.emitted = w.emitted ++ records ∧ Records platform event order records

section

variable {platform : Platform} {states order order' : List TerminalState} {state : TerminalState}
  {event : TerminalEvent M X} {w w' w'' : World}

theorem Holding.map_eq {layers : List Layer}
    (h : Holding (none : Option (Response M X)) layers states) :
    layers.map (fun layer => layer.guard.state) = states.map some := by
  induction h with
  | nil => rfl
  | cons hlayer _ ih => rw [List.map_cons, List.map_cons, ih, hlayer.2]; rfl

theorem TerminalState.atEvent_headed (state : TerminalState) (event : TerminalEvent M X) :
    state.atEvent event = state.headed event.head? := by
  rw [TerminalState.atEvent]
  cases event.head? <;> rfl

theorem Emits.nil (platform : Platform) (event : TerminalEvent M X) (h : w'.emitted = w.emitted) :
    Emits platform event [] w w' :=
  ⟨[], by rw [h, List.append_nil], .nil⟩

theorem Emits.one {calls : List Call} {emitted : Emitted}
    (hreported : event.Reported state platform calls (fun _ => True) emitted)
    (hemitted : w'.emitted = w.emitted ++ [emitted]) : Emits platform event [state] w w' :=
  ⟨[emitted], hemitted, .cons ⟨calls, hreported⟩ .nil⟩

theorem Emits.trans (h : Emits platform event order w w')
    (h' : Emits platform event order' w' w'') : Emits platform event (order ++ order') w w'' := by
  obtain ⟨records, hrecords, hall⟩ := h
  obtain ⟨records', hrecords', hall'⟩ := h'
  exact ⟨records ++ records', by rw [hrecords', hrecords, List.append_assoc],
    List.rel_append hall hall'⟩

/-- The layers inside first, then the one around them. -/
theorem Emits.outward (h : Emits platform event states.reverse w w')
    (h' : Emits platform event [state] w' w'') :
    Emits platform event (state :: states).reverse w w'' := by
  rw [List.reverse_cons]
  exact h.trans h'

/-! ### One layer -/

theorem drop_emits (platform : Platform) (event : TerminalEvent M X) {guard : TerminalGuard}
    (hguard : guard.state = some (state.atEvent event)) (hevent : event.outcome = .responseDropped)
    (w : World) :
    Returns (guard.drop platform) w fun _ w' => Emits platform event [state] w w' := by
  have hdrop : Returns (guard.drop platform) w fun _ w' => ∃ emitted,
      event.Reported state platform w.calls (fun _ => True) emitted ∧
        w'.emitted = w.emitted ++ [emitted] := drop_of_armed platform event hguard hevent trivial
  refine hdrop.mono fun _ w' h => ?_
  obtain ⟨emitted, hreported, hemitted⟩ := h
  exact .one hreported hemitted

theorem observe_emits (platform : Platform) (head : Response M X) {guard : TerminalGuard}
    (hguard : guard.state = some (state.withHead head)) (polled : Poll (Option (Except η δ)))
    (ended : Bool) (w : World) :
    Returns (ObservedBody.observe platform ⟨guard⟩ polled ended) w fun body w' =>
      (frameEvent head polled ended = none ∧ body.guard.state = some (state.withHead head) ∧
        w' = w) ∨
      ∃ event, frameEvent head polled ended = some event ∧ body.guard.state = none ∧
        Emits platform event [state] w w' := by
  have hobserve : Returns (ObservedBody.observe platform ⟨guard⟩ polled ended) w fun body w' =>
      (frameEvent head polled ended = none ∧ body.guard.state = some (state.withHead head) ∧
        w' = w) ∨
      ∃ event emitted, frameEvent head polled ended = some event ∧
        event.Reported state platform w.calls (fun _ => True) emitted ∧
        w'.emitted = w.emitted ++ [emitted] ∧ body.guard.state = none :=
    observe_of_armed platform head hguard polled ended trivial
  refine hobserve.mono fun body w' h => h.imp_right ?_
  rintro ⟨event, emitted, hevent, hreported, hemitted, hspent⟩
  exact ⟨event, hevent, hspent, .one hreported hemitted⟩

/-! ### All layers -/

/-- **Dropping the bodies** of a stack. -/
theorem dropBodies_emits (platform : Platform) (head : Response M X) {layers : List Layer}
    (h : Holding (some head) layers states) (w : World) :
    Returns (dropBodies platform layers) w fun _ w' =>
      Emits platform (.bodyDropped head) states.reverse w w' := by
  induction h generalizing w with
  | nil => exact Returns.pure (.nil platform _ rfl)
  | @cons layer state layers states hlayer _ ih =>
    refine (ih w).bind fun _ w' hinner => ?_
    refine (drop_emits platform (.bodyDropped head) hlayer.2 rfl w').bind fun _ w'' hdropped => ?_
    exact Returns.pure (hinner.outward hdropped)

/-- **Dropping the futures** of a stack, on unwinding or from outside. -/
theorem dropFutures_emits (platform : Platform) (guardFirst : Bool) (event : TerminalEvent M X)
    (hhead : event.head? = none) (hevent : event.outcome = .responseDropped) {layers : List Layer}
    (h : Holding (none : Option (Response M X)) layers states) (w : World) :
    Returns (dropFutures platform guardFirst layers) w fun _ w' =>
      Emits platform event (if guardFirst then states else states.reverse) w w' := by
  induction h generalizing w with
  | nil => exact Returns.pure (by simpa using Emits.nil platform event rfl)
  | @cons layer state layers states hlayer _ ih =>
    have hguard : layer.guard.state = some (state.atEvent event) := by
      rw [state.atEvent_headed, hhead, hlayer.2]
    have hdrop := drop_emits platform event hguard hevent
    have hlayers : ∀ w, Returns (if guardFirst then do
          let _ ← layer.guard.drop platform
          dropFutures platform guardFirst layers
        else do
          dropFutures platform guardFirst layers
          let _ ← layer.guard.drop platform) w
        fun _ w' => Emits platform event
          (if guardFirst then state :: states else (state :: states).reverse) w w' := by
      intro w
      cases guardFirst with
      | true => exact (hdrop w).bind fun _ w₁ hfirst => (ih w₁).mono fun _ _ => hfirst.trans
      | false =>
        refine (ih w).bind fun _ w₁ hinner => (hdrop w₁).bind fun _ w₂ hlast => ?_
        exact Returns.pure (hinner.outward hlast)
    apply (inSpan_spec _ (hlayers _)).mono
    intro _ w' h
    obtain ⟨w₁, hemits, rfl⟩ := h
    exact hemits

/-- A box hides nothing that counts for a terminal event. -/
theorem frameEvent_boxed [BodyError η] (head : Response M X)
    (polled : Poll (Option (Except η δ))) (ended : Bool) :
    frameEvent head polled.boxed ended = frameEvent head polled ended := by
  match polled with
  | .pending => rfl
  | .ready none => rfl
  | .ready (some (.error _)) => rfl
  | .ready (some (.ok _)) => rfl

theorem frameEvent_iterate_boxed [BodyError η] (head : Response M X)
    (polled : Poll (Option (Except η δ))) (ended : Bool) (n : Nat) :
    frameEvent head (Poll.boxed^[n] polled) ended = frameEvent head polled ended := by
  induction n with
  | zero => rfl
  | succ n ih => rw [Function.iterate_succ_apply', frameEvent_boxed, ih]

/-- **A poll of the bodies** of a stack: a box for each layer, and the records of what the poll
means. -/
theorem observeStack_emits [BodyError η] (platform : Platform) (head : Response M X)
    {layers : List Layer} (h : Holding (some head) layers states)
    (polled : Poll (Option (Except η δ))) (ended : Bool) (w : World) :
    Returns (observeStack platform polled ended layers) w fun observed w' =>
      observed.1 = Poll.boxed^[states.length] polled ∧
      ((frameEvent head polled ended = none ∧ Holding (some head) observed.2 states ∧
          w'.emitted = w.emitted) ∨
        ∃ event, frameEvent head polled ended = some event ∧ AllSpent observed.2 states ∧
          Emits platform event states.reverse w w') := by
  induction h generalizing w with
  | nil =>
    refine Returns.pure ⟨rfl, ?_⟩
    cases hevent : frameEvent head polled ended with
    | none => exact Or.inl ⟨rfl, .nil, rfl⟩
    | some event => exact Or.inr ⟨event, rfl, .nil, .nil platform event rfl⟩
  | @cons layer state layers states hlayer _ ih =>
    refine (ih w).bind fun observed w₁ hinner => ?_
    obtain ⟨passed, layers'⟩ := observed
    obtain ⟨rfl, hinner⟩ := hinner
    have hboxed := frameEvent_iterate_boxed head polled ended states.length
    refine (observe_emits platform head hlayer.2 _ ended w₁).bind fun body w₂ houter =>
      Returns.pure ⟨by rw [List.length_cons, Function.iterate_succ_apply'], ?_⟩
    rw [hboxed] at houter
    rcases hinner with ⟨hnone, hholding, hsame⟩ | ⟨event, hsome, hspent, hemits⟩
    · rcases houter with ⟨-, hguard, rfl⟩ | ⟨event, hsome, -⟩
      · exact Or.inl ⟨hnone, .cons ⟨hlayer.1, hguard⟩ hholding, hsame⟩
      · cases hnone.symm.trans hsome
    · rcases houter with ⟨hnone, -⟩ | ⟨event', hsome', hguard, houter⟩
      · cases hnone.symm.trans hsome
      · cases hsome'.symm.trans hsome
        exact Or.inr ⟨event, hsome, .cons hguard hspent, hemits.outward houter⟩

theorem observeStack_of_spent [BodyError η] (platform : Platform)
    (polled : Poll (Option (Except η δ))) (ended : Bool) {layers : List Layer}
    (h : AllSpent layers states) (w : World) :
    Returns (observeStack platform polled ended layers) w fun observed w' =>
      observed.1 = Poll.boxed^[states.length] polled ∧ AllSpent observed.2 states ∧ w' = w := by
  induction h generalizing w with
  | nil => exact Returns.pure ⟨rfl, .nil, rfl⟩
  | @cons layer state layers states hlayer _ ih =>
    refine (ih w).bind fun observed w₁ hinner => ?_
    obtain ⟨passed, layers'⟩ := observed
    obtain ⟨rfl, hspent, rfl⟩ := hinner
    have hobserve : Returns (ObservedBody.observe platform ⟨layer.guard⟩
        (Poll.boxed^[states.length] polled) ended) w₁ _ :=
      observe_of_spent platform hlayer _ ended w₁
    refine hobserve.bind fun body w₂ houter => ?_
    obtain ⟨hguard, rfl⟩ := houter
    refine Returns.pure ⟨?_, .cons hguard hspent, rfl⟩
    rw [List.length_cons, Function.iterate_succ_apply']

theorem dropBodies_of_spent (platform : Platform) {layers : List Layer}
    (h : AllSpent layers states) (w : World) :
    Returns (dropBodies platform layers) w fun _ w' => w' = w := by
  induction h generalizing w with
  | nil => exact Returns.pure rfl
  | cons hlayer _ ih =>
    refine (ih w).bind fun _ w₁ hinner => ?_
    obtain rfl := hinner
    exact (finish_of_spent platform .responseDropped hlayer w₁).bind fun _ w₂ h => Returns.pure h.2

/-! ## The answer on its way out -/

section

variable [Headers M V]

theorem Through.same {head head' : Response M X} (h : Through states head head') :
    head'.status = head.status ∧ head'.extensions = head.extensions := by
  induction states generalizing head' with
  | nil =>
    obtain rfl := h
    exact ⟨rfl, rfl⟩
  | cons state states ih =>
    obtain ⟨between, hinner, hdelivered⟩ := h
    obtain ⟨hstatus, hextensions⟩ := ih hinner
    exact ⟨hdelivered.status.trans hstatus, hdelivered.extensions.trans hextensions⟩

/-- A layer makes the same of a head that has gone through other layers. -/
theorem Through.withHead {head head' : Response M X} (h : Through states head head')
    (state : TerminalState) : state.withHead head' = state.withHead head := by
  obtain ⟨hstatus, hextensions⟩ := h.same
  rw [TerminalState.withHead, TerminalState.withHead, hstatus, hextensions]

/-- What the layers have made of a response: the head that leaves them, and what they hold
then or have emitted. -/
def Passed (platform : Platform) (layers : List Layer) (states : List TerminalState)
    (head : Response M X) (ended : Bool) (w : World)
    (r : Except ε (Response M X) × List (Except ε (Response M X × ObservedBody))) (w' : World) :
    Prop :=
  ∃ head', r.1 = .ok head' ∧ Through states head head' ∧
    ((ended = false ∧ Holding (some head) (bodiesOf layers r.2) states ∧
        w'.emitted = w.emitted) ∨
      (ended = true ∧ AllSpent (bodiesOf layers r.2) states ∧
        Emits platform (.endedAtOnce head) states.reverse w w'))

/-- **A response on its way out.** -/
theorem respondStack_passes (platform : Platform) {layers : List Layer}
    (h : Holding (none : Option (Response M X)) layers states) (head : Response M X) (ended : Bool)
    (w : World) :
    Returns (respondStack platform layers (.ok head : Except ε (Response M X)) ended) w
      (Passed platform layers states head ended w) := by
  induction h generalizing w with
  | nil =>
    refine Returns.pure ⟨head, rfl, rfl, ?_⟩
    cases ended with
    | false => exact Or.inl ⟨rfl, .nil, rfl⟩
    | true => exact Or.inr ⟨rfl, .nil, .nil platform _ rfl⟩
  | @cons layer state layers states hlayer _ ih =>
    rw [respondStack]
    refine (inSpan_spec (Q := Passed platform (layer :: layers) (state :: states) head ended w)
      _ ?_).mono fun r w' hr => ?_
    · apply (ih _).bind
      intro r w₁ hr
      obtain ⟨answer, left⟩ := r
      obtain ⟨between, rfl, hthrough, hinner⟩ := hr
      have harmed : layer.guard.state = some state := hlayer.2
      apply (respond_spec platform layer.config harmed between ended w₁).bind
      intro answer w₂ ha
      obtain ⟨head', body, rfl, hdelivered, hbody⟩ := ha
      refine Returns.pure ⟨head', rfl, ⟨between, hthrough, hlayer.1 ▸ hdelivered⟩, ?_⟩
      have hhead := hthrough.withHead state
      rcases hinner with ⟨rfl, hholding, hsame⟩ | ⟨rfl, hspent, hemits⟩
      · rcases hbody with ⟨-, hguard, rfl⟩ | ⟨hended, -⟩
        · rw [hhead] at hguard
          exact Or.inl ⟨rfl, .cons ⟨hlayer.1, hguard⟩ hholding, hsame⟩
        · cases hended
      · rcases hbody with ⟨hended, -⟩ | ⟨-, hguard, emitted, hreported, hemitted⟩
        · cases hended
        · rw [hhead] at hreported
          exact Or.inr ⟨rfl, .cons hguard hspent,
            hemits.outward (.one ⟨_, trivial, hreported⟩ hemitted)⟩
    · obtain ⟨w₁, hpassed, rfl⟩ := hr
      exact hpassed

/-- **An error on its way out.** -/
theorem respondStack_fails (platform : Platform) {layers : List Layer}
    (h : Holding (none : Option (Response M X)) layers states) (error : ε) (ended : Bool)
    (w : World) :
    Returns (respondStack platform layers (.error error : Except ε (Response M X)) ended) w
      fun r w' => r.1 = .error error ∧
        Emits platform (.serviceFailed : TerminalEvent M X) states.reverse w w' := by
  induction h generalizing w with
  | nil => exact Returns.pure ⟨rfl, .nil platform _ rfl⟩
  | @cons layer state layers states hlayer _ ih =>
    rw [respondStack]
    refine (inSpan_spec (Q := fun r w' => r.1 = .error error ∧
      Emits platform (.serviceFailed : TerminalEvent M X) (state :: states).reverse w w')
      _ ?_).mono fun r w' hr => ?_
    · apply (ih _).bind
      intro r w₁ hr
      obtain ⟨answer, left⟩ := r
      obtain ⟨rfl, hinner⟩ := hr
      have hrespond : Returns (respond platform layer.config layer.guard
          (.error error : Except ε (Response M X)) ended) w₁ fun answer w' =>
          answer = .error error ∧ ∃ emitted,
            (TerminalEvent.serviceFailed : TerminalEvent M X).Reported state platform w₁.calls
              (fun _ => True) emitted ∧
            w'.emitted = w₁.emitted ++ [emitted] :=
        respond_error_of_armed platform layer.config hlayer.2 error ended trivial
      apply hrespond.bind
      intro answer w₂ ha
      obtain ⟨rfl, emitted, hreported, hemitted⟩ := ha
      exact Returns.pure ⟨rfl, hinner.outward (.one hreported hemitted)⟩
    · obtain ⟨w₁, hfailed, rfl⟩ := hr
      exact hfailed

end

end

/-! ## One operation on a stack -/

section

variable [Headers M V] [BodyError η] {service : InnerService M X B ε δ η}
  {states : List TerminalState} {event : TerminalEvent M X}

/-- Each layer has one record of the event: from the inside out, but for futures that are
dropped from outside. -/
def ReportedByAll (platform : Platform) (states : List TerminalState) (event : TerminalEvent M X)
    (records : List Emitted) : Prop :=
  ∃ order, order.Perm states ∧ (event ≠ .futureDropped → order = states.reverse) ∧
    Records platform event order records

/-- Before the first terminal event: each layer holds the state of its exchange. -/
structure StackArmed (service : InnerService M X B ε δ η) (states : List TerminalState)
    (s : Bare service) (s' : Stack service) : Prop where
  inner : s'.inner = s.inner
  stage : match s.phase, s'.stage with
    | .future, .future _ layers => Holding (none : Option (Response M X)) layers states
    | .body head, .body layers => Holding (some head) layers states
    | _, _ => False

/-- After it: all guards are spent. -/
structure StackSpent (service : InnerService M X B ε δ η) (states : List TerminalState)
    (s : Bare service) (s' : Stack service) : Prop where
  inner : s'.inner = s.inner
  stage : match s.phase, s'.stage with
    | .body _, .body layers => AllSpent layers states
    | .gone, .gone => True
    | _, _ => False

/-- One operation on the service and on the stack around it. -/
def StackAdvances (platform : Platform) (guardFirst : Bool) (service : InnerService M X B ε δ η)
    (states : List TerminalState) (s : Bare service) (s' : Stack service) (op : Operation) : Prop :=
  PassedAnswer states (s.step service op).1 (s'.step platform guardFirst service op).1 ∧
    ((terminalEvent s op = none ∧
        (s'.step platform guardFirst service op).2.world.emitted = s'.world.emitted ∧
        StackArmed service states (s.step service op).2
          (s'.step platform guardFirst service op).2) ∨
      ∃ event records, terminalEvent s op = some event ∧
        ReportedByAll platform states event records ∧
        (s'.step platform guardFirst service op).2.world.emitted = s'.world.emitted ++ records ∧
        StackSpent service states (s.step service op).2 (s'.step platform guardFirst service op).2)

omit [Headers M V] in
theorem Emits.inwards {platform : Platform} {w w' : World}
    (h : Emits platform event states.reverse w w') :
    ∃ records, ReportedByAll platform states event records ∧ w'.emitted = w.emitted ++ records := by
  obtain ⟨records, hemitted, hrecords⟩ := h
  exact ⟨records, ⟨states.reverse, states.reverse_perm, fun _ => rfl, hrecords⟩, hemitted⟩

theorem PassedAnswer.ofDrop (states : List TerminalState) (r : Result Unit) :
    PassedAnswer states (.ofDrop r : Answer M X ε δ η) (.ofDrop r) := by
  cases r with
  | ok => rfl
  | error panic => rfl

omit [Headers M V] [BodyError η] in
/-- Code of the package that returns for all layers is run without a panic. -/
theorem Stack.settle_of_returns (service : InnerService M X B ε δ η) {α : Type}
    {effect : Effect α} {world : World} {Q : α → World → Prop} (h : Returns effect world Q)
    (inner : service.State) (next : α → Answer M X ε δ η × StackStage) :
    ∃ a w', Q a w' ∧
      Stack.settle inner world effect next = ((next a).1, ⟨inner, (next a).2, w'⟩) := by
  obtain ⟨a, w', hrun, hq⟩ := h
  refine ⟨a, w', hq, ?_⟩
  rw [Stack.settle, hrun]

theorem StackSpent.step {s : Bare service} {s' : Stack service} (h : StackSpent service states s s')
    (platform : Platform) (guardFirst : Bool) (op : Operation) :
    PassedAnswer states (s.step service op).1 (s'.step platform guardFirst service op).1 ∧
      (s'.step platform guardFirst service op).2.world.emitted = s'.world.emitted ∧
      StackSpent service states (s.step service op).2
        (s'.step platform guardFirst service op).2 := by
  obtain ⟨inner, phase⟩ := s
  obtain ⟨inner', stage, world⟩ := s'
  obtain ⟨hinner, hstage⟩ := h
  cases hinner
  cases phase with
  | future => cases stage <;> exact hstage.elim
  | gone =>
    cases stage with
    | future polled layers => exact hstage.elim
    | body layers => exact hstage.elim
    | gone => cases op <;> exact ⟨rfl, rfl, rfl, trivial⟩
  | body head =>
    cases stage with
    | future polled layers => exact hstage.elim
    | gone => exact hstage.elim
    | body layers =>
      cases op with
      | pollFuture => exact ⟨rfl, rfl, rfl, hstage⟩
      | dropFuture => exact ⟨rfl, rfl, rfl, hstage⟩
      | isEndStream => exact ⟨rfl, rfl, rfl, hstage⟩
      | sizeHint => exact ⟨rfl, rfl, rfl, hstage⟩
      | external n => exact ⟨rfl, rfl, rfl, hstage⟩
      | enterScope scope => exact ⟨rfl, rfl, rfl, hstage⟩
      | pollFrame =>
        simp only [Bare.step, Stack.step]
        obtain ⟨polled, inner₁⟩ := service.pollFrame inner
        cases polled with
        | error panic => exact ⟨rfl, rfl, rfl, hstage⟩
        | ok polled =>
          obtain ⟨⟨_, layers'⟩, w', ⟨rfl, hspent, rfl⟩, hsettle⟩ := Stack.settle_of_returns service
            (observeStack_of_spent platform polled (service.isEndStream inner₁) hstage world) inner₁
            fun observed => (.frame observed.1, .body observed.2)
          dsimp only
          rw [hsettle]
          exact ⟨rfl, rfl, rfl, hspent⟩
      | dropBody =>
        obtain ⟨_, w', rfl, hsettle⟩ := Stack.settle_of_returns service
          (dropBodies_of_spent platform hstage world) (service.dropBody inner).2
          fun _ => (.ofDrop (service.dropBody inner).1, .gone)
        simp only [Bare.step, Stack.step, hsettle]
        exact ⟨PassedAnswer.ofDrop states _, trivial, rfl, trivial⟩

theorem pollFuture_of_holding (platform : Platform) (guardFirst polled : Bool)
    {layers : List Layer} (h : Holding (none : Option (Response M X)) layers states)
    (inner : service.State) (world : World) :
    StackAdvances platform guardFirst service states ⟨inner, .future⟩
      ⟨inner, .future polled layers, world⟩ .pollFuture := by
  simp only [StackAdvances, Bare.step, Stack.step, terminalEvent]
  obtain ⟨polled, inner₁⟩ := service.pollFuture inner
  cases polled with
  | error panic =>
    obtain ⟨_, w', hemits, hsettle⟩ := Stack.settle_of_returns service
      (dropFutures_emits platform false .futureUnwound rfl rfl h world) inner₁
      fun _ => (.panicked panic, .gone)
    dsimp only
    rw [hsettle]
    obtain ⟨records, hreported, hemitted⟩ := Emits.inwards hemits
    exact ⟨rfl, Or.inr ⟨_, records, rfl, hreported, hemitted, rfl, trivial⟩⟩
  | ok polled =>
    cases polled with
    | pending => exact ⟨rfl, Or.inl ⟨rfl, rfl, rfl, h⟩⟩
    | ready answer =>
      cases answer with
      | error error =>
        obtain ⟨⟨answer, left⟩, w', ⟨rfl, hemits⟩, hsettle⟩ := Stack.settle_of_returns service
          (respondStack_fails platform h error (service.isEndStream inner₁) world) inner₁
          (leaving layers)
        dsimp only
        rw [hsettle]
        obtain ⟨records, hreported, hemitted⟩ := hemits.inwards
        exact ⟨rfl, Or.inr ⟨_, records, rfl, hreported, hemitted, rfl, trivial⟩⟩
      | ok head =>
        obtain ⟨⟨answer, left⟩, w', ⟨head', rfl, hthrough, hbodies⟩, hsettle⟩ :=
          Stack.settle_of_returns service
            (respondStack_passes platform h head (service.isEndStream inner₁) world) inner₁
            (leaving layers)
        dsimp only
        rw [hsettle]
        refine ⟨⟨head', rfl, hthrough⟩, ?_⟩
        rcases hbodies with ⟨hended, hholding, hsame⟩ | ⟨hended, hspent, hemits⟩
        · exact Or.inl ⟨by rw [hended]; rfl, hsame, rfl, hholding⟩
        · obtain ⟨records, hreported, hemitted⟩ := hemits.inwards
          exact Or.inr ⟨_, records, by rw [hended]; rfl, hreported, hemitted, rfl, hspent⟩

theorem dropFuture_of_holding (platform : Platform) (guardFirst polled : Bool)
    {layers : List Layer} (h : Holding (none : Option (Response M X)) layers states)
    (inner : service.State) (world : World) :
    StackAdvances platform guardFirst service states ⟨inner, .future⟩
      ⟨inner, .future polled layers, world⟩ .dropFuture := by
  obtain ⟨_, w', ⟨records, hemitted, hrecords⟩, hsettle⟩ := Stack.settle_of_returns service
    (dropFutures_emits platform (!polled && guardFirst) .futureDropped rfl rfl h world)
    (service.dropFuture inner).2 fun _ => (.ofDrop (service.dropFuture inner).1, .gone)
  simp only [StackAdvances, Bare.step, Stack.step, hsettle]
  refine ⟨PassedAnswer.ofDrop states _, Or.inr ⟨.futureDropped, records, rfl, ?_, hemitted, rfl,
    trivial⟩⟩
  refine ⟨_, ?_, fun hne => absurd rfl hne, hrecords⟩
  split
  · exact .refl states
  · exact states.reverse_perm

theorem pollFrame_of_holding (platform : Platform) (guardFirst : Bool) (head : Response M X)
    {layers : List Layer} (h : Holding (some head) layers states) (inner : service.State)
    (world : World) :
    StackAdvances platform guardFirst service states ⟨inner, .body head⟩
      ⟨inner, .body layers, world⟩ .pollFrame := by
  simp only [StackAdvances, Bare.step, Stack.step, terminalEvent]
  obtain ⟨polled, inner₁⟩ := service.pollFrame inner
  cases polled with
  | error panic => exact ⟨rfl, Or.inl ⟨rfl, rfl, rfl, h⟩⟩
  | ok polled =>
    obtain ⟨⟨_, layers'⟩, w', ⟨rfl, hbodies⟩, hsettle⟩ := Stack.settle_of_returns service
      (observeStack_emits platform head h polled (service.isEndStream inner₁) world) inner₁
      fun observed => (.frame observed.1, .body observed.2)
    dsimp only
    rw [hsettle]
    refine ⟨rfl, ?_⟩
    rcases hbodies with ⟨hnone, hholding, hsame⟩ | ⟨event, hevent, hspent, hemits⟩
    · exact Or.inl ⟨hnone, hsame, rfl, hholding⟩
    · obtain ⟨records, hreported, hemitted⟩ := hemits.inwards
      exact Or.inr ⟨event, records, hevent, hreported, hemitted, rfl, hspent⟩

theorem dropBody_of_holding (platform : Platform) (guardFirst : Bool) (head : Response M X)
    {layers : List Layer} (h : Holding (some head) layers states) (inner : service.State)
    (world : World) :
    StackAdvances platform guardFirst service states ⟨inner, .body head⟩
      ⟨inner, .body layers, world⟩ .dropBody := by
  obtain ⟨_, w', hemits, hsettle⟩ := Stack.settle_of_returns service
    (dropBodies_emits platform head h world) (service.dropBody inner).2
    fun _ => (.ofDrop (service.dropBody inner).1, .gone)
  simp only [StackAdvances, Bare.step, Stack.step, hsettle]
  obtain ⟨records, hreported, hemitted⟩ := hemits.inwards
  exact ⟨PassedAnswer.ofDrop states _, Or.inr ⟨_, records, rfl, hreported, hemitted, rfl, trivial⟩⟩

theorem StackArmed.step {s : Bare service} {s' : Stack service}
    (h : StackArmed service states s s') (platform : Platform) (guardFirst : Bool)
    (op : Operation) : StackAdvances platform guardFirst service states s s' op := by
  obtain ⟨inner, phase⟩ := s
  obtain ⟨inner', stage, world⟩ := s'
  obtain ⟨hinner, hstage⟩ := h
  cases hinner
  cases phase with
  | gone => cases stage <;> exact hstage.elim
  | future =>
    cases stage with
    | body layers => exact hstage.elim
    | gone => exact hstage.elim
    | future polled layers =>
      cases op with
      | pollFuture => exact pollFuture_of_holding platform guardFirst polled hstage inner world
      | dropFuture => exact dropFuture_of_holding platform guardFirst polled hstage inner world
      | pollFrame => exact ⟨rfl, Or.inl ⟨rfl, rfl, rfl, hstage⟩⟩
      | isEndStream => exact ⟨rfl, Or.inl ⟨rfl, rfl, rfl, hstage⟩⟩
      | sizeHint => exact ⟨rfl, Or.inl ⟨rfl, rfl, rfl, hstage⟩⟩
      | dropBody => exact ⟨rfl, Or.inl ⟨rfl, rfl, rfl, hstage⟩⟩
      | external n => exact ⟨rfl, Or.inl ⟨rfl, rfl, rfl, hstage⟩⟩
      | enterScope scope => exact ⟨rfl, Or.inl ⟨rfl, rfl, rfl, hstage⟩⟩
  | body head =>
    cases stage with
    | future polled layers => exact hstage.elim
    | gone => exact hstage.elim
    | body layers =>
      cases op with
      | pollFrame => exact pollFrame_of_holding platform guardFirst head hstage inner world
      | dropBody => exact dropBody_of_holding platform guardFirst head hstage inner world
      | pollFuture => exact ⟨rfl, Or.inl ⟨rfl, rfl, rfl, hstage⟩⟩
      | dropFuture => exact ⟨rfl, Or.inl ⟨rfl, rfl, rfl, hstage⟩⟩
      | isEndStream => exact ⟨rfl, Or.inl ⟨rfl, rfl, rfl, hstage⟩⟩
      | sizeHint => exact ⟨rfl, Or.inl ⟨rfl, rfl, rfl, hstage⟩⟩
      | external n => exact ⟨rfl, Or.inl ⟨rfl, rfl, rfl, hstage⟩⟩
      | enterScope scope => exact ⟨rfl, Or.inl ⟨rfl, rfl, rfl, hstage⟩⟩

/-! ## Runs of a stack -/

/-- Each layer that has been called holds a fresh state of its own configuration. -/
theorem callStack_holds (platform : Platform) (configs : List ObservabilityConfig)
    (request : Request M X B) (w : World) :
    Returns (callStack platform configs request) w fun r w' => w'.emitted = w.emitted ∧
      ∃ states, states.map TerminalState.config = configs ∧
        (∀ state ∈ states, state.status = none) ∧
        Holding (none : Option (Response M X)) r.2 states := by
  induction configs generalizing request w with
  | nil => exact Returns.pure ⟨rfl, [], rfl, by simp, .nil⟩
  | cons config configs ih =>
    apply (prepare_spec platform config request w).bind
    intro prepared w₁ h
    obtain ⟨request₁, guard⟩ := prepared
    obtain ⟨state, rfl, hprepared⟩ := h
    apply (inSpan_spec _ (ih request₁ _)).bind
    intro r w₂ h
    obtain ⟨w₃, ⟨hemitted, states, hconfigs, hfresh, hholding⟩, rfl⟩ := h
    refine Returns.pure ⟨hemitted.trans hprepared.emitted, state :: states, ?_, ?_, ?_⟩
    · rw [List.map_cons, hconfigs, hprepared.configured]
    · exact List.forall_mem_cons.mpr ⟨hprepared.fresh, hfresh⟩
    · exact .cons ⟨hprepared.configured.symm, rfl⟩ hholding

omit [BodyError η] in
theorem StackArmed.stage_ne_gone {s : Bare service} {s' : Stack service}
    (h : StackArmed service states s s') : s'.stage ≠ .gone := by
  obtain ⟨inner, phase⟩ := s
  obtain ⟨inner', stage, world⟩ := s'
  rintro rfl
  cases phase <;> exact h.stage

/-- **A stack in step with the service, over a run**: the answers of the service, but for
the response head and the boxes around an error. -/
theorem StackArmed.answers {s : Bare service} {s' : Stack service}
    (h : StackArmed service states s s') (platform : Platform) (guardFirst : Bool)
    (ops : List Operation) :
    List.Forall₂ (PassedAnswer states) ((bareMachine service).answers s ops)
      ((stackMachine platform guardFirst service).answers s' ops) := by
  let m := bareMachine service
  let m' := stackMachine platform guardFirst service
  have hstep : ∀ (s : m.State) (s' : m'.State) op,
      StackArmed service states s s' ∨ StackSpent service states s s' →
      PassedAnswer states (m.step s op).1 (m'.step s' op).1 ∧
        (StackArmed service states (m.step s op).2 (m'.step s' op).2 ∨
          StackSpent service states (m.step s op).2 (m'.step s' op).2) := by
    intro s s' op h
    rcases h with harmed | hspent
    · obtain ⟨hanswer, hnext⟩ := harmed.step platform guardFirst op
      refine ⟨hanswer, ?_⟩
      rcases hnext with ⟨-, -, harmed'⟩ | ⟨_, _, -, -, -, hspent⟩
      · exact Or.inl harmed'
      · exact Or.inr hspent
    · obtain ⟨hanswer, -, hspent'⟩ := hspent.step platform guardFirst op
      exact ⟨hanswer, Or.inr hspent'⟩
  exact (lockstep (m := m) hstep (Or.inl h) ops).1

/-- **A stack over a run**: the records of the first terminal event, and no others. -/
theorem StackArmed.run {s : Bare service} {s' : Stack service}
    (h : StackArmed service states s s') (platform : Platform) (guardFirst : Bool)
    (ops : List Operation) :
    ((bareMachine service).firstEvent terminalEvent s ops = none ∧
        ((stackMachine platform guardFirst service).run s' ops).world.emitted =
          s'.world.emitted ∧
        StackArmed service states ((bareMachine service).run s ops)
          ((stackMachine platform guardFirst service).run s' ops)) ∨
      ∃ event records, (bareMachine service).firstEvent terminalEvent s ops = some event ∧
        ReportedByAll platform states event records ∧
        ((stackMachine platform guardFirst service).run s' ops).world.emitted =
          s'.world.emitted ++ records ∧
        StackSpent service states ((bareMachine service).run s ops)
          ((stackMachine platform guardFirst service).run s' ops) := by
  let m := bareMachine service
  let m' := stackMachine platform guardFirst service
  have harmed : ∀ (s : m.State) (s' : m'.State) op, True → StackArmed service states s s' →
      (terminalEvent s op = none ∧ (m'.step s' op).2.world.emitted = s'.world.emitted ∧
        StackArmed service states (m.step s op).2 (m'.step s' op).2) ∨
      ∃ event records, terminalEvent s op = some event ∧
        ReportedByAll platform states event records ∧
        (m'.step s' op).2.world.emitted = s'.world.emitted ++ records ∧
        StackSpent service states (m.step s op).2 (m'.step s' op).2 :=
    fun _ _ op _ h => (h.step platform guardFirst op).2
  have hspent : ∀ (s : m.State) (s' : m'.State) op, StackSpent service states s s' →
      (m'.step s' op).2.world.emitted = s'.world.emitted ∧
        StackSpent service states (m.step s op).2 (m'.step s' op).2 :=
    fun _ _ op h => (h.step platform guardFirst op).2
  exact latch (m := m) terminalEvent (fun s' : m'.State => s'.world.emitted) harmed hspent h ops
    fun _ _ => trivial

/-- **Every layer of a stack reports the exchange once.**  Whatever the consumer does with
the outermost future and body, it gets the answers of the service, but for the headers that
the layers set on the response and for an error of the body, which each layer wraps once
more. Up to the first terminal event nothing is emitted; from
then on there is one record for each layer, of that event and of the state that the layer
has captured, from the innermost layer out. Only futures that are dropped from outside may
report in another order. -/
theorem stack_emits_once (platform : Platform) (guardFirst : Bool)
    (configs : List ObservabilityConfig) (service : InnerService M X B ε δ η)
    (inner : service.State) (request : Request M X B) (world : World) (stack : Stack service)
    (hcall : Stack.call platform configs service inner request world = (.ok (), stack)) :
    ∃ request' layers states, (callStack platform configs request).run world =
        .ok ((request', layers), stack.world) ∧
      layers.map (fun layer => layer.guard.state) = states.map some ∧
      states.map TerminalState.config = configs ∧ (∀ state ∈ states, state.status = none) ∧
      ∀ ops : List Operation,
        let bare : Bare service := ⟨stack.inner, .future⟩
        let final := (stackMachine platform guardFirst service).run stack ops
        List.Forall₂ (PassedAnswer states) ((bareMachine service).answers bare ops)
          ((stackMachine platform guardFirst service).answers stack ops) ∧
        ((bareMachine service).firstEvent terminalEvent bare ops = none →
          final.world.emitted = world.emitted ∧ final.stage ≠ .gone) ∧
        ∀ event, (bareMachine service).firstEvent terminalEvent bare ops = some event →
          ∃ order records, final.world.emitted = world.emitted ++ records ∧
            order.Perm states ∧ (event ≠ .futureDropped → order = states.reverse) ∧
            List.Forall₂ (fun state emitted => ∃ calls,
              event.Reported state platform calls (fun _ => True) emitted) order records := by
  obtain ⟨⟨request', layers⟩, w', hrun, hemitted, states, hconfigs, hfresh, hholding⟩ :=
    callStack_holds platform configs request world
  rw [Stack.call, hrun] at hcall
  dsimp only at hcall
  generalize service.call inner request' = called at hcall
  obtain ⟨r, inner₁⟩ := called
  cases r with
  | error panic => cases congrArg Prod.fst hcall
  | ok =>
    obtain rfl := congrArg Prod.snd hcall
    have harmed : StackArmed service states ⟨inner₁, .future⟩
      ⟨inner₁, .future false layers, w'⟩ := ⟨rfl, hholding⟩
    refine ⟨request', layers, states, hrun, ?_, hconfigs, hfresh, fun ops => ?_⟩
    · exact hholding.map_eq
    intro bare final
    refine ⟨harmed.answers platform guardFirst ops, fun hnone => ?_, fun event hsome => ?_⟩
    · rcases harmed.run platform guardFirst ops with ⟨-, hsame, harmed'⟩ | ⟨_, _, hsome, -⟩
      · exact ⟨hsame.trans hemitted, harmed'.stage_ne_gone⟩
      · cases hnone.symm.trans hsome
    · rcases harmed.run platform guardFirst ops with
        ⟨hnone, -⟩ | ⟨event', records, hsome', ⟨order, hperm, horder, hrecords⟩, hfinal, -⟩
      · cases hnone.symm.trans hsome
      · cases hsome'.symm.trans hsome
        exact ⟨order, records, by rw [← hemitted]; exact hfinal, hperm, horder, hrecords⟩

end

/-! ### A broken greeting through two layers -/

theorem stack_emits_once_broken :
    ∃ stack first second, Stack.call .reference [.default .reference, levelTwoConfig]
        brokenService (0 : Nat) greetingRequest .initial = (.ok (), stack) ∧
      (∃ answer, (stackMachine .reference true brokenService).answers stack
        [.pollFuture, .pollFrame] =
          [answer, .frame (.ready (some (.error "Error(Error(reset))")))]) ∧
      ((stackMachine .reference true brokenService).run stack
        [.pollFuture, .pollFrame]).world.emitted = [first, second] := by
  obtain ⟨⟨request', layers⟩, w', hrun, -⟩ := callStack_holds .reference
    [.default .reference, levelTwoConfig] greetingRequest .initial
  have hcall : Stack.call .reference [.default .reference, levelTwoConfig] brokenService
      (0 : Nat) greetingRequest .initial = (.ok (), ⟨(0 : Nat), .future false layers, w'⟩) := by
    unfold Stack.call
    rw [hrun]
    rfl
  obtain ⟨-, -, states, -, -, hconfigs, -, hruns⟩ := stack_emits_once .reference true
    [.default .reference, levelTwoConfig] brokenService (0 : Nat) greetingRequest .initial _ hcall
  obtain ⟨hanswers, -, hemits⟩ := hruns [.pollFuture, .pollFrame]
  obtain ⟨order, records, hemitted, hperm, -, hrecords⟩ := hemits (.bodyFailed greetingHead) rfl
  have hlength : states.length = 2 := by
    rw [← List.length_map (f := TerminalState.config), hconfigs]
    rfl
  obtain ⟨first, second, rfl⟩ := List.length_eq_two.mp
    (hrecords.length_eq.symm.trans (hperm.length_eq.trans hlength))
  refine ⟨_, first, second, hcall, ?_, hemitted⟩
  obtain ⟨answer, rest, -, hrest, heq⟩ := List.forall₂_cons_left_iff.mp hanswers
  obtain ⟨framed, _, hframed, hnil, rfl⟩ := List.forall₂_cons_left_iff.mp hrest
  cases hnil
  obtain rfl : framed = .frame _ := hframed
  rw [hlength] at heq
  exact ⟨answer, heq⟩

end AxumObservability
