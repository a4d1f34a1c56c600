import AxumObservability.Library.Ledger
import AxumObservability.Reports
import AxumObservability.Stacks
import AxumObservability.Transparency

/-!
# A server under load

Many requests are in flight at a time. Each is served by a clone of one service; their
exchanges share the callbacks, the subscriber and the log, and go on in any order.
In between the application emits events of its own.

* `callEmitting_spec`: a call in which the inner service emits events of its own;
* `Server.Follows.step`: the server in step with a ledger of sessions;
* `server_emits_once`: over every interleaving each call that gave out a future has one
  record, emitted at its first terminal event.
-/

namespace AxumObservability

open Library.Json Library.Machines Library.Panics Library.Text

/-! ## The service as a whole -/

/-- An inner service that is asked whether it is ready before it is called. -/
structure ReadyService (M X B ε δ η : Type) extends InnerService M X B ε δ η where
  pollReady : State → Result (Poll (Except ε Unit)) × State

variable {κ M V X B ε δ η : Type}

/-- The middleware is ready when the inner service is. -/
def ObservabilityService.pollReady (service : ReadyService M X B ε δ η) (inner : service.State) :
    Result (Poll (Except ε Unit)) × service.State :=
  service.pollReady inner

/-- An event that code of the application emits, inside spans of its own. -/
structure ApplicationEvent where
  inside : List SpanData
  event : Event

/-- The event with the spans that it lies in, where the code runs in those of a scope. -/
def ApplicationEvent.under (scope : List SpanData) (e : ApplicationEvent) : Emitted :=
  ⟨e.event, scope ++ e.inside⟩

/-- Code that runs in the spans of a scope emits one event after another. -/
def dispatchAll (platform : Platform) (scope : List SpanData) :
    List ApplicationEvent → Effect Unit
  | [] => return ()
  | e :: events => do
    dispatch platform (scope ++ e.inside) e.event
    dispatchAll platform scope events

/-- A call of the middleware in which the inner service emits `events`: it is called, and
emits them, inside the span of the request. -/
def ObservabilityService.callEmitting [Headers M V] (platform : Platform)
    (config : ObservabilityConfig) (service : InnerService M X B ε δ η) (inner : service.State)
    (request : Request M X B) (events : List ApplicationEvent) (world : World) :
    Result Unit × Exchange service :=
  match (prepare platform config request).run world with
  | .error panic => (.error panic, ⟨inner, .gone, world⟩)
  | .ok ((request, guard), world) =>
    match (dispatchAll platform (guard.span.inScope world.scope) events).run world with
    | .error panic => (.error panic, ⟨inner, .gone, world⟩)
    | .ok ((), world) =>
      match service.call inner request with
      | (.error panic, inner) => (.error panic, ⟨inner, .gone, world⟩)
      | (.ok (), inner) => (.ok (), ⟨inner, .future guard, world⟩)

/-- **What the layer gets of events** that are emitted one after another. -/
theorem dispatchAll_reports (platform : Platform) (scope : List SpanData)
    (events : List ApplicationEvent) (w : World) :
    Returns (dispatchAll platform scope events) w fun _ w' =>
      w.calls <+: w'.calls ∧ w'.scope = w.scope ∧ w'.emitted = w.emitted ∧
      ∃ dispatched, dispatched.map Dispatched.emitted =
          events.map (ApplicationEvent.under scope) ∧
        platform.Logs dispatched w.log w'.log := by
  induction events generalizing w with
  | nil => exact Returns.pure ⟨List.prefix_refl _, rfl, rfl, [], rfl, .nil platform w.log⟩
  | cons e events ih =>
    refine (dispatch_reports platform (scope ++ e.inside) e.event w).bind fun _ w₁ h => ?_
    obtain ⟨hcalls, hscope, hemitted, number, timestamp, hlog⟩ := h
    refine (ih w₁).mono fun _ w₂ h => ?_
    obtain ⟨hcalls', hscope', hemitted', dispatched, hdispatched, hlog'⟩ := h
    refine ⟨hcalls.trans hcalls', hscope'.trans hscope, hemitted'.trans hemitted,
      ⟨e.under scope, number, timestamp⟩ :: dispatched, ?_, hlog.append hlog'⟩
    rw [List.map_cons, hdispatched, List.map_cons]

/-- **Events in a call** reach the layer in the span of the request, and change nothing else
about the call. -/
theorem callEmitting_spec [Headers M V] (platform : Platform) (config : ObservabilityConfig)
    (service : InnerService M X B ε δ η) (inner : service.State) (request : Request M X B)
    (events : List ApplicationEvent) (world : World) :
    let called := ObservabilityService.call platform config service inner request world
    ∃ request' state w', Prepared platform config request world request' state called.2.world ∧
      (prepare platform config request).run world =
        .ok ((request', ⟨some state⟩), called.2.world) ∧
      ObservabilityService.callEmitting platform config service inner request events world =
        (called.1, ⟨called.2.inner, called.2.stage, w'⟩) ∧
      called.2.world.calls <+: w'.calls ∧ w'.scope = world.scope ∧ w'.emitted = world.emitted ∧
      ∃ dispatched, dispatched.map Dispatched.emitted =
          events.map (ApplicationEvent.under (state.span.inScope world.scope)) ∧
        platform.Logs dispatched called.2.world.log w'.log := by
  intro called
  obtain ⟨⟨request', guard⟩, w₁, hrun, state, hguard, hprepared⟩ :=
    prepare_spec platform config request world
  cases hguard
  have hworld : called.2.world = w₁ := by
    simp only [called, ObservabilityService.call, hrun]
    split <;> rfl
  obtain ⟨⟨⟩, w₂, hdispatch, hcalls, hscope, hemitted, hlog⟩ := dispatchAll_reports platform
    (state.span.inScope w₁.scope) events w₁
  rw [hprepared.scope] at hdispatch hlog hscope
  rw [hprepared.emitted] at hemitted
  refine ⟨request', state, w₂, hworld ▸ hprepared, hworld ▸ hrun, ?_, hworld ▸ hcalls, hscope,
    hemitted, hworld ▸ hlog⟩
  have hspan : (⟨some state⟩ : TerminalGuard).span = state.span := rfl
  simp only [ObservabilityService.callEmitting, hrun, hspan, hprepared.scope, hdispatch, called,
    ObservabilityService.call]
  obtain ⟨result, inner'⟩ := service.call inner request'
  cases result <;> rfl

/-! ## The server -/

/-- A clone of the service, and what has become of it. -/
inductive Slot (service : ReadyService M X B ε δ η) where
  | ready (inner : service.State)
  | called (inner : service.State) (stage : Stage)

/-- The clones of a service, by the requests they are for, and the world they share. -/
structure Server (service : ReadyService M X B ε δ η) (κ : Type) where
  slots : κ → Slot service
  world : World

/-- What happens next, and to which clone. -/
inductive ServerInput (κ M X B : Type) where
  | pollReady (k : κ)
  /-- The inner service emits `events` while it is called. -/
  | call (k : κ) (request : Request M X B) (events : List ApplicationEvent)
  | operation (k : κ) (op : Operation)
  /-- The code behind `k` emits an event of its own, inside spans of its own. -/
  | event (k : κ) (inside : List SpanData) (event : Event)
  | enterScope (scope : List SpanData)

/-- What the application emits at an input. -/
def ServerInput.events : ServerInput κ M X B → List ApplicationEvent
  | .call _ _ events => events
  | .event _ inside e => [⟨inside, e⟩]
  | _ => []

/-- The spans entered around the server are among `scopes`. -/
def ServerInput.Within (scopes : List SpanData → Prop) : ServerInput κ M X B → Prop
  | .operation _ op => op.Within scopes
  | .enterScope scope => scopes scope
  | _ => True

theorem ServerInput.within_all (input : ServerInput κ M X B) : input.Within fun _ => True := by
  cases input with
  | operation k op => exact op.within_all
  | _ => trivial

inductive ServerAnswer (M X ε δ η : Type) where
  | readiness (polled : Result (Poll (Except ε Unit)))
  | called (result : Result Unit)
  | answered (answer : Answer M X ε δ η)
  | logged (result : Result Unit)
  | idle

/-- The spans around the code of the inner service. Its future runs in the span of the
request, its body does not. -/
def Slot.scope {service : ReadyService M X B ε δ η} (current : List SpanData) :
    Slot service → List SpanData
  | .called _ (.future guard) => guard.span.inScope current
  | _ => current

namespace Server

variable {service : ReadyService M X B ε δ η}

/-- Every clone in the state it was made in. -/
def start (clones : κ → service.State) (world : World) : Server service κ :=
  ⟨fun k => .ready (clones k), world⟩

variable [DecidableEq κ]

def put (s : Server service κ) (k : κ) (slot : Slot service) (world : World) :
    Server service κ :=
  ⟨Function.update s.slots k slot, world⟩

@[simp] theorem slots_put (s : Server service κ) (k : κ) (slot : Slot service) (world : World) :
    (s.put k slot world).slots k = slot := by
  simp [put]

theorem slots_put_of_ne (s : Server service κ) {k k' : κ} (h : k' ≠ k) (slot : Slot service)
    (world : World) : (s.put k slot world).slots k' = s.slots k' := by
  simp [put, h]

@[simp] theorem world_put (s : Server service κ) (k : κ) (slot : Slot service) (world : World) :
    (s.put k slot world).world = world := rfl

variable [Headers M V] [BodyError η]

/-- The body of a response is handed out in a box. -/
def step (platform : Platform) (config : κ → ObservabilityConfig) (s : Server service κ) :
    ServerInput κ M X B → ServerAnswer M X ε δ η × Server service κ
  | .pollReady k =>
    match s.slots k with
    | .ready inner =>
      (.readiness (ObservabilityService.pollReady service inner).1,
        s.put k (.ready (ObservabilityService.pollReady service inner).2) s.world)
    | .called _ _ => (.idle, s)
  | .call k request events =>
    match s.slots k with
    | .ready inner =>
      match ObservabilityService.callEmitting platform (config k) service.toInnerService inner
        request events s.world with
      | (.ok (), exchange) =>
        (.called (.ok ()), s.put k (.called exchange.inner exchange.stage) exchange.world)
      | (.error panic, exchange) =>
        (.called (.error panic), s.put k (.ready exchange.inner) exchange.world)
    | .called _ _ => (.idle, s)
  | .operation k op =>
    match s.slots k with
    | .ready _ => (.idle, s)
    | .called inner stage =>
      let exchange : Exchange service.toInnerService := ⟨inner, stage, s.world⟩
      let (answer, exchange) := exchange.step platform (config k) service.toInnerService op
      (.answered answer.boxed, s.put k (.called exchange.inner exchange.stage) exchange.world)
  | .event k inside event =>
    match (dispatch platform ((s.slots k).scope s.world.scope ++ inside) event).run s.world with
    | .ok ((), world) => (.logged (.ok ()), { s with world := world })
    | .error panic => (.logged (.error panic), s)
  | .enterScope scope => (.idle, { s with world := { s.world with scope := scope } })

end Server

/-- The server, as a machine of inputs. -/
def serverMachine [DecidableEq κ] [Headers M V] [BodyError η] (platform : Platform)
    (config : κ → ObservabilityConfig) (service : ReadyService M X B ε δ η) :
    Machine (ServerInput κ M X B) (ServerAnswer M X ε δ η) where
  State := Server service κ
  step := Server.step platform config

namespace Server

variable [DecidableEq κ] [Headers M V] [BodyError η] {service : ReadyService M X B ε δ η}
  (platform : Platform) (config : κ → ObservabilityConfig)

def run (s : Server service κ) (inputs : List (ServerInput κ M X B)) : Server service κ :=
  (serverMachine platform config service).run s inputs

def answers (s : Server service κ) (inputs : List (ServerInput κ M X B)) :
    List (ServerAnswer M X ε δ η) :=
  (serverMachine platform config service).answers s inputs

theorem run_append (s : Server service κ) (inputs inputs' : List (ServerInput κ M X B)) :
    s.run platform config (inputs ++ inputs') =
      (s.run platform config inputs).run platform config inputs' :=
  Machine.run_append (m := serverMachine platform config service) s inputs inputs'

end Server

/-! ## The ledger of a run -/

/-- The state that a stage holds for the terminal event. -/
def Stage.state : Stage → Option TerminalState
  | .future guard => guard.state
  | .body observed => observed.guard.state
  | .gone => none

/-- Exchanges as sessions of the inner service alone, each under the state that was
captured for it. -/
abbrev AccessLedger (service : ReadyService M X B ε δ η) (κ : Type) :=
  Ledger κ TerminalState (TerminalEvent M X) (bareMachine service.toInnerService)

abbrev AccessAct (service : ReadyService M X B ε δ η) :=
  Act TerminalState (bareMachine service.toInnerService).State Operation

/-- A record is that of an entry of the ledger, emitted under one of `scopes`. The callbacks
have answered as they do after some calls of the run. -/
def Entered (platform : Platform) (scopes : List SpanData → Prop) (calls : List Call)
    (entry : κ × TerminalState × TerminalEvent M X) (emitted : Emitted) : Prop :=
  ∃ before, before <+: calls ∧
    entry.2.2.Reported entry.2.1 platform before scopes emitted

theorem Entered.mono {platform : Platform} {scopes : List SpanData → Prop}
    {calls calls' : List Call} (h : calls <+: calls')
    {entry : κ × TerminalState × TerminalEvent M X} {emitted : Emitted}
    (hentered : Entered platform scopes calls entry emitted) :
    Entered platform scopes calls' entry emitted := by
  obtain ⟨before, hbefore, hreported⟩ := hentered
  exact ⟨before, hbefore.trans h, hreported⟩

section

variable [Headers M V] {service : ReadyService M X B ε δ η}

/-- A clone and its session: none before the call; open while the guard is armed, and
closed from the first terminal event on. -/
def Slot.Tracks (scopes : List SpanData → Prop) (slot : Slot service)
    (session : Option (TerminalState × Bare service.toInnerService)) (closed : Prop) : Prop :=
  match slot with
  | .ready _ => session = none ∧ ¬ closed
  | .called inner stage => ∃ state bare, session = some (state, bare) ∧
    ((closed ∧ ∀ world, Spent service.toInnerService bare ⟨inner, stage, world⟩) ∨
      (¬ closed ∧ ∀ world : World, scopes world.scope →
        Armed service.toInnerService state world.calls scopes bare ⟨inner, stage, world⟩))

theorem Armed.anywhere {state : TerminalState} {calls : List Call} {scopes : List SpanData → Prop}
    {bare : Bare service.toInnerService} {exchange : Exchange service.toInnerService}
    (h : Armed service.toInnerService state calls scopes bare exchange) (world : World)
    (hscope : scopes world.scope) : Armed service.toInnerService state world.calls scopes bare
      ⟨exchange.inner, exchange.stage, world⟩ :=
  ⟨h.inner, rfl, hscope, h.stage⟩

theorem Spent.anywhere {bare : Bare service.toInnerService}
    {exchange : Exchange service.toInnerService}
    (h : Spent service.toInnerService bare exchange) (world : World) :
    Spent service.toInnerService bare ⟨exchange.inner, exchange.stage, world⟩ :=
  ⟨h.inner, h.stage⟩

/-- **One operation on a clone** answers like its session, and what it emits is the record
of the first terminal event. -/
theorem Slot.Tracks.step {scopes : List SpanData → Prop} {inner : service.State} {stage : Stage}
    {state : TerminalState} {bare : Bare service.toInnerService} {closed : Prop} [Decidable closed]
    (h : (Slot.called inner stage : Slot service).Tracks scopes (some (state, bare)) closed)
    (platform : Platform) (config : ObservabilityConfig) {op : Operation} (hop : op.Within scopes)
    {world : World} (hscope : scopes world.scope) :
    let exchange : Exchange service.toInnerService := ⟨inner, stage, world⟩
    let next := exchange.step platform config service.toInnerService op
    SameAnswer config state.requestContext.requestId (bare.step service.toInnerService op).1
        next.1 ∧
      (Slot.called next.2.inner next.2.stage : Slot service).Tracks scopes
        (some (state, (bare.step service.toInnerService op).2))
        (closed ∨ (terminalEvent bare op).isSome = true) ∧
      ∃ added, next.2.world.emitted = world.emitted ++ added ∧
        List.Forall₂ (fun event emitted =>
            event.Reported state platform world.calls scopes emitted)
          (if closed then [] else (terminalEvent bare op).toList) added := by
  intro exchange next
  obtain ⟨_, _, ⟨⟩, ⟨hclosed, hspent⟩ | ⟨hopen, harmed⟩⟩ := h
  · obtain ⟨hsame, hemitted, hspent'⟩ :=
      (hspent world).step platform config state.requestContext.requestId op
    refine ⟨hsame, ⟨state, _, rfl, Or.inl ⟨Or.inl hclosed, hspent'.anywhere⟩⟩, [], ?_, ?_⟩
    · rw [List.append_nil]
      exact hemitted
    · rw [if_pos hclosed]
      exact .nil
  · obtain ⟨hsame, ⟨hnone, hemitted, harmed'⟩ | ⟨event, emitted, hevent, hreported, hemitted,
      hspent'⟩⟩ := (harmed world hscope).step platform config op hop
    · refine ⟨hsame, ⟨state, _, rfl, Or.inr ⟨?_, harmed'.anywhere⟩⟩, [], ?_, ?_⟩
      · simp [hopen, hnone]
      · rw [List.append_nil]
        exact hemitted
      · rw [if_neg hopen, hnone]
        exact .nil
    · refine ⟨hsame, ⟨state, _, rfl, Or.inl ⟨Or.inr ?_, hspent'.anywhere⟩⟩, [emitted], hemitted,
        ?_⟩
      · rw [hevent]
        rfl
      · rw [if_neg hopen, hevent]
        exact .cons hreported .nil

variable [DecidableEq κ] [BodyError η]

namespace Server

/-- What an input means for the ledger. The application's own events mean nothing. -/
def act (platform : Platform) (config : κ → ObservabilityConfig) (s : Server service κ) :
    ServerInput κ M X B → List (κ × AccessAct service)
  | .call k request _ =>
    match s.slots k with
    | .ready inner =>
      match ObservabilityService.call platform (config k) service.toInnerService inner request
        s.world with
      | (.ok (), exchange) =>
        (exchange.stage.state.map fun state => (k, .opened state (.ofExchange exchange))).toList
      | (.error _, _) => []
    | .called _ _ => []
  | .operation k op => [(k, .given op)]
  | .pollReady _ | .event _ _ _ | .enterScope _ => []

/-- The acts of a run. -/
def acts (platform : Platform) (config : κ → ObservabilityConfig) (s : Server service κ) :
    List (ServerInput κ M X B) → List (κ × AccessAct service)
  | [] => []
  | input :: inputs =>
    s.act platform config input ++ acts platform config (s.step platform config input).2 inputs

/-- The server and its ledger: every clone is where its session is, and every entry has
had its record emitted. -/
structure Follows (platform : Platform) (scopes : List SpanData → Prop) (base : List Emitted)
    (s : Server service κ) (l : AccessLedger service κ) : Prop where
  scope : scopes s.world.scope
  slots : ∀ k, (s.slots k).Tracks scopes (l.session k) (l.Closed k)
  emitted : ∃ records, s.world.emitted = base ++ records ∧
    List.Forall₂ (Entered platform scopes s.world.calls) l.entries records

variable {platform : Platform} {config : κ → ObservabilityConfig}
  {scopes : List SpanData → Prop} {base : List Emitted} {s : Server service κ}
  {l : AccessLedger service κ}

omit [DecidableEq κ] [BodyError η] in
theorem Follows.start (platform : Platform) (clones : κ → service.State) {world : World}
    (hscope : scopes world.scope) :
    Follows platform scopes world.emitted (Server.start clones world : Server service κ)
      (.empty : AccessLedger service κ) where
  scope := hscope
  slots := fun _ => ⟨rfl, nofun⟩
  emitted := ⟨[], (List.append_nil _).symm, .nil⟩

omit [DecidableEq κ] [BodyError η] in
/-- A step that changes neither a session nor what is emitted. -/
theorem Follows.quiet (h : Follows platform scopes base s l) {s' : Server service κ}
    (hslots : ∀ k, (s'.slots k).Tracks scopes (l.session k) (l.Closed k))
    (hcalls : s.world.calls <+: s'.world.calls) (hscope : scopes s'.world.scope)
    (hemitted : s'.world.emitted = s.world.emitted) : Follows platform scopes base s' l := by
  obtain ⟨records, hrecords, hentered⟩ := h.emitted
  exact ⟨hscope, hslots, records, hemitted.trans hrecords,
    hentered.imp fun _ _ => Entered.mono hcalls⟩

/-- A call that panics is not observed: there is no guard yet. -/
theorem Follows.call (h : Follows platform scopes base s l) (k : κ) (request : Request M X B)
    (events : List ApplicationEvent) :
    Follows platform scopes base (s.step platform config (.call k request events)).2
      (l.run terminalEvent (s.act platform config (.call k request events))) := by
  cases hslot : s.slots k with
  | called inner stage =>
    simp only [Server.step, Server.act, hslot]
    exact h
  | ready inner =>
    obtain ⟨hnone, hopen⟩ : l.session k = none ∧ ¬ l.Closed k := by
      have htracks := h.slots k
      rwa [hslot] at htracks
    obtain ⟨_, _, w', -, -, hemitting, hcalls, hscope, hemitted, -⟩ := callEmitting_spec platform
      (config k) service.toInnerService inner request events s.world
    obtain ⟨_, hreports⟩ := ObservabilityService.call_reaches platform (config k)
      service.toInnerService inner request s.world
    have hcalls' : s.world.calls <+: w'.calls := hreports.calls.trans hcalls
    obtain ⟨called, hcalled⟩ : ∃ called, ObservabilityService.call platform (config k)
      service.toInnerService inner request s.world = called := ⟨_, rfl⟩
    rw [hcalled] at hemitting
    obtain ⟨result, exchange⟩ := called
    cases result with
    | error panic =>
      simp only [Server.step, Server.act, hslot, hcalled, hemitting]
      refine h.quiet (fun k' => ?_) hcalls' (hscope ▸ h.scope) hemitted
      by_cases hk : k' = k
      · rw [hk, slots_put]
        exact ⟨hnone, hopen⟩
      · rw [slots_put_of_ne s hk]
        exact h.slots k'
    | ok =>
      obtain ⟨-, state, -, harmed⟩ := armed_of_call hcalled scopes h.scope
      have hstage := harmed.stage_eq
      have hstate : exchange.stage.state = some state := by rw [hstage]; rfl
      simp only [Server.step, Server.act, hslot, hcalled, hemitting, hstate, Option.map_some,
        Option.toList_some, Ledger.run, List.foldl_cons, List.foldl_nil]
      have hstep := Ledger.step_opened terminalEvent hnone state (.ofExchange exchange)
      obtain ⟨records, hrecords, hentered⟩ := h.emitted
      refine ⟨hscope ▸ h.scope, fun k' => ?_, records, hemitted.trans hrecords, ?_⟩
      · by_cases hk : k' = k
        · rw [hk, slots_put, hstep]
          exact ⟨state, _, Function.update_self .., Or.inr ⟨hopen, harmed.anywhere⟩⟩
        · obtain ⟨hsession, hclosed⟩ := l.step_of_ne terminalEvent hk
            (.opened state (.ofExchange exchange))
          rw [slots_put_of_ne s hk, hsession, hclosed]
          exact h.slots k'
      · rw [hstep]
        exact hentered.imp fun _ _ => Entered.mono hcalls'

theorem Follows.operation (h : Follows platform scopes base s l) (k : κ) {op : Operation}
    (hop : op.Within scopes) :
    Follows platform scopes base (s.step platform config (.operation k op)).2
      (l.run terminalEvent (s.act platform config (.operation k op))) := by
  have htracks := h.slots k
  simp only [Server.act, Ledger.run, List.foldl_cons, List.foldl_nil]
  cases hslot : s.slots k with
  | ready inner =>
    rw [hslot] at htracks
    rw [Ledger.step_given_none terminalEvent htracks.1]
    simp only [Server.step, hslot]
    exact h
  | called inner stage =>
    rw [hslot] at htracks
    obtain ⟨state, bare, hsession⟩ : ∃ state bare, l.session k = some (state, bare) := by
      obtain ⟨state, bare, hsession, -⟩ := htracks
      exact ⟨state, bare, hsession⟩
    rw [hsession] at htracks
    obtain ⟨-, hnext, added, hadded, hreported⟩ := htracks.step platform (config k) hop h.scope
    obtain ⟨hsession', hclosed', hentries⟩ := Ledger.step_given terminalEvent hsession op
    obtain ⟨records, hrecords, hentered⟩ := h.emitted
    let exchange : Exchange service.toInnerService := ⟨inner, stage, s.world⟩
    have hcalls : s.world.calls <+: _ := exchange.step_calls platform (config k) op
    have hscope : scopes _ := exchange.step_scope platform (config k) hop h.scope
    simp only [Server.step, hslot]
    refine ⟨hscope, fun k' => ?_, records ++ added, ?_, ?_⟩
    · by_cases hk : k' = k
      · rw [hk, slots_put, hsession', hclosed']
        exact hnext
      · obtain ⟨hsession', hclosed'⟩ := l.step_of_ne terminalEvent hk (.given op)
        rw [slots_put_of_ne s hk, hsession', hclosed']
        exact h.slots k'
    · rw [← List.append_assoc, ← hrecords]
      exact hadded
    · rw [hentries]
      refine List.rel_append (hentered.imp fun _ _ => Entered.mono hcalls) ?_
      by_cases hclosed : l.Closed k
      · rw [if_pos hclosed] at hreported ⊢
        cases hreported
        exact .nil
      · rw [if_neg hclosed] at hreported ⊢
        rw [Option.toList_map, List.forall₂_map_left_iff]
        exact hreported.imp fun _ _ hreported => ⟨_, hcalls, hreported⟩

/-- **In step with the ledger.**  Whatever comes next, the server does to its clones and
to what is emitted what the ledger does to its sessions and entries. -/
theorem Follows.step (h : Follows platform scopes base s l) {input : ServerInput κ M X B}
    (hinput : input.Within scopes) :
    Follows platform scopes base (s.step platform config input).2
      (l.run terminalEvent (s.act platform config input)) := by
  cases input with
  | call k request events => exact h.call k request events
  | operation k op => exact h.operation k hinput
  | pollReady k =>
    cases hslot : s.slots k with
    | called inner stage =>
      simp only [Server.step, hslot]
      exact h
    | ready inner =>
      simp only [Server.step, hslot]
      refine h.quiet (fun k' => ?_) (List.prefix_refl _) h.scope rfl
      by_cases hk : k' = k
      · have htracks := h.slots k
        rw [hslot] at htracks
        rw [hk, slots_put]
        exact htracks
      · rw [slots_put_of_ne s hk]
        exact h.slots k'
  | event k inside event =>
    obtain ⟨⟨⟩, world, hrun, hcalls, hscope, hemitted, -⟩ := dispatch_reports platform
      ((s.slots k).scope s.world.scope ++ inside) event s.world
    simp only [Server.step, hrun]
    exact h.quiet h.slots hcalls (hscope ▸ h.scope) hemitted
  | enterScope scope => exact h.quiet h.slots (List.prefix_refl _) hinput rfl

theorem Follows.run (h : Follows platform scopes base s l) (inputs : List (ServerInput κ M X B))
    (hinputs : ∀ input ∈ inputs, input.Within scopes) :
    Follows platform scopes base (s.run platform config inputs)
      (l.run terminalEvent (s.acts platform config inputs)) := by
  induction inputs generalizing s l with
  | nil => exact h
  | cons input inputs ih =>
    obtain ⟨hinput, hrest⟩ := List.forall_mem_cons.mp hinputs
    have hacts := l.run_append terminalEvent (s.act platform config input)
      ((s.step platform config input).2.acts platform config inputs)
    exact (congrArg (Follows platform scopes base _) hacts).mpr (ih (h.step hinput) hrest)

/-! ## The calls of a run -/

/-- What an input does with the exchange of a clone. -/
def operationOn (k : κ) : ServerInput κ M X B → Option Operation
  | .operation k' op => if k' = k then some op else none
  | _ => none

def operationsOn (k : κ) (inputs : List (ServerInput κ M X B)) : List Operation :=
  inputs.filterMap (operationOn k)

/-- The input calls the ready clone `k` with `request`, which gives out the future of
`exchange`. -/
def Gives (platform : Platform) (config : κ → ObservabilityConfig) (s : Server service κ)
    (input : ServerInput κ M X B) (k : κ) (request : Request M X B)
    (exchange : Exchange service.toInnerService) : Prop :=
  (∃ events, input = .call k request events) ∧ ∃ inner, s.slots k = .ready inner ∧
    ObservabilityService.call platform (config k) service.toInnerService inner request s.world =
      (.ok (), exchange)

/-- In a run the clone `k` was called with `request` in the world `called`, the call has
given out the future of `exchange`, and `ops` is what was done with it since. -/
def Calls (platform : Platform) (config : κ → ObservabilityConfig) (s : Server service κ)
    (inputs : List (ServerInput κ M X B)) (k : κ) (request : Request M X B) (called : World)
    (exchange : Exchange service.toInnerService) (ops : List Operation) : Prop :=
  ∃ before input after, inputs = before ++ input :: after ∧
    (s.run platform config before).world = called ∧
    (s.run platform config before).Gives platform config input k request exchange ∧
    ops = operationsOn k after

theorem acts_concat (s : Server service κ) (inputs : List (ServerInput κ M X B))
    (input : ServerInput κ M X B) :
    s.acts platform config (inputs ++ [input]) = s.acts platform config inputs ++
      (s.run platform config inputs).act platform config input := by
  induction inputs generalizing s with
  | nil => exact List.append_nil _
  | cons first inputs ih =>
    rw [List.cons_append, acts, ih, acts, List.append_assoc]
    rfl

theorem operationsOn_append (k : κ) (inputs inputs' : List (ServerInput κ M X B)) :
    operationsOn k (inputs ++ inputs') = operationsOn k inputs ++ operationsOn k inputs' := by
  rw [operationsOn, operationsOn, operationsOn, List.filterMap_append]

/-- A call of the run so far, or the one just made. -/
theorem calls_concat (inputs : List (ServerInput κ M X B)) (input : ServerInput κ M X B) (k : κ)
    (request : Request M X B) (called : World) (exchange : Exchange service.toInnerService)
    (ops : List Operation) :
    Calls platform config s (inputs ++ [input]) k request called exchange ops ↔
      (∃ ops', Calls platform config s inputs k request called exchange ops' ∧
        ops = ops' ++ operationsOn k [input]) ∨
      ops = [] ∧ (s.run platform config inputs).world = called ∧
        (s.run platform config inputs).Gives platform config input k request exchange := by
  constructor
  · rintro ⟨before, given, after, hinputs, hcalled, hgives, rfl⟩
    rcases List.eq_nil_or_concat after with rfl | ⟨after, last, rfl⟩
    · obtain ⟨rfl, hinput⟩ := List.append_inj' hinputs rfl
      cases hinput
      exact Or.inr ⟨rfl, hcalled, hgives⟩
    · rw [List.concat_eq_append, ← List.cons_append, ← List.append_assoc] at hinputs
      obtain ⟨rfl, hinput⟩ := List.append_inj' hinputs rfl
      cases hinput
      refine Or.inl ⟨_, ⟨before, given, after, rfl, hcalled, hgives, rfl⟩, ?_⟩
      rw [List.concat_eq_append, operationsOn_append]
  · rintro (⟨ops', ⟨before, given, after, rfl, hcalled, hgives, rfl⟩, rfl⟩ |
      ⟨rfl, hcalled, hgives⟩)
    · exact ⟨before, given, after ++ [input], by simp, hcalled, hgives,
        (operationsOn_append ..).symm⟩
    · exact ⟨inputs, input, [], rfl, hcalled, hgives, rfl⟩

omit [DecidableEq κ] [BodyError η] in
/-- A call that gives out a future opens a session. -/
theorem Gives.act {input : ServerInput κ M X B} {k : κ} {request : Request M X B}
    {exchange : Exchange service.toInnerService}
    (h : s.Gives platform config input k request exchange) :
    ∃ request' state, Prepared platform (config k) request s.world request' state exchange.world ∧
      exchange.stage = .future ⟨some state⟩ ∧
      s.act platform config input = [(k, .opened state (.ofExchange exchange))] := by
  obtain ⟨⟨events, rfl⟩, inner, hslot, hcalled⟩ := h
  obtain ⟨request', state, hprepared, harmed⟩ := armed_of_call hcalled (fun _ => True) trivial
  refine ⟨request', state, hprepared, harmed.stage_eq, ?_⟩
  simp only [Server.act, hslot, hcalled]
  rw [harmed.stage_eq]
  rfl

omit [DecidableEq κ] [BodyError η] in
theorem Gives.unique {input : ServerInput κ M X B} {k : κ} {request request' : Request M X B}
    {exchange exchange' : Exchange service.toInnerService}
    (h : s.Gives platform config input k request exchange)
    (h' : s.Gives platform config input k request' exchange') : exchange' = exchange := by
  obtain ⟨⟨events, rfl⟩, inner, hslot, hcalled⟩ := h
  obtain ⟨⟨_, hinput⟩, inner', hslot', hcalled'⟩ := h'
  cases hinput
  cases hslot.symm.trans hslot'
  cases hcalled.symm.trans hcalled'
  rfl

omit [BodyError η] in
/-- Nothing else opens a session, and only operations go on with it. -/
theorem sessionOf_act (acts : List (κ × AccessAct service)) {input : ServerInput κ M X B} {k : κ}
    (hgives : ∀ request exchange, ¬ s.Gives platform config input k request exchange)
    (hop : ∀ op, input ≠ .operation k op) :
    sessionOf k (acts ++ s.act platform config input) = sessionOf k acts := by
  have hnothing := congrArg (sessionOf k) (List.append_nil acts)
  cases input with
  | pollReady k' => exact hnothing
  | event k' inside event => exact hnothing
  | enterScope scope => exact hnothing
  | operation k' op =>
    have hk : k' ≠ k := by
      rintro rfl
      exact hop op rfl
    rw [Server.act, sessionOf_concat, if_neg hk]
  | call k' request events =>
    cases hslot : s.slots k' with
    | called inner stage => simp only [Server.act, hslot, List.append_nil]
    | ready inner =>
      obtain ⟨called, hcalled⟩ : ∃ called, ObservabilityService.call platform (config k')
        service.toInnerService inner request s.world = called := ⟨_, rfl⟩
      obtain ⟨result, exchange⟩ := called
      cases result with
      | error panic => simp only [Server.act, hslot, hcalled, List.append_nil]
      | ok =>
        have hk : k' ≠ k := by
          rintro rfl
          exact hgives request exchange ⟨⟨events, rfl⟩, inner, hslot, hcalled⟩
        obtain ⟨-, state, -, -, hact⟩ := Gives.act ⟨⟨events, rfl⟩, inner, hslot, hcalled⟩
        rw [hact, sessionOf_concat, if_neg hk]

variable (platform config)

/-- The ledger of a run from the start. -/
def ledger (clones : κ → service.State) (world : World) (inputs : List (ServerInput κ M X B)) :
    AccessLedger service κ :=
  Ledger.run terminalEvent .empty
    ((start clones world : Server service κ).acts platform config inputs)

theorem keeps_ledger (clones : κ → service.State) (world : World)
    (inputs : List (ServerInput κ M X B)) :
    Ledger.Keeps terminalEvent ((start clones world : Server service κ).acts platform config inputs)
      (ledger platform config clones world inputs) :=
  Ledger.run_spec (m := bareMachine service.toInnerService) terminalEvent _

theorem follows_ledger (clones : κ → service.State) {scopes : List SpanData → Prop} {world : World}
    (hscope : scopes world.scope) (inputs : List (ServerInput κ M X B))
    (hinputs : ∀ input ∈ inputs, input.Within scopes) :
    Follows platform scopes world.emitted
      ((start clones world : Server service κ).run platform config inputs)
      (ledger platform config clones world inputs) :=
  (Follows.start platform clones hscope).run inputs hinputs

/-- The same, whatever spans are entered. -/
theorem follows_ledger_all (clones : κ → service.State) (world : World)
    (inputs : List (ServerInput κ M X B)) :
    Follows platform (fun _ => True) world.emitted
      ((start clones world : Server service κ).run platform config inputs)
      (ledger platform config clones world inputs) :=
  follows_ledger platform config clones trivial inputs fun input _ => input.within_all

/-- A clone that is ready has no session. -/
theorem sessionOf_ready (clones : κ → service.State) (world : World)
    (inputs : List (ServerInput κ M X B)) {k : κ} {inner : service.State}
    (hready : ((start clones world : Server service κ).run platform config inputs).slots k =
      .ready inner) :
    sessionOf k ((start clones world : Server service κ).acts platform config inputs) = none := by
  have htracks := (follows_ledger_all platform config clones world inputs).slots k
  rw [hready] at htracks
  have hsession := (keeps_ledger platform config clones world inputs).session k
  exact Option.map_eq_none_iff.mp (hsession.symm.trans htracks.1)

/-- A session is that of a call. -/
def Opened (s : Server service κ) (inputs : List (ServerInput κ M X B)) (k : κ)
    (session : Session TerminalState (Bare service.toInnerService) Operation) : Prop :=
  ∃ request called exchange,
    Calls platform config s inputs k request called exchange session.inputs ∧
      exchange.stage = .future ⟨some session.label⟩ ∧ session.start = .ofExchange exchange

variable {platform config}

/-- One more input opens a session, goes on with it, or leaves it alone. -/
theorem opened_concat (inputs : List (ServerInput κ M X B)) (input : ServerInput κ M X B) (k : κ)
    (session : Session TerminalState (Bare service.toInnerService) Operation) :
    Opened platform config s (inputs ++ [input]) k session ↔
      (∃ ops, Opened platform config s inputs k { session with inputs := ops } ∧
        session.inputs = ops ++ operationsOn k [input]) ∨
      session.inputs = [] ∧ ∃ request exchange,
        (s.run platform config inputs).Gives platform config input k request exchange ∧
          exchange.stage = .future ⟨some session.label⟩ ∧
          session.start = .ofExchange exchange := by
  simp only [Opened, calls_concat]
  constructor
  · rintro ⟨request, called, exchange, ⟨ops, hcalls, hinputs⟩ | ⟨hinputs, -, hgives⟩, hrest⟩
    · exact Or.inl ⟨ops, ⟨request, called, exchange, hcalls, hrest⟩, hinputs⟩
    · exact Or.inr ⟨hinputs, request, exchange, hgives, hrest⟩
  · rintro (⟨ops, ⟨request, called, exchange, hcalls, hrest⟩, hinputs⟩ |
      ⟨hinputs, request, exchange, hgives, hrest⟩)
    · exact ⟨request, called, exchange, Or.inl ⟨ops, hcalls, hinputs⟩, hrest⟩
    · exact ⟨request, _, exchange, Or.inr ⟨hinputs, rfl, hgives⟩, hrest⟩

variable (platform config)

/-- **The sessions of a run are its calls.** -/
theorem sessionOf_acts (clones : κ → service.State) (world : World)
    (inputs : List (ServerInput κ M X B)) (k : κ)
    (session : Session TerminalState (Bare service.toInnerService) Operation) :
    sessionOf k ((start clones world : Server service κ).acts platform config inputs) =
        some session ↔ Opened platform config (start clones world) inputs k session := by
  induction inputs using List.reverseRecOn generalizing session with
  | nil =>
    refine iff_of_false nofun ?_
    rintro ⟨_, _, _, ⟨before, _, _, hinputs, -⟩, -⟩
    simp at hinputs
  | append_singleton inputs input ih =>
    rw [acts_concat, opened_concat]
    by_cases hgives : ∃ request exchange, ((start clones world : Server service κ).run platform
        config inputs).Gives platform config input k request exchange
    · obtain ⟨request, exchange, hgives⟩ := hgives
      obtain ⟨-, state, -, hstage, hact⟩ := hgives.act
      obtain ⟨-, inner, hslot, -⟩ := id hgives
      have hnone := sessionOf_ready platform config clones world inputs hslot
      rw [hact, sessionOf_concat, if_pos rfl, hnone]
      constructor
      · rintro ⟨⟩
        exact Or.inr ⟨rfl, request, exchange, hgives, hstage, rfl⟩
      · rintro (⟨ops, hopened, -⟩ | ⟨hinputs, request', exchange', hgives', hstage', hstart⟩)
        · cases hnone.symm.trans ((ih _).mpr hopened)
        · cases hgives.unique hgives'
          cases hstage.symm.trans hstage'
          obtain ⟨label, start, ops⟩ := session
          cases hstart
          cases hinputs
          rfl
    · rw [or_iff_left fun ⟨_, request, exchange, h, _⟩ => hgives ⟨request, exchange, h⟩]
      by_cases hop : ∃ op, input = .operation k op
      · obtain ⟨op, rfl⟩ := hop
        have hops : operationsOn k [(.operation k op : ServerInput κ M X B)] = [op] := by
          simp [operationsOn, operationOn]
        rw [Server.act, sessionOf_concat, if_pos rfl, hops]
        cases hbefore : sessionOf k (acts platform config (start clones world) inputs) with
        | none =>
          refine iff_of_false nofun ?_
          rintro ⟨ops, hopened, -⟩
          cases hbefore.symm.trans ((ih _).mpr hopened)
        | some before =>
          obtain ⟨label, start, ops⟩ := session
          constructor
          · rintro ⟨⟩
            exact ⟨before.inputs, (ih _).mp hbefore, rfl⟩
          · rintro ⟨ops', hopened, hinputs⟩
            cases hbefore.symm.trans ((ih _).mpr hopened)
            cases hinputs
            rfl
      · have hother : ∀ op, input ≠ .operation k op := fun op h => hop ⟨op, h⟩
        have hops : operationsOn k [input] = [] := by
          cases input with
          | operation k' op =>
            have hk : k' ≠ k := by
              rintro rfl
              exact hother op rfl
            simp [operationsOn, operationOn, hk]
          | _ => rfl
        rw [sessionOf_act _ (fun request exchange h => hgives ⟨request, exchange, h⟩) hother, ih,
          hops]
        simp only [List.append_nil, exists_eq_right']

/-- The state of a session was captured for its call, under the spans entered then. -/
theorem prepared_of_session (clones : κ → service.State) (scopes : List SpanData → Prop)
    {world : World} (hscope : scopes world.scope) {inputs : List (ServerInput κ M X B)}
    (hinputs : ∀ input ∈ inputs, input.Within scopes) {k : κ}
    {session : Session TerminalState (Bare service.toInnerService) Operation}
    (hsession : sessionOf k ((start clones world : Server service κ).acts platform config inputs) =
      some session) :
    ∃ request called exchange request',
      Calls platform config (start clones world) inputs k request called exchange session.inputs ∧
      Prepared platform (config k) request called request' session.label exchange.world ∧
      scopes called.scope := by
  obtain ⟨request, called, exchange, hcalls, hstage, -⟩ :=
    (sessionOf_acts platform config clones world inputs k session).mp hsession
  obtain ⟨before, input, after, rfl, rfl, hgives, -⟩ := id hcalls
  obtain ⟨request', state, hprepared, hstage', -⟩ := hgives.act
  cases hstage.symm.trans hstage'
  have hbefore := (follows_ledger platform config clones hscope before fun input h =>
    hinputs input (List.mem_append_left _ h)).scope
  exact ⟨request, _, exchange, request', hcalls, hprepared, hbefore⟩

/-- While the future lives its guard has the state of the session. -/
theorem session_of_future (clones : κ → service.State) (world : World)
    (inputs : List (ServerInput κ M X B)) {k : κ} {inner : service.State} {guard : TerminalGuard}
    (hslot : ((start clones world : Server service κ).run platform config inputs).slots k =
      .called inner (.future guard)) :
    ∃ session, sessionOf k ((start clones world : Server service κ).acts platform config inputs) =
      some session ∧ guard = ⟨some session.label⟩ := by
  have htracks := (follows_ledger_all platform config clones world inputs).slots k
  rw [hslot] at htracks
  obtain ⟨state, bare, hstate, hphase⟩ := htracks
  have hkeeps := (keeps_ledger platform config clones world inputs).session k
  obtain ⟨session, hsession, hlabel⟩ := Option.map_eq_some_iff.mp (hkeeps.symm.trans hstate)
  refine ⟨session, hsession, ?_⟩
  obtain rfl : session.label = state := congrArg Prod.fst hlabel
  obtain ⟨inner', phase⟩ := bare
  rcases hphase with ⟨-, hspent⟩ | ⟨-, harmed⟩
  · have hstage := (hspent world).stage
    cases phase <;> exact hstage.elim
  · have hstage := (harmed world trivial).stage
    cases phase with
    | future => exact congrArg TerminalGuard.mk hstage
    | _ => exact hstage.elim

end Server

end

/-! ## One record for each call -/

/-- **Each call has one record, whatever else is in flight.**  Calls, operations, the
application's own events and panics of any callback may come in any order; the writer of the
log returns. What the middleware has emitted then is the ledger of the run: one record for
each call that gave out a future and has had a terminal event, with the state captured for
that call and its first terminal event. A call that is gone has had one, and a call that
panicked has none. -/
theorem server_emits_once [DecidableEq κ] [Headers M V] [BodyError η] (platform : Platform)
    (config : κ → ObservabilityConfig) (service : ReadyService M X B ε δ η)
    (clones : κ → service.State) (world : World) (inputs : List (ServerInput κ M X B)) :
    let start : Server service κ := .start clones world
    let final := start.run platform config inputs
    let entries := (Server.ledger platform config clones world inputs).entries
    (∃ records, final.world.emitted = world.emitted ++ records ∧
      List.Forall₂ (Entered platform (fun _ => True) final.world.calls) entries records) ∧
    (entries.map Prod.fst).Nodup ∧
    (∀ k state event, (k, state, event) ∈ entries ↔ ∃ request called exchange ops,
      start.Calls platform config inputs k request called exchange ops ∧
        exchange.stage = .future ⟨some state⟩ ∧
        (bareMachine service.toInnerService).firstEvent terminalEvent (.ofExchange exchange) ops =
          some event) ∧
    (∀ k request called exchange ops,
      start.Calls platform config inputs k request called exchange ops →
        ∃ request' state,
          Prepared platform (config k) request called request' state exchange.world ∧
          exchange.stage = .future ⟨some state⟩) ∧
    ∀ k inner, final.slots k = .called inner .gone → k ∈ entries.map Prod.fst := by
  intro start final entries
  have hfollows := Server.follows_ledger_all platform config clones world inputs
  have hkeeps := Server.keeps_ledger platform config clones world inputs
  refine ⟨hfollows.emitted, hkeeps.once, fun k state event => ?_, ?_, fun k inner hgone => ?_⟩
  · constructor
    · intro hentry
      obtain ⟨session, hsession, rfl, hevent⟩ := (hkeeps.entry k state event).mp hentry
      obtain ⟨request, called, exchange, hcalls, hstage, hstart⟩ :=
        (Server.sessionOf_acts platform config clones world inputs k session).mp hsession
      rw [hstart] at hevent
      exact ⟨request, called, exchange, _, hcalls, hstage, hevent⟩
    · rintro ⟨request, called, exchange, ops, hcalls, hstage, hevent⟩
      refine (hkeeps.entry k state event).mpr ⟨⟨state, .ofExchange exchange, ops⟩, ?_, rfl, hevent⟩
      exact (Server.sessionOf_acts platform config clones world inputs k _).mpr
        ⟨request, called, exchange, hcalls, hstage, rfl⟩
  · rintro k request called exchange ops ⟨before, input, after, -, rfl, hgives, -⟩
    obtain ⟨request', state, hprepared, hstage, -⟩ := hgives.act
    exact ⟨request', state, hprepared, hstage⟩
  · have htracks := hfollows.slots k
    rw [hgone] at htracks
    obtain ⟨state, bare, -, ⟨hclosed, -⟩ | ⟨-, harmed⟩⟩ := htracks
    · exact hclosed
    · exact absurd rfl (harmed world trivial).stage_ne_gone

end AxumObservability
