import AxumObservability.Isolation
import AxumObservability.ReadBack

/-!
# The log of a server

One log serves all exchanges and the application. What is in it after a run is what the
middleware and the application have emitted, each in its order, and nothing else.

* `server_logs`: the log of a run, event by event;
* `server_reads_back`: the log of a run, read back by a reader.
-/

namespace AxumObservability

open Library.Json Library.Machines Library.Panics Library.Text

variable {κ M V X B ε δ η : Type} {service : ReadyService M X B ε δ η}

/-- Whose code emits an event. -/
inductive Origin where
  | middleware
  | application
  deriving DecidableEq

def eventsFrom (origin : Origin) (events : List (Origin × Dispatched)) : List Emitted :=
  (events.filter fun e => e.1 = origin).map fun e => e.2.emitted

theorem eventsFrom_append (origin : Origin) (events events' : List (Origin × Dispatched)) :
    eventsFrom origin (events ++ events') =
      eventsFrom origin events ++ eventsFrom origin events' := by
  rw [eventsFrom, List.filter_append, List.map_append, ← eventsFrom, ← eventsFrom]

theorem eventsFrom_tagged (origin origin' : Origin) (events : List Dispatched) :
    eventsFrom origin (events.map (Prod.mk origin')) =
      if origin' = origin then events.map Dispatched.emitted else [] := by
  induction events with
  | nil => simp [eventsFrom]
  | cons d events ih =>
    have hcons : eventsFrom origin ((d :: events).map (Prod.mk origin')) =
        eventsFrom origin [(origin', d)] ++ eventsFrom origin (events.map (Prod.mk origin')) :=
      eventsFrom_append origin [(origin', d)] _
    rw [hcons, ih]
    by_cases h : origin' = origin <;> simp [eventsFrom, h]

theorem mem_eventsFrom {origin : Origin} {events : List (Origin × Dispatched)}
    {d : Dispatched} (h : (origin, d) ∈ events) : d.emitted ∈ eventsFrom origin events :=
  List.mem_map.mpr ⟨_, List.mem_filter.mpr ⟨h, by simp⟩, rfl⟩

namespace Server

/-- From one server to a later one: the log has got `events` since, those of the middleware
are the ones it emitted and those of the application are `application`. -/
structure Reports (platform : Platform) (s s' : Server service κ) (application : List Emitted)
    (events : List (Origin × Dispatched)) : Prop where
  log : platform.Logs (events.map Prod.snd) s.world.log s'.world.log
  middleware : s'.world.emitted = s.world.emitted ++ eventsFrom .middleware events
  application : eventsFrom .application events = application

theorem Reports.trans {platform : Platform} {s s' s'' : Server service κ}
    {application application' : List Emitted} {events events' : List (Origin × Dispatched)}
    (h : Reports platform s s' application events)
    (h' : Reports platform s' s'' application' events') :
    Reports platform s s'' (application ++ application') (events ++ events') where
  log := by
    rw [List.map_append]
    exact h.log.append h'.log
  middleware := by rw [h'.middleware, h.middleware, eventsFrom_append, List.append_assoc]
  application := by rw [eventsFrom_append, h.application, h'.application]

/-- What the world reports, the middleware has emitted. -/
theorem Reports.ofWorld {platform : Platform} {s s' : Server service κ} {events : List Dispatched}
    (h : s.world.Reports platform s'.world events) :
    Reports platform s s' [] (events.map (Prod.mk .middleware)) where
  log := by
    rw [List.map_map]
    exact (congrArg (platform.Logs · _ _) (List.map_id events)).mpr h.log
  middleware := by rw [h.emitted, eventsFrom_tagged, if_pos rfl]
  application := by rw [eventsFrom_tagged, if_neg nofun]

/-- What the application emits, the middleware has not. -/
theorem Reports.ofApplication {platform : Platform} {s s' : Server service κ}
    {events : List Dispatched} (hemitted : s'.world.emitted = s.world.emitted)
    (hlog : platform.Logs events s.world.log s'.world.log) :
    Reports platform s s' (events.map Dispatched.emitted)
      (events.map (Prod.mk .application)) where
  log := by
    rw [List.map_map]
    exact (congrArg (platform.Logs · _ _) (List.map_id events)).mpr hlog
  middleware := by rw [hemitted, eventsFrom_tagged, if_neg nofun, List.append_nil]
  application := by rw [eventsFrom_tagged, if_pos rfl]

theorem Reports.quiet (platform : Platform) {s s' : Server service κ}
    (h : s'.world.emitted = s.world.emitted) (hlog : s'.world.log = s.world.log) :
    Reports platform s s' [] [] where
  log := hlog ▸ .nil platform s.world.log
  middleware := h.trans (List.append_nil _).symm
  application := rfl

section

variable [Headers M V]

/-- What the application emits at an input, under the spans its code runs in: in a call that
is the span of the request. -/
def emits (platform : Platform) (config : κ → ObservabilityConfig) (s : Server service κ) :
    ServerInput κ M X B → List Emitted
  | .call k request events =>
    match s.slots k, (prepare platform (config k) request).run s.world with
    | .ready _, .ok ((_, guard), world) =>
      events.map (ApplicationEvent.under (guard.span.inScope world.scope))
    | _, _ => []
  | .event k inside event => [⟨event, (s.slots k).scope s.world.scope ++ inside⟩]
  | _ => []

theorem emits_call (platform : Platform) (config : κ → ObservabilityConfig)
    (s : Server service κ) {k : κ} {inner : service.State} (hslot : s.slots k = .ready inner)
    {request request' : Request M X B} {state : TerminalState} {world : World}
    (hprepared : Prepared platform (config k) request s.world request' state world)
    (hrun : (prepare platform (config k) request).run s.world =
      .ok ((request', ⟨some state⟩), world)) (events : List ApplicationEvent) :
    s.emits platform config (.call k request events) =
      events.map (ApplicationEvent.under (state.span.inScope s.world.scope)) := by
  simp only [emits, hslot, hrun, hprepared.scope]
  rfl

end

variable [DecidableEq κ] [Headers M V] [BodyError η]

def applicationEvents (platform : Platform) (config : κ → ObservabilityConfig)
    (s : Server service κ) : List (ServerInput κ M X B) → List Emitted
  | [] => []
  | input :: inputs => s.emits platform config input ++
      applicationEvents platform config (s.step platform config input).2 inputs

/-- **A call of a ready clone** reports what the middleware does before it calls the inner
service, and then the events of the call. -/
theorem call_reports (platform : Platform) (config : κ → ObservabilityConfig)
    (s : Server service κ) {k : κ} {inner : service.State} (hslot : s.slots k = .ready inner)
    (request : Request M X B) (events : List ApplicationEvent) : ∃ reported,
      Reports platform s (s.step platform config (.call k request events)).2
        (s.emits platform config (.call k request events)) reported := by
  obtain ⟨reported, hreported⟩ := ObservabilityService.call_reaches platform (config k)
    service.toInnerService inner request s.world
  obtain ⟨request', state, world, hprepared, hrun, hcalled, -, -, hemitted, dispatched,
    hdispatched, hlog⟩ := callEmitting_spec platform (config k) service.toInnerService inner
      request events s.world
  obtain ⟨called, hcall⟩ : ∃ called, ObservabilityService.call platform (config k)
    service.toInnerService inner request s.world = called := ⟨_, rfl⟩
  rw [hcall] at hreported hprepared hrun hcalled hlog
  obtain ⟨result, exchange⟩ := called
  -- halfway, where the inner service begins to emit
  let s' : Server service κ := { s with world := exchange.world }
  have hmiddleware : Reports platform s s' [] (reported.map (Prod.mk .middleware)) :=
    .ofWorld hreported
  have hquiet : world.emitted = s'.world.emitted := hemitted.trans hprepared.emitted.symm
  have happlication : Reports platform s'
      (s.step platform config (.call k request events)).2
      (s.emits platform config (.call k request events))
      (dispatched.map (Prod.mk .application)) := by
    rw [emits_call platform config s hslot hprepared hrun, ← hdispatched]
    simp only [Server.step, hslot, hcalled]
    cases result <;> exact .ofApplication hquiet hlog
  exact ⟨_, hmiddleware.trans happlication⟩

theorem step_reports (platform : Platform) (config : κ → ObservabilityConfig)
    (s : Server service κ) (input : ServerInput κ M X B) : ∃ events,
      Reports platform s (s.step platform config input).2 (s.emits platform config input)
        events := by
  cases input with
  | pollReady k =>
    refine ⟨[], .quiet platform ?_ ?_⟩ <;> cases hslot : s.slots k <;>
      simp only [Server.step, hslot, world_put]
  | enterScope scope => exact ⟨[], .quiet platform rfl rfl⟩
  | call k request events =>
    cases hslot : s.slots k with
    | called inner stage =>
      simp only [Server.step, emits, hslot]
      exact ⟨[], .quiet platform rfl rfl⟩
    | ready inner => exact s.call_reports platform config hslot request events
  | operation k op =>
    cases hslot : s.slots k with
    | ready inner =>
      simp only [Server.step, hslot]
      exact ⟨[], .quiet platform rfl rfl⟩
    | called inner stage =>
      by_cases henter : ∃ scope, op = .enterScope scope
      · obtain ⟨scope, rfl⟩ := henter
        simp only [Server.step, hslot]
        exact ⟨[], .quiet platform rfl rfl⟩
      · let exchange : Exchange service.toInnerService := ⟨inner, stage, s.world⟩
        obtain ⟨events, hevents⟩ := exchange.step_reaches platform (config k) op
          fun scope h => henter ⟨scope, h⟩
        simp only [Server.step, hslot]
        exact ⟨_, .ofWorld hevents⟩
  | event k inside event =>
    obtain ⟨⟨⟩, world, hrun, -, -, hemitted, number, timestamp, hlog⟩ := dispatch_reports platform
      ((s.slots k).scope s.world.scope ++ inside) event s.world
    simp only [Server.step, hrun]
    have hreports : Reports platform s { s with world := world }
        ([⟨⟨event, _⟩, number, timestamp⟩].map Dispatched.emitted) _ :=
      .ofApplication hemitted hlog
    exact ⟨_, hreports⟩

theorem run_reports (platform : Platform) (config : κ → ObservabilityConfig)
    (s : Server service κ) (inputs : List (ServerInput κ M X B)) : ∃ events,
      Reports platform s (s.run platform config inputs)
        (s.applicationEvents platform config inputs) events := by
  induction inputs generalizing s with
  | nil => exact ⟨[], .quiet platform rfl rfl⟩
  | cons input inputs ih =>
    obtain ⟨events, hstep⟩ := s.step_reports platform config input
    obtain ⟨events', hrun⟩ := ih (s.step platform config input).2
    exact ⟨events ++ events', hstep.trans hrun⟩

end Server

/-- **The log of a run.**  Whatever the calls, operations, events and panics, and whatever
the writer answers, the middleware and the application emit the records of the ledger and the
events of the application: each once, those of either in their order and under the spans they
were emitted in, and nothing else. What the subscriber passes on of them the layer handles,
one after another, each at a reading of the clock. A writer that panics is left out. -/
theorem server_logs [DecidableEq κ] [Headers M V] [BodyError η] (platform : Platform)
    (config : κ → ObservabilityConfig) (service : ReadyService M X B ε δ η)
    (clones : κ → service.State) (world : World) (inputs : List (ServerInput κ M X B)) :
    let start : Server service κ := .start clones world
    let final := start.run platform config inputs
    ∃ events : List (Origin × Dispatched),
      platform.Logs (events.map Prod.snd) world.log final.world.log ∧
      final.world.emitted = world.emitted ++ eventsFrom .middleware events ∧
      List.Forall₂ (Entered platform (fun _ => True) final.world.calls)
        (Server.ledger platform config clones world inputs).entries
        (eventsFrom .middleware events) ∧
      eventsFrom .application events = start.applicationEvents platform config inputs := by
  intro start final
  obtain ⟨events, hreports⟩ := start.run_reports platform config inputs
  obtain ⟨records, hrecords, hentered⟩ :=
    (Server.follows_ledger_all platform config clones world inputs).emitted
  obtain rfl := List.append_cancel_left (hreports.middleware.symm.trans hrecords)
  exact ⟨events, hreports.log, hreports.middleware, hentered, hreports.application⟩

/-! ## Reading it back -/

theorem registered_append {scope scope' : List SpanData} (h : Registered scope)
    (h' : Registered scope') : Registered (scope ++ scope') :=
  List.forall_mem_append.mpr ⟨h, h'⟩

/-- The layer has seen the spans around the code of a request, if it has seen those that
were entered. -/
theorem registered_inScope (platform : Platform) {outer current : List SpanData}
    (houter : Registered outer) (hcurrent : Registered current) (context : RequestContext) :
    Registered ((requestSpan platform outer context).inScope current) := by
  rw [requestSpan]
  split
  · refine registered_append houter ?_
    rintro _ (_ | ⟨_, ⟨⟩⟩)
    exact ⟨requestAttributes context, rfl⟩
  · exact hcurrent

theorem TerminalState.atEvent_kept (state : TerminalState) (event : TerminalEvent M X) :
    (state.atEvent event).span = state.span ∧
      (state.atEvent event).requestContext = state.requestContext := by
  cases event <;> exact ⟨rfl, rfl⟩

theorem exists_of_mem_right {α β : Type} {R : α → β → Prop} {l : List α} {l' : List β}
    (h : List.Forall₂ R l l') {b : β} (hb : b ∈ l') : ∃ a ∈ l, R a b := by
  induction h with
  | nil => cases hb
  | cons hr _ ih =>
    rcases List.mem_cons.mp hb with rfl | hb
    · exact ⟨_, List.mem_cons_self, hr⟩
    · obtain ⟨a, ha, hr⟩ := ih hb
      exact ⟨a, List.mem_cons_of_mem _ ha, hr⟩

/-- A record is a terminal event of its context. -/
theorem TerminalState.Reported.isTerminalEvent {state : TerminalState} {platform : Platform}
    {outcome : TerminalOutcome} {calls : List Call} {scope : List SpanData} {emitted : Emitted}
    (h : state.Reported platform outcome calls scope emitted) :
    IsTerminalEvent platform.serde platform.float state.requestContext emitted.event := by
  obtain ⟨serialized, htext, rfl⟩ := h
  exact ⟨state, outcome, _, _, _, serialized, rfl, htext, rfl⟩

namespace Server

section

variable [DecidableEq κ] [Headers M V] [BodyError η]

theorem mem_applicationEvents {platform : Platform} {config : κ → ObservabilityConfig}
    {s : Server service κ} {inputs : List (ServerInput κ M X B)} {emitted : Emitted}
    (h : emitted ∈ s.applicationEvents platform config inputs) :
    ∃ before input after, inputs = before ++ input :: after ∧
      emitted ∈ (s.run platform config before).emits platform config input := by
  induction inputs generalizing s with
  | nil => cases h
  | cons input inputs ih =>
    rcases List.mem_append.mp h with h | h
    · exact ⟨[], input, inputs, rfl, h⟩
    · obtain ⟨before, input', after, rfl, hmem⟩ := ih h
      exact ⟨input :: before, input', after, rfl, hmem⟩

variable {platform : Platform} {config : κ → ObservabilityConfig} {clones : κ → service.State}
  {world : World} {inputs : List (ServerInput κ M X B)}

/-- The records of a run are terminal events, under spans that the layer has seen. -/
theorem genuine_of_record (hscope : Registered world.scope)
    (hinputs : ∀ input ∈ inputs, input.Within Registered) {records : List Emitted}
    (hrecords : ((start clones world : Server service κ).run platform config inputs).world.emitted =
      world.emitted ++ records) {emitted : Emitted} (hmem : emitted ∈ records) :
    Genuine platform.serde platform.float emitted.event ∧ Registered emitted.scope := by
  obtain ⟨records', hrecords', hentered⟩ :=
    (follows_ledger platform config clones hscope inputs hinputs).emitted
  obtain rfl := List.append_cancel_left (hrecords.symm.trans hrecords')
  obtain ⟨⟨k, state, event⟩, hentry, _, -, scope, hcurrent, hreported⟩ :=
    exists_of_mem_right hentered hmem
  refine ⟨Or.inr ⟨_, hreported.isTerminalEvent⟩, ?_⟩
  obtain ⟨session, hsession, rfl, -⟩ :=
    ((keeps_ledger platform config clones world inputs).entry k state event).mp hentry
  obtain ⟨_, called, _, _, -, hprepared, hcalled⟩ :=
    prepared_of_session platform config clones _ hscope hinputs hsession
  obtain ⟨_, -, rfl⟩ := hreported
  dsimp only
  rw [(session.label.atEvent_kept event).1, hprepared.span]
  exact registered_inScope platform hcalled hcurrent _

omit [DecidableEq κ] [Headers M V] [BodyError η] in
/-- Inside the clone's code, spans that the layer has seen lie around the ones it enters. -/
theorem registered_scope {slot : Slot service} {current : List SpanData}
    (hcurrent : Registered current)
    (hguard : ∀ inner guard, slot = .called inner (.future guard) →
      Registered (guard.span.inScope current)) : Registered (slot.scope current) := by
  match slot with
  | .called inner (.future guard) => exact hguard inner guard rfl
  | .called inner (.body body) => exact hcurrent
  | .called inner .gone => exact hcurrent
  | .ready inner => exact hcurrent

/-- What the application emits at an input has no record, and lies under spans that the layer
has seen. -/
theorem genuine_of_emits (hscope : Registered world.scope) (before : List (ServerInput κ M X B))
    (hbefore : ∀ input ∈ before, input.Within Registered) {input : ServerInput κ M X B}
    (happlication : ∀ e ∈ input.events,
      Registered e.inside ∧ e.event.metadata.modulePath ≠ some middlewareModule)
    {emitted : Emitted}
    (hmem : emitted ∈ ((start clones world : Server service κ).run platform config before).emits
      platform config input) :
    Genuine platform.serde platform.float emitted.event ∧ Registered emitted.scope := by
  have hcurrent := (follows_ledger platform config clones hscope before hbefore).scope
  cases input with
  | event k inside event =>
    obtain rfl := List.mem_singleton.mp hmem
    obtain ⟨hinside, hmodule⟩ := happlication ⟨inside, event⟩ List.mem_cons_self
    refine ⟨Or.inl hmodule, registered_append (registered_scope hcurrent ?_) hinside⟩
    intro inner guard hslot
    obtain ⟨session, hsession, rfl⟩ := session_of_future platform config clones world before hslot
    obtain ⟨_, called, _, _, -, hprepared, hcalled⟩ :=
      prepared_of_session platform config clones _ hscope hbefore hsession
    rw [TerminalGuard.span, Option.bind_some, hprepared.span]
    exact registered_inScope platform hcalled hcurrent _
  | call k request events =>
    cases hslot : ((start clones world : Server service κ).run platform config before).slots k with
    | called inner stage => simp only [emits, hslot, List.not_mem_nil] at hmem
    | ready inner =>
      obtain ⟨⟨request', guard⟩, w, hrun, state, rfl, hprepared⟩ := prepare_spec platform (config k)
        request ((start clones world : Server service κ).run platform config before).world
      rw [emits_call platform config _ hslot hprepared hrun] at hmem
      obtain ⟨e, he, rfl⟩ := List.mem_map.mp hmem
      obtain ⟨hinside, hmodule⟩ := happlication e he
      refine ⟨Or.inl hmodule, registered_append ?_ hinside⟩
      rw [hprepared.span]
      exact registered_inScope platform hcurrent hcurrent _
  | _ => cases hmem

end

end Server

/-- **The log of a server reads back.**  The codec writes an object in one line, the writer
takes every line and the clock can be formatted. Then whatever is in flight, and however the
applications' callbacks enrich, fail or panic, a reader who splits the log into lines gets the
objects of all events that the subscriber passes on, in order and nothing else: one for each
entry of the ledger and one for each event of the application. -/
theorem server_reads_back [DecidableEq κ] [Headers M V] [BodyError η] (platform : Platform)
    (config : κ → ObservabilityConfig) (service : ReadyService M X B ε δ η)
    (clones : κ → service.State) (world : World) (inputs : List (ServerInput κ M X B))
    (hserde : platform.serde.Compact) (hwriter : platform.layer.writer = .whole)
    (htime : ∀ calls, (platform.timestamp calls).isOk = true) (hlog : world.log = .empty)
    (hscope : Registered world.scope) (hinputs : ∀ input ∈ inputs, input.Within Registered)
    (happlication : ∀ input ∈ inputs, ∀ e ∈ input.events,
      Registered e.inside ∧ e.event.metadata.modulePath ≠ some middlewareModule) :
    let start : Server service κ := .start clones world
    let final := start.run platform config inputs
    ∃ events : List (Origin × Dispatched),
      List.Forall₂ (Entered platform Registered final.world.calls)
        (Server.ledger platform config clones world inputs).entries
        (eventsFrom .middleware events) ∧
      eventsFrom .application events = start.applicationEvents platform config inputs ∧
      List.Forall₂ (fun d object =>
          ReadsAs platform.serde platform.float platform.layer.fieldConvention d.logged object)
        ((events.map Prod.snd).filter fun d => platform.enabled d.emitted.event.metadata)
        (readLines platform.serde final.world.log.sink) := by
  intro start final
  obtain ⟨events, hreports⟩ := start.run_reports platform config inputs
  obtain ⟨records, hrecords, hentered⟩ :=
    (Server.follows_ledger platform config clones hscope inputs hinputs).emitted
  obtain rfl := List.append_cancel_left (hreports.middleware.symm.trans hrecords)
  refine ⟨events, hentered, hreports.application, ?_⟩
  have hgenuine : ∀ d ∈ events.map Prod.snd,
      Genuine platform.serde platform.float d.emitted.event ∧ Registered d.emitted.scope := by
    intro d hd
    obtain ⟨⟨origin, d⟩, hmem, rfl⟩ := List.mem_map.mp hd
    cases origin with
    | middleware => exact Server.genuine_of_record hscope hinputs hrecords (mem_eventsFrom hmem)
    | application =>
      have hemitted : d.emitted ∈ start.applicationEvents platform config inputs := by
        rw [← hreports.application]
        exact mem_eventsFrom hmem
      obtain ⟨before, input, after, rfl, hemits⟩ := Server.mem_applicationEvents hemitted
      exact Server.genuine_of_emits hscope before
        (fun input h => hinputs input (List.mem_append_left _ h))
        (happlication input (by simp)) hemits
  have hpassed : ∀ e ∈ platform.passed (events.map Prod.snd),
      (Genuine platform.serde platform.float e.event ∧ Registered e.scope) ∧
        e.timestamp.isOk = true := by
    intro e he
    obtain ⟨d, hd, rfl⟩ := List.mem_map.mp he
    have hmem := (List.mem_filter.mp hd).1
    obtain ⟨calls, hcalls, -⟩ := hreports.log.stamped d hmem
    exact ⟨hgenuine d hmem, (congrArg Except.isOk hcalls).trans (htime calls)⟩
  have hrun := hreports.log.handled
  rw [show start.world.log = .empty from hlog] at hrun
  obtain ⟨-, hread⟩ := readLines_sink platform.serde hserde platform.float platform.layer hwriter _
    (fun e he => (hpassed e he).1) _ hrun
  rw [List.filter_eq_self.mpr fun e he => (hpassed e he).2, Platform.passed,
    List.forall₂_map_left_iff] at hread
  exact hread

/-! ### Two greetings and an event -/

def twoGreetings : List (ServerInput Bool HeaderList Unit Unit) :=
  .call true greetingRequest greetingEvents :: greetingTurns

theorem twoGreetings_within (scopes : List SpanData → Prop) :
    ∀ input ∈ twoGreetings, input.Within scopes := by
  intro input hinput
  simp only [twoGreetings, greetingTurns, List.mem_cons, List.not_mem_nil, or_false] at hinput
  rcases hinput with rfl | rfl | rfl | rfl | rfl | rfl | rfl | rfl <;> trivial

/-- The events of the greetings come from the application, in no spans of their own. -/
theorem twoGreetings_events {scopes : List SpanData → Prop} (hnil : scopes []) :
    ∀ input ∈ twoGreetings, ∀ e ∈ input.events,
      scopes e.inside ∧ e.event.metadata.modulePath ≠ some middlewareModule := by
  intro input hinput e he
  have hevent : e = ⟨[], applicationEvent⟩ := by
    simp only [twoGreetings, greetingTurns, List.mem_cons, List.not_mem_nil, or_false] at hinput
    rcases hinput with rfl | rfl | rfl | rfl | rfl | rfl | rfl | rfl <;>
      simp only [ServerInput.events, greetingEvents, List.mem_singleton, List.not_mem_nil] at he <;>
      exact he
  rw [hevent]
  exact ⟨hnil, by decide⟩

theorem server_reads_back_greetings :
    ∃ events : List (Origin × Dispatched),
      eventsFrom .application events =
        (.start (fun _ => (0 : Nat)) .initial : Server greetingServer Bool).applicationEvents
          .reference (fun _ => .default .reference) twoGreetings ∧
      List.Forall₂ (fun d object => ReadsAs .reference .whole .generic (Dispatched.logged d) object)
        ((events.map Prod.snd).filter fun d => Platform.reference.enabled d.emitted.event.metadata)
        (readLines .reference ((.start (fun _ => (0 : Nat)) .initial : Server greetingServer
          Bool).run .reference (fun _ => .default .reference) twoGreetings).world.log.sink) := by
  have hnil : Registered [] := nofun
  obtain ⟨events, -, hevents, hread⟩ := server_reads_back .reference
    (fun _ => .default .reference) greetingServer (fun _ : Bool => (0 : Nat)) .initial twoGreetings
    SerdeJson.compact_reference rfl (fun _ => rfl) rfl hnil (twoGreetings_within _)
    (twoGreetings_events hnil)
  exact ⟨events, hevents, hread⟩

end AxumObservability
