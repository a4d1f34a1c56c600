import AxumObservability.Framing
import AxumObservability.Lifecycle

/-!
# What reaches the log

Every effect of the middleware moves the world forward: it makes calls, leaves the
spans around it as they are, and hands each event that it emits to the subscriber,
which passes it on to the JSON layer or not.

* `dispatch_reports`: what the layer gets of one event;
* `prepare_moves`, `finish_moves`, `respond_moves`, `observe_moves`: no effect does
  anything else to the log;
* `Exchange.step_reaches`, `ObservabilityService.call_reaches`: nor does an exchange.
-/

namespace AxumObservability

open Library.Json Library.Panics Library.Text

/-! ## Reports -/

/-- An event with its number and the reading of the wall clock that the layer takes for it. -/
structure Dispatched where
  emitted : Emitted
  number : Nat
  timestamp : Except InternalFailure String

def Dispatched.logged (d : Dispatched) : LoggedEvent :=
  ⟨d.number, d.timestamp, d.emitted.scope, d.emitted.event⟩

/-- What the layer gets of a sequence of events: those the subscriber does not filter
out. -/
def Platform.passed (platform : Platform) (events : List Dispatched) : List LoggedEvent :=
  (events.filter fun d => platform.enabled d.emitted.event.metadata).map Dispatched.logged

/-- The layer has handled `events`, numbered by the calls made before, at readings of the
platform's clock, and nothing else has happened to the log. -/
structure Platform.Logs (platform : Platform) (events : List Dispatched) (log log' : LogOutput) :
    Prop where
  stamped : ∀ d ∈ events, ∃ calls, d.timestamp = platform.timestamp calls ∧
    d.number = calls.length
  handled : platform.layer.onEvents platform.serde platform.float (platform.passed events) log =
    .ok log'

theorem Platform.passed_append (platform : Platform) (events events' : List Dispatched) :
    platform.passed (events ++ events') = platform.passed events ++ platform.passed events' := by
  rw [Platform.passed, List.filter_append, List.map_append, ← Platform.passed, ← Platform.passed]

theorem Platform.Logs.append {platform : Platform} {events events' : List Dispatched}
    {log log' log'' : LogOutput} (h : platform.Logs events log log')
    (h' : platform.Logs events' log' log'') : platform.Logs (events ++ events') log log'' where
  stamped := List.forall_mem_append.mpr ⟨h.stamped, h'.stamped⟩
  handled := by
    rw [Platform.passed_append, onEvents_append, h.handled]
    exact h'.handled

theorem Platform.Logs.nil (platform : Platform) (log : LogOutput) : platform.Logs [] log log where
  stamped := nofun
  handled := rfl

/-- From one world to a later one: more calls, and the reports of some events that the
package has emitted. -/
structure World.Reports (platform : Platform) (w w' : World) (events : List Dispatched) :
    Prop where
  calls : w.calls <+: w'.calls
  scope : w'.scope = w.scope
  emitted : w'.emitted = w.emitted ++ events.map Dispatched.emitted
  log : platform.Logs events w.log w'.log

def World.Reaches (platform : Platform) (w w' : World) : Prop :=
  ∃ events, w.Reports platform w' events

theorem World.Reports.trans {platform : Platform} {w w' w'' : World}
    {events events' : List Dispatched} (h : w.Reports platform w' events)
    (h' : w'.Reports platform w'' events') : w.Reports platform w'' (events ++ events') where
  calls := h.calls.trans h'.calls
  scope := h'.scope.trans h.scope
  emitted := by rw [h'.emitted, h.emitted, List.map_append, List.append_assoc]
  log := h.log.append h'.log

/-- Nothing is reported. -/
theorem World.Reports.quiet (platform : Platform) {w w' : World} (hcalls : w.calls <+: w'.calls)
    (hscope : w'.scope = w.scope) (hemitted : w'.emitted = w.emitted) (hlog : w'.log = w.log) :
    w.Reports platform w' [] where
  calls := hcalls
  scope := hscope
  emitted := by rw [hemitted, List.map_nil, List.append_nil]
  log := hlog ▸ .nil platform w.log

instance (platform : Platform) : IsPreorder World (World.Reaches platform) where
  refl w := ⟨[], .quiet platform (List.prefix_refl _) rfl rfl rfl⟩
  trans _ _ _ h h' := by
    obtain ⟨events, h⟩ := h
    obtain ⟨events', h'⟩ := h'
    exact ⟨events ++ events', h.trans h'⟩

/-! ## Effects -/

variable {platform : Platform} {config : ObservabilityConfig}

theorem catchUnwind_moves {α : Type} (platform : Platform) (call : Call)
    (answer : List Call → Result α) :
    Moves (World.Reaches platform) (catchUnwind call answer) := by
  rintro w r w' ⟨⟩
  exact ⟨[], .quiet platform (List.prefix_append _ _) rfl rfl rfl⟩

theorem invoke_moves {α : Type} (platform : Platform) (call : Call) (answer : List Call → α) :
    Moves (World.Reaches platform) (invoke call answer) := by
  rintro w r w' ⟨⟩
  exact ⟨[], .quiet platform (List.prefix_append _ _) rfl rfl rfl⟩

/-- **What the layer gets of one event.**  It is handled there, unless the subscriber
filters it out. -/
theorem dispatch_reports (platform : Platform) (scope : List SpanData) (event : Event) (w : World) :
    Returns (dispatch platform scope event) w fun _ w' =>
      w.calls <+: w'.calls ∧ w'.scope = w.scope ∧ w'.emitted = w.emitted ∧
      ∃ number timestamp,
        platform.Logs [⟨⟨event, scope⟩, number, timestamp⟩] w.log w'.log := by
  unfold dispatch
  split
  · rename_i henabled
    apply Returns.get_bind
    refine (invoke_spec .nowUtc platform.timestamp w).bind fun timestamp w' ht => ?_
    obtain ⟨rfl, rfl⟩ := ht
    obtain ⟨log, hlog⟩ := exists_onEvent platform.serde platform.float platform.layer
      w.calls.length (platform.timestamp w.calls) scope event w.log
    refine ⟨(), { w.called .nowUtc with log := log }, ?_, List.prefix_append _ _, rfl, rfl,
      w.calls.length, platform.timestamp w.calls, ?_, ?_⟩
    · simp only [StateT.run_bind, StateT.run_get, pure_eq_ok, ok_bind, called_log, hlog]
      rfl
    · exact List.forall_mem_singleton.mpr ⟨w.calls, rfl, rfl⟩
    · rw [Platform.passed, List.filter_singleton, henabled]
      exact congrArg (· >>= _) hlog
  · rename_i henabled
    refine Returns.pure ⟨List.prefix_refl _, rfl, rfl, w.calls.length,
      platform.timestamp w.calls, List.forall_mem_singleton.mpr ⟨w.calls, rfl, rfl⟩, ?_⟩
    rw [Platform.passed, List.filter_singleton, Bool.eq_false_of_not_eq_true henabled]
    rfl

theorem emitAccess_moves (platform : Platform) (scope : List SpanData) (level : Level)
    (serialized : String) :
    Moves (World.Reaches platform) (emitAccess platform scope level serialized) := by
  intro w _ w' hrun
  let event := accessEvent level serialized
  obtain ⟨_, w₁, hrun₁, hcalls, hscope, hemitted, number, timestamp, hlog⟩ :=
    dispatch_reports platform scope event { w with emitted := w.emitted ++ [⟨event, scope⟩] }
  obtain rfl : w₁ = w' := (Prod.mk.inj (Except.ok.inj (hrun₁.symm.trans hrun))).2
  exact ⟨[⟨⟨event, scope⟩, number, timestamp⟩], hcalls, hscope, hemitted, hlog⟩

/-! ### The guard -/

theorem terminalLevel_moves (platform : Platform) (state : TerminalState)
    (outcome : TerminalOutcome) :
    Moves (World.Reaches platform) (state.terminalLevel outcome) := by
  cases outcome with
  | completed =>
    refine (Moves.lift _).bind fun status => ?_
    exact (catchUnwind_moves platform _ _).bind fun _ => Moves.pure _
  | serviceError => exact Moves.pure _
  | bodyError => exact Moves.pure _
  | responseDropped => exact Moves.pure _

theorem finish_moves (platform : Platform) (guard : TerminalGuard) (outcome : TerminalOutcome) :
    Moves (World.Reaches platform) (guard.finish platform outcome) := by
  unfold TerminalGuard.finish
  cases guard.state with
  | none => exact Moves.pure _
  | some state =>
    refine (terminalLevel_moves platform state outcome).bind fun level => ?_
    refine (catchUnwind_moves platform _ _).bind fun finished => ?_
    refine (catchUnwind_moves platform _ _).bind fun enrichment => ?_
    refine (Moves.lift _).bind fun serialized => Moves.get.bind fun w => ?_
    exact (emitAccess_moves platform _ level serialized).bind fun _ => Moves.pure _

/-! ### Before the call -/

theorem acceptsRequestId_moves (platform : Platform) (config : ObservabilityConfig)
    (value : String) : Moves (World.Reaches platform) (acceptsRequestId config value) := by
  unfold acceptsRequestId
  cases config.validator with
  | none => exact Moves.pure _
  | some validator => exact (catchUnwind_moves platform _ _).bind fun _ => Moves.pure _

theorem generateRequestId_moves (platform : Platform) (config : ObservabilityConfig) :
    Moves (World.Reaches platform) (generateRequestId platform config) := by
  refine (catchUnwind_moves platform _ _).bind fun value => ?_
  cases value.toOption.join with
  | some value => exact Moves.pure _
  | none => exact (invoke_moves platform _ _).bind fun _ => Moves.lift _

theorem chooseRequestId_moves (platform : Platform) (config : ObservabilityConfig)
    (values : List Bytes) :
    Moves (World.Reaches platform) (chooseRequestId platform config values) := by
  have hgenerate := generateRequestId_moves platform config
  unfold chooseRequestId
  dsimp only
  split
  · split
    · exact hgenerate
    · refine (acceptsRequestId_moves platform config _).bind fun accepted => ?_
      cases accepted with
      | false => exact hgenerate
      | true =>
        simp only [↓reduceIte]
        split
        · exact Moves.pure _
        · exact hgenerate
  · exact hgenerate

section

variable {M V X B ε δ η : Type} [Headers M V]

theorem prepare_moves (platform : Platform) (config : ObservabilityConfig)
    (request : Request M X B) :
    Moves (World.Reaches platform) (prepare platform config request) := by
  have hselect : Moves (World.Reaches platform) (selectRequestId platform config request.headers) :=
    (chooseRequestId_moves platform config _).bind fun _ =>
      (Moves.lift _).bind fun _ => Moves.pure _
  have hstarted : Moves (World.Reaches platform) (startedAt platform config) := by
    refine (catchUnwind_moves platform _ _).bind fun reading => ?_
    cases reading with
    | ok started => exact Moves.pure _
    | error panic => exact invoke_moves platform _ _
  refine hselect.bind fun _ => (Moves.lift _).bind fun _ => Moves.get.bind fun _ => ?_
  exact hstarted.bind fun _ => Moves.pure _

/-! ### After the call -/

theorem respond_moves (platform : Platform) (config : ObservabilityConfig)
    (guard : TerminalGuard) (answer : Except ε (Response M X)) (ended : Bool) :
    Moves (World.Reaches platform) (respond platform config guard answer ended) := by
  cases answer with
  | error error =>
    refine (finish_moves platform guard .serviceError).bind fun guard => ?_
    exact (finish_moves platform guard .responseDropped).bind fun _ => Moves.pure _
  | ok response =>
    have hheaders : Moves (World.Reaches platform)
        (identifiedHeaders config (guard.setHead response) response.headers) := by
      unfold identifiedHeaders
      split
      · exact (Moves.lift _).bind fun _ => (Moves.lift _).bind fun _ => Moves.pure _
      · exact Moves.pure _
    refine hheaders.bind fun _ => ?_
    cases ended with
    | false => exact (Moves.pure _).bind fun _ => Moves.pure _
    | true =>
      exact ((finish_moves platform _ .completed).bind fun _ => Moves.pure _).bind fun _ =>
        Moves.pure _

omit [Headers M V] in
theorem observe_moves (platform : Platform) (body : ObservedBody)
    (polled : Poll (Option (Except η δ))) (ended : Bool) :
    Moves (World.Reaches platform) (body.observe platform polled ended) := by
  have hfinish : ∀ outcome, Moves (World.Reaches platform)
      (do return (⟨← body.guard.finish platform outcome⟩ : ObservedBody)) :=
    fun outcome => (finish_moves platform body.guard outcome).bind fun _ => Moves.pure _
  match polled, ended with
  | .pending, _ => exact Moves.pure _
  | .ready none, _ => exact hfinish .completed
  | .ready (some (.error _)), _ => exact hfinish .bodyError
  | .ready (some (.ok _)), true => exact hfinish .completed
  | .ready (some (.ok _)), false => exact Moves.pure _

/-! ## Exchanges -/

omit [Headers M V] in
theorem settle_reaches (service : InnerService M X B ε δ η) {α : Type} {effect : Effect α}
    (h : Moves (World.Reaches platform) effect) (inner : service.State) (world : World)
    (next : α → Answer M X ε δ η × Stage) :
    let settled : Answer M X ε δ η × Exchange service :=
      Exchange.settle inner world effect next
    world.Reaches platform settled.2.world := by
  intro settled
  simp only [settled, Exchange.settle]
  cases hrun : effect.run world with
  | ok next => exact h world next.1 next.2 hrun
  | error panic => exact refl_of (World.Reaches platform) world

/-- An operation reports what it reports, or enters other spans. -/
theorem Exchange.step_reaches (platform : Platform) (config : ObservabilityConfig)
    {service : InnerService M X B ε δ η} (s : Exchange service) (op : Operation)
    (hop : ∀ scope, op ≠ .enterScope scope) :
    s.world.Reaches platform (s.step platform config service op).2.world := by
  have hrefl := refl_of (World.Reaches platform) s.world
  cases op with
  | enterScope scope => exact absurd rfl (hop scope)
  | pollFuture =>
    unfold Exchange.step
    dsimp only
    split
    · split
      · exact settle_reaches service (finish_moves platform _ .responseDropped) _ _ _
      · exact hrefl
      · exact settle_reaches service (respond_moves platform config _ _ _) _ _ _
    · exact hrefl
  | dropFuture =>
    unfold Exchange.step
    dsimp only
    split
    · exact settle_reaches service (finish_moves platform _ .responseDropped) _ _ _
    · exact hrefl
  | pollFrame =>
    unfold Exchange.step
    dsimp only
    split
    · split
      · exact hrefl
      · exact settle_reaches service (observe_moves platform _ _ _) _ _ _
    · exact hrefl
  | isEndStream =>
    unfold Exchange.step
    dsimp only
    split <;> exact hrefl
  | sizeHint =>
    unfold Exchange.step
    dsimp only
    split <;> exact hrefl
  | dropBody =>
    unfold Exchange.step
    dsimp only
    split
    · exact settle_reaches service (finish_moves platform _ .responseDropped) _ _ _
    · exact hrefl
  | external n => exact hrefl

theorem Exchange.step_calls (platform : Platform) (config : ObservabilityConfig)
    {service : InnerService M X B ε δ η} (s : Exchange service) (op : Operation) :
    s.world.calls <+: (s.step platform config service op).2.world.calls := by
  by_cases hop : ∃ scope, op = .enterScope scope
  · obtain ⟨scope, rfl⟩ := hop
    exact List.prefix_refl _
  · obtain ⟨_, hreports⟩ := s.step_reaches platform config op fun scope h => hop ⟨scope, h⟩
    exact hreports.calls

theorem Exchange.step_scope (platform : Platform) (config : ObservabilityConfig)
    {service : InnerService M X B ε δ η} {s : Exchange service} {op : Operation}
    {scopes : List SpanData → Prop} (hop : op.Within scopes) (hscope : scopes s.world.scope) :
    scopes (s.step platform config service op).2.world.scope := by
  by_cases henter : ∃ scope, op = .enterScope scope
  · obtain ⟨scope, rfl⟩ := henter
    exact hop
  · obtain ⟨_, hreports⟩ := s.step_reaches platform config op fun scope h => henter ⟨scope, h⟩
    rw [hreports.scope]
    exact hscope

theorem ObservabilityService.call_reaches (platform : Platform) (config : ObservabilityConfig)
    (service : InnerService M X B ε δ η) (inner : service.State) (request : Request M X B)
    (world : World) : world.Reaches platform
      (ObservabilityService.call platform config service inner request world).2.world := by
  unfold ObservabilityService.call
  cases hrun : (prepare platform config request).run world with
  | error panic => exact refl_of (World.Reaches platform) world
  | ok prepared =>
    have hprepared := prepare_moves platform config request world _ _ hrun
    dsimp only
    split <;> exact hprepared

end

end AxumObservability
