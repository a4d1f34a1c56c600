import AxumObservability.Concurrency

/-!
# One event after another

Threads format their events apart and write them under a lock. What the output is then, and
the diagnostics with it, is what one thread would have left that handles the events one after
another.

* `Work.step_settles`: where in the work on a record it is decided what becomes of it;
* `Linear.step`: what one step does to the serial history;
* `run_linearizes`: every interleaving has the output of a serial history.
-/

namespace AxumObservability

open Library.Json Library.Machines Library.Panics Library.Text

/-! ## Serial histories -/

/-- What becomes of an event: a write of its line, or a writer that panics after it has
taken some of it. -/
inductive Settlement where
  | written (outcome : WriteOutcome)
  | unwound (accepted : Nat)

/-- Handle an event at once. -/
def JsonLayer.settle (serde : SerdeJson) (float : FloatArithmetic) (layer : JsonLayer)
    (e : LoggedEvent) : Settlement → LogOutput → Result LogOutput
  | .written outcome, out =>
    JsonLayer.onEvent serde float { layer with writer := fun _ _ _ _ => outcome } e.number
      e.timestamp e.scope e.event out
  | .unwound accepted, out => do
    match ← layer.formatLine serde float e with
    | .ok line => return { out with sink := out.sink ++ line.take accepted }
    | .error failure => return layer.reportInternalFailure failure out

/-- Handle one event after another. -/
def JsonLayer.serially (serde : SerdeJson) (float : FloatArithmetic) (layer : JsonLayer) :
    List (LoggedEvent × Settlement) → LogOutput → Result LogOutput
  | [], out => return out
  | (e, settlement) :: serial, out => do
    let out ← layer.settle serde float e settlement out
    layer.serially serde float serial out

theorem serially_concat (serde : SerdeJson) (float : FloatArithmetic) (layer : JsonLayer)
    (serial : List (LoggedEvent × Settlement)) (e : LoggedEvent) (settlement : Settlement)
    (out : LogOutput) :
    layer.serially serde float (serial ++ [(e, settlement)]) out =
      layer.serially serde float serial out >>= layer.settle serde float e settlement := by
  induction serial generalizing out with
  | nil =>
    rw [List.nil_append, JsonLayer.serially, JsonLayer.serially]
    exact bind_pure _
  | cons x serial ih =>
    rw [List.cons_append, JsonLayer.serially, JsonLayer.serially, bind_assoc]
    exact congrArg _ (funext ih)

/-- What a run notes where an event is settled so. An event that has no line has no writer
either. -/
inductive Settlement.NotedAs : Settlement → Note → Prop where
  | ok : NotedAs (.written .ok) (.returned (.ok ()))
  | error (kind : String) (accepted : Nat) :
    NotedAs (.written (.error kind accepted)) (.returned (.error kind))
  | unwound (accepted : Nat) : NotedAs (.unwound accepted) .unwound
  | unformatted (failure : InternalFailure) : NotedAs (.written .ok) (.unformatted failure)

/-! ## Histories of steps -/

variable {θ : Type}

/-- The threads as a machine that also tells which action was taken. -/
def historyMachine (θ : Type) [DecidableEq θ] (serde : SerdeJson) (float : FloatArithmetic)
    (layer : JsonLayer) : Machine (θ × Action) (θ × Action × Note) where
  State := Threads θ
  step s i :=
    ((i.1, i.2, (s.step serde float layer i.1 i.2).1), (s.step serde float layer i.1 i.2).2)

/-- The event is decided: its line is written, has failed, or its thread unwinds. -/
def Note.settles : Note → Bool
  | .returned _ | .unwound => true
  | _ => false

/-- Why the layer drops the event. -/
def Note.failure : Note → Option InternalFailure
  | .unformatted failure => some failure
  | .returned (.error kind) => some (.write kind)
  | _ => none

/-- No event is begun or decided. -/
def Note.quiet : Note → Bool
  | .idle | .locked _ | .worked | .unlocked => true
  | _ => false

variable [DecidableEq θ]

/-- The event that a thread has formatted and that is not decided yet, after a step. -/
def atWorkAfter (t : θ) (working : Option LoggedEvent) (h : θ × Action × Note) :
    Option LoggedEvent :=
  if h.1 = t then
    match h.2.2 with
    | .formatted e _ => some e
    | .returned _ | .unwound => none
    | _ => working
  else working

def atWork (t : θ) (history : List (θ × Action × Note)) : Option LoggedEvent :=
  history.foldl (atWorkAfter t) none

/-- The event that a step decides, after the history before it. -/
def point (before : List (θ × Action × Note)) (h : θ × Action × Note) :
    List (θ × LoggedEvent × Note) :=
  match h with
  | (t, .onEvent e, .unformatted failure) => [(t, e, .unformatted failure)]
  | (t, _, note) => if note.settles then ((atWork t before).map (t, ·, note)).toList else []

def linearizedFrom (before : List (θ × Action × Note)) :
    List (θ × Action × Note) → List (θ × LoggedEvent × Note)
  | [] => []
  | h :: history => point before h ++ linearizedFrom (before ++ [h]) history

/-- The events in the order in which they are decided, each with what decides it. -/
def linearized (history : List (θ × Action × Note)) : List (θ × LoggedEvent × Note) :=
  linearizedFrom [] history

/-- The events that a thread has begun to handle. -/
def handledBy (t : θ) (history : List (θ × Action × Note)) : List LoggedEvent :=
  history.filterMap fun h =>
    match h with
    | (t', .onEvent e, .formatted _ _) | (t', .onEvent e, .unformatted _) =>
      if t' = t then some e else none
    | _ => none

/-- The events of a thread among the decided ones. -/
def eventsOf (t : θ) (decided : List (θ × LoggedEvent × Note)) : List LoggedEvent :=
  decided.filterMap fun d => if d.1 = t then some d.2.1 else none

theorem atWork_concat (t : θ) (history : List (θ × Action × Note)) (h : θ × Action × Note) :
    atWork t (history ++ [h]) = atWorkAfter t (atWork t history) h := by
  rw [atWork, List.foldl_append]
  rfl

theorem linearizedFrom_append (before history history' : List (θ × Action × Note)) :
    linearizedFrom before (history ++ history') =
      linearizedFrom before history ++ linearizedFrom (before ++ history) history' := by
  induction history generalizing before with
  | nil => simp [linearizedFrom]
  | cons h history ih => simp [linearizedFrom, ih]

theorem linearized_append (history history' : List (θ × Action × Note)) :
    linearized (history ++ history') =
      linearized history ++ linearizedFrom history history' :=
  linearizedFrom_append [] history history'

theorem linearized_concat (history : List (θ × Action × Note)) (h : θ × Action × Note) :
    linearized (history ++ [h]) = linearized history ++ point history h := by
  rw [linearized_append, linearizedFrom, linearizedFrom, List.append_nil]

theorem eventsOf_append (t : θ) (decided decided' : List (θ × LoggedEvent × Note)) :
    eventsOf t (decided ++ decided') = eventsOf t decided ++ eventsOf t decided' := by
  rw [eventsOf, List.filterMap_append, ← eventsOf, ← eventsOf]

theorem handledBy_concat (t : θ) (history : List (θ × Action × Note)) (h : θ × Action × Note) :
    handledBy t (history ++ [h]) = handledBy t history ++ handledBy t [h] := by
  rw [handledBy, List.filterMap_append, ← handledBy, ← handledBy]

/-! ## The work on a record -/

/-- Before `write_all` has returned or unwound. -/
def WorkStage.unsettled : WorkStage → Bool
  | .making | .writing => true
  | .dropping | .releasing _ => false

/-- What a step decides about the record: nothing, or what becomes of it. From then on no
more bytes are accepted. -/
structure Work.Settles (work : Work) (note : Note) (work' : Work) : Prop where
  kind : note.settles = !note.quiet
  undecided : work.stage.unsettled = true → work'.stage.unsettled = note.quiet
  decided : work.stage.unsettled = false →
    work'.stage.unsettled = false ∧ work'.accepted = work.accepted ∧ note.result = none

variable {work : Work}

omit [DecidableEq θ] in
theorem Work.writeAll_settles (work : Work) (h : work.stage.unsettled = true) :
    work.Settles work.writeAll.1 work.writeAll.2 := by
  unfold Work.writeAll
  split
  · exact ⟨rfl, fun _ => rfl, by simp [h]⟩
  · exact ⟨rfl, fun _ => rfl, by simp [h]⟩

/-- A step that leaves the record undecided, or decided. -/
theorem Work.settles_of_quiet {work' : Work} {note : Note} (hquiet : note.quiet = true)
    (hstage : work'.stage.unsettled = work.stage.unsettled)
    (haccepted : work'.accepted = work.accepted) : work.Settles note work' := by
  have hnote : note.settles = !note.quiet ∧ note.result = none := by
    cases note <;> first | exact ⟨rfl, rfl⟩ | exact nomatch hquiet
  exact ⟨hnote.1, fun h => by rw [hstage, h, hquiet],
    fun h => ⟨hstage.trans h, haccepted, hnote.2⟩⟩

/-- **When a record is decided.**  The result of `write_all`, or the panic before it, decides
what becomes of the line. What the writer does afterwards does not change it. -/
theorem Work.step_settles (layer : JsonLayer) (work : Work) (out : LogOutput) (action : Action) :
    work.Settles (work.step layer out action).1 (work.step layer out action).2.1 := by
  have hidle : work.Settles .idle work := settles_of_quiet rfl rfl rfl
  obtain ⟨line, accepted, flushed, returned, stage⟩ := work
  cases action with
  | onEvent e => exact hidle
  | lock => exact hidle
  | unlock => exact hidle
  | makeWriterFor panics =>
    cases stage with
    | making =>
      cases panics with
      | false => exact Work.writeAll_settles _ rfl
      | true => exact ⟨rfl, fun _ => rfl, nofun⟩
    | _ => exact hidle
  | write call =>
    cases stage with
    | writing =>
      cases call with
      | accepted n =>
        cases n with
        | zero => exact ⟨rfl, fun _ => rfl, nofun⟩
        | succ n =>
          have hmore := Work.writeAll_settles ⟨line, min line.length (accepted + (n + 1)), flushed,
            returned, .writing⟩ rfl
          exact ⟨hmore.kind, hmore.undecided, nofun⟩
      | interrupted => exact settles_of_quiet rfl rfl rfl
      | error kind => exact ⟨rfl, fun _ => rfl, nofun⟩
      | panicked => exact ⟨rfl, fun _ => rfl, nofun⟩
    | _ => exact hidle
  | flush n =>
    cases stage with
    | writing => exact settles_of_quiet rfl rfl rfl
    | dropping => exact settles_of_quiet rfl rfl rfl
    | _ => exact hidle
  | dropWriter panics =>
    cases stage with
    | dropping =>
      cases panics with
      | false => exact settles_of_quiet rfl rfl rfl
      | true => exact ⟨rfl, nofun, fun _ => ⟨rfl, rfl, rfl⟩⟩
    | _ => exact hidle

/-- What the sink has of a valid record and what its writer holds back. -/
theorem Work.Valid.take_accepted (h : work.Valid) :
    work.line.take work.accepted = work.line.take work.flushed ++ work.buffer := by
  have hsplit := List.take_append_drop work.flushed (work.line.take work.accepted)
  rw [List.take_take, Nat.min_eq_left h.flushed] at hsplit
  exact hsplit.symm

theorem Work.Valid.returned_of_unsettled (h : work.Valid)
    (hunsettled : work.stage.unsettled = true) : work.returned = none := by
  refine h.unreturned ?_
  cases hstage : work.stage with
  | making => exact Or.inl rfl
  | writing => exact Or.inr rfl
  | _ => rw [hstage] at hunsettled; cases hunsettled

theorem Note.result_of_quiet (note : Note) (h : note.quiet = true) : note.result = none := by
  cases note with
  | returned => cases h
  | _ => rfl

/-- What the decided record has become. -/
def Work.settlement (work : Work) : Settlement :=
  match work.returned with
  | some (.ok ()) => .written .ok
  | some (.error kind) => .written (.error kind work.accepted)
  | none => .unwound work.accepted

theorem Note.writeDiagnostics_result (layer : JsonLayer) {note : Note} (h : note.settles = true) :
    layer.writeDiagnostics note.result =
      (note.failure.bind (internalDiagnostic layer.logInternalErrors)).toList := by
  cases note with
  | returned result => cases result <;> rfl
  | unwound => rfl
  | _ => cases h

theorem Work.notedAs_settlement {note : Note} (hnote : note.settles = true)
    (hreturned : work.returned = note.result) : work.settlement.NotedAs note := by
  rw [Work.settlement, hreturned]
  cases note with
  | returned result =>
    cases result with
    | ok => exact .ok
    | error kind => exact .error kind _
  | unwound => exact .unwound _
  | _ => cases hnote

/-- **Settled at once.**  An event that is handled at once, as its record was decided, adds
the same bytes and the same diagnostics. -/
theorem Work.Valid.settle (h : work.Valid) {serde : SerdeJson} {float : FloatArithmetic}
    {layer : JsonLayer} {e : LoggedEvent}
    (hformat : layer.formatLine serde float e = .ok (.ok work.line)) (out : LogOutput) :
    layer.settle serde float e work.settlement out =
      .ok ⟨out.sink ++ work.line.take work.accepted,
        out.diagnostics ++ layer.writeDiagnostics work.returned⟩ := by
  have hformat' : ∀ outcome, JsonLayer.formatLine serde float
      { layer with writer := fun _ _ _ _ => outcome } e = .ok (.ok work.line) := fun _ => hformat
  rw [Work.settlement]
  cases hreturned : work.returned with
  | none =>
    rw [JsonLayer.settle, hformat, ok_bind, JsonLayer.writeDiagnostics, List.append_nil]
    · rfl
    · intro _ h
      cases h
  | some result =>
    cases result with
    | ok =>
      dsimp only
      rw [JsonLayer.settle, onEvent_eq_formatLine, hformat', ok_bind, h.whole hreturned,
        List.take_length, JsonLayer.writeDiagnostics, List.append_nil]
      · rfl
      · intro _ h
        cases h
    | error kind =>
      dsimp only
      rw [JsonLayer.settle, onEvent_eq_formatLine, hformat', ok_bind]
      exact congrArg Except.ok (reportInternalFailure_write layer kind
        ⟨out.sink ++ work.line.take work.accepted, out.diagnostics⟩)

/-! ## The serial history of a run -/

/-- The line of a thread's event that is not decided yet. -/
def ThreadStage.unsettled : ThreadStage → Option Bytes
  | .idle => none
  | .waiting line => some line
  | .holding work => if work.stage.unsettled then some work.line else none

/-- What the writer has accepted of a record that is not decided yet. -/
def Work.unsettledBytes (work : Work) : Bytes :=
  if work.stage.unsettled then work.line.take work.accepted else []

def Threads.unsettledBytes (s : Threads θ) : Bytes :=
  match s.recordWriteLock.holder.map s.stage with
  | some (.holding work) => work.unsettledBytes
  | _ => []

/-- The events decided so far, handled one after another as they were decided, leave the
diagnostics of the run and its output up to the record in progress. -/
def Serializes (serde : SerdeJson) (float : FloatArithmetic) (layer : JsonLayer) (s : Threads θ)
    (history : List (θ × Action × Note)) : Prop :=
  ∃ serial out,
    List.Forall₂ (fun d x => d.2.1 = x.1 ∧ x.2.NotedAs d.2.2) (linearized history) serial ∧
    layer.serially serde float serial .empty = .ok out ∧ s.out.diagnostics = out.diagnostics ∧
    s.out.sink ++ s.buffer = out.sink ++ s.unsettledBytes

/-- The diagnostics of the decided events. -/
def diagnosticsOf (layer : JsonLayer) (decided : List (θ × LoggedEvent × Note)) : List String :=
  decided.filterMap fun d => d.2.2.failure.bind (internalDiagnostic layer.logInternalErrors)

omit [DecidableEq θ] in
theorem diagnosticsOf_concat (layer : JsonLayer) (decided : List (θ × LoggedEvent × Note)) (t : θ)
    (e : LoggedEvent) (note : Note) : diagnosticsOf layer (decided ++ [(t, e, note)]) =
      diagnosticsOf layer decided ++
        (note.failure.bind (internalDiagnostic layer.logInternalErrors)).toList := by
  cases h : note.failure.bind (internalDiagnostic layer.logInternalErrors) <;>
    simp [diagnosticsOf, h]

/-- **The serial history of a run**, with the events that are not decided yet: each thread has
at most one, which it waits with or holds the lock for. -/
structure Linear (serde : SerdeJson) (float : FloatArithmetic) (layer : JsonLayer) (s : Threads θ)
    (history : List (θ × Action × Note)) : Prop where
  working : ∀ t, Option.Rel (fun line e => layer.formatLine serde float e = .ok (.ok line))
    (s.stage t).unsettled (atWork t history)
  order : ∀ t, eventsOf t (linearized history) ++ (atWork t history).toList = handledBy t history
  serial : Serializes serde float layer s history
  diagnosed : s.out.diagnostics = diagnosticsOf layer (linearized history)
  formatted : ∀ t e note, (t, e, note) ∈ linearized history → note.settles = true →
    ∃ line, layer.formatLine serde float e = .ok (.ok line)

section

variable {serde : SerdeJson} {float : FloatArithmetic} {layer : JsonLayer} {s s' : Threads θ}
  {history : List (θ × Action × Note)} {t : θ} {action : Action} {note : Note}

theorem Linear.initial (serde : SerdeJson) (float : FloatArithmetic) (layer : JsonLayer) :
    Linear serde float layer (Threads.initial : Threads θ) [] where
  working := fun _ => .none
  order := fun _ => rfl
  serial := ⟨[], .empty, .nil, rfl, rfl, rfl⟩
  diagnosed := rfl
  formatted := nofun

/-- A thread that has no undecided line has no undecided event. -/
theorem Linear.atWork_eq_none (h : Linear serde float layer s history)
    (hnone : (s.stage t).unsettled = none) : atWork t history = none := by
  have hworking := h.working t
  rw [hnone] at hworking
  cases hwork : atWork t history with
  | none => rfl
  | some e => rw [hwork] at hworking; cases hworking

theorem Serializes.keep (h : Serializes serde float layer s history)
    {entry : θ × Action × Note} (hpoint : point history entry = [])
    (hdiagnostics : s'.out.diagnostics = s.out.diagnostics)
    (hbytes : ∀ bytes, s.out.sink ++ s.buffer = bytes ++ s.unsettledBytes →
      s'.out.sink ++ s'.buffer = bytes ++ s'.unsettledBytes) :
    Serializes serde float layer s' (history ++ [entry]) := by
  obtain ⟨serial, out, hserial, hrun, hdiag, hsink⟩ := h
  refine ⟨serial, out, ?_, hrun, hdiagnostics.trans hdiag, hbytes _ hsink⟩
  rw [linearized_concat, hpoint, List.append_nil]
  exact hserial

theorem Serializes.decide (h : Serializes serde float layer s history)
    {entry : θ × Action × Note} {e : LoggedEvent}
    (hpoint : point history entry = [(t, e, entry.2.2)]) {settlement : Settlement}
    (hnoted : settlement.NotedAs entry.2.2) {bytes : Bytes} {diagnostics : List String}
    (hsettle : ∀ out, layer.settle serde float e settlement out =
      .ok ⟨out.sink ++ bytes, out.diagnostics ++ diagnostics⟩)
    (hdiagnostics : s'.out.diagnostics = s.out.diagnostics ++ diagnostics)
    (hbytes : ∀ before, s.out.sink ++ s.buffer = before ++ s.unsettledBytes →
      s'.out.sink ++ s'.buffer = before ++ bytes ++ s'.unsettledBytes) :
    Serializes serde float layer s' (history ++ [entry]) := by
  obtain ⟨serial, out, hserial, hrun, hdiag, hsink⟩ := h
  refine ⟨serial ++ [(e, settlement)], ⟨out.sink ++ bytes, out.diagnostics ++ diagnostics⟩, ?_,
    ?_, ?_, hbytes _ hsink⟩
  · rw [linearized_concat, hpoint]
    exact List.rel_append hserial (.cons ⟨rfl, hnoted⟩ .nil)
  · rw [serially_concat, hrun, ok_bind, hsettle]
  · rw [hdiagnostics, hdiag]

/-- A step that begins nothing and decides nothing more. -/
theorem Linear.keep (h : Linear serde float layer s history)
    (hnote : note.quiet = true ∨ note.settles = true ∧ (s.stage t).unsettled = none)
    (hstage : ∀ t', (s'.stage t').unsettled = (s.stage t').unsettled)
    (hdiagnostics : s'.out.diagnostics = s.out.diagnostics)
    (hbytes : ∀ bytes, s.out.sink ++ s.buffer = bytes ++ s.unsettledBytes →
      s'.out.sink ++ s'.buffer = bytes ++ s'.unsettledBytes) :
    Linear serde float layer s' (history ++ [(t, action, note)]) := by
  have hwork : ∀ t', atWork t' (history ++ [(t, action, note)]) = atWork t' history := by
    intro t'
    rw [atWork_concat, atWorkAfter]
    rcases hnote with hquiet | ⟨hsettles, hnone⟩
    · cases note <;> first | exact ite_self _ | exact nomatch hquiet
    · split
      · rename_i ht
        cases ht
        rw [h.atWork_eq_none hnone]
        cases note <;> first | rfl | exact nomatch hsettles
      · rfl
  have hpoint : point history (t, action, note) = [] := by
    rcases hnote with hquiet | ⟨hsettles, hnone⟩
    · cases note <;> first | (cases action <;> rfl) | exact nomatch hquiet
    · have hnone' := h.atWork_eq_none hnone
      cases note with
      | returned => cases action <;> simp [point, hnone']
      | unwound => cases action <;> simp [point, hnone']
      | _ => cases hsettles
  have hhandled : ∀ t', handledBy t' [(t, action, note)] = [] := by
    intro t'
    rcases hnote with hquiet | ⟨hsettles, -⟩
    · cases note <;> first | (cases action <;> rfl) | exact nomatch hquiet
    · cases note <;> first | (cases action <;> rfl) | exact nomatch hsettles
  refine ⟨fun t' => ?_, fun t' => ?_, h.serial.keep hpoint hdiagnostics hbytes, ?_, ?_⟩
  · rw [hstage, hwork]
    exact h.working t'
  · rw [linearized_concat, hpoint, hwork, handledBy_concat, hhandled, List.append_nil,
      List.append_nil, h.order]
  · rw [linearized_concat, hpoint, List.append_nil, hdiagnostics, h.diagnosed]
  · rw [linearized_concat, hpoint, List.append_nil]
    exact h.formatted

/-- The holder's record is decided. -/
theorem Linear.decide (h : Linear serde float layer s history) (hnote : note.settles = true)
    {line : Bytes} (hunsettled : (s.stage t).unsettled = some line)
    (hsettled : (s'.stage t).unsettled = none)
    (hstage : ∀ t', t' ≠ t → s'.stage t' = s.stage t') {settlement : Settlement}
    (hnoted : settlement.NotedAs note) {bytes : Bytes} {diagnostics : List String}
    (hsettle : ∀ e, layer.formatLine serde float e = .ok (.ok line) → ∀ out,
      layer.settle serde float e settlement out =
        .ok ⟨out.sink ++ bytes, out.diagnostics ++ diagnostics⟩)
    (hdiagnostics : s'.out.diagnostics = s.out.diagnostics ++ diagnostics)
    (hdiagnosed : diagnostics =
      (note.failure.bind (internalDiagnostic layer.logInternalErrors)).toList)
    (hbytes : ∀ before, s.out.sink ++ s.buffer = before ++ s.unsettledBytes →
      s'.out.sink ++ s'.buffer = before ++ bytes ++ s'.unsettledBytes) :
    Linear serde float layer s' (history ++ [(t, action, note)]) := by
  obtain ⟨e, hwork, hformat⟩ : ∃ e, atWork t history = some e ∧
      layer.formatLine serde float e = .ok (.ok line) := by
    have hworking := h.working t
    rw [hunsettled] at hworking
    cases hwork : atWork t history with
    | none => rw [hwork] at hworking; cases hworking
    | some e =>
      rw [hwork] at hworking
      cases hworking with
      | some hformat => exact ⟨e, rfl, hformat⟩
  have hwork' : ∀ t', atWork t' (history ++ [(t, action, note)]) =
      if t = t' then none else atWork t' history := by
    intro t'
    rw [atWork_concat, atWorkAfter]
    cases note <;> first | rfl | exact nomatch hnote
  have hpoint : point history (t, action, note) = [(t, e, note)] := by
    cases note with
    | returned => cases action <;> simp [point, Note.settles, hwork]
    | unwound => cases action <;> simp [point, Note.settles, hwork]
    | _ => cases hnote
  have hhandled : ∀ t', handledBy t' [(t, action, note)] = [] := by
    intro t'
    cases note <;> first | (cases action <;> rfl) | exact nomatch hnote
  refine ⟨fun t' => ?_, fun t' => ?_,
    h.serial.decide hpoint hnoted (hsettle e hformat) hdiagnostics hbytes, ?_,
    fun t' e' note' hmem hsettles => ?_⟩
  · rw [hwork']
    by_cases ht : t = t'
    · subst ht
      rw [if_pos rfl, hsettled]
      exact .none
    · rw [if_neg ht, hstage t' (Ne.symm ht)]
      exact h.working t'
  · rw [linearized_concat, hpoint, hwork', handledBy_concat, hhandled, List.append_nil,
      eventsOf_append, ← h.order]
    by_cases ht : t = t'
    · subst ht
      simp [eventsOf, hwork]
    · simp [eventsOf, ht]
  · rw [linearized_concat, hpoint, diagnosticsOf_concat, hdiagnostics, hdiagnosed, h.diagnosed]
  · rw [linearized_concat, hpoint] at hmem
    rcases List.mem_append.mp hmem with hmem | hmem
    · exact h.formatted t' e' note' hmem hsettles
    · cases List.mem_singleton.mp hmem
      exact ⟨line, hformat⟩

/-- A thread begins an event whose line it has formatted. -/
theorem Linear.formats (h : Linear serde float layer s history) (hidle : s.stage t = .idle)
    {e : LoggedEvent} {line : Bytes} (hformat : layer.formatLine serde float e = .ok (.ok line))
    (hunheld : s.recordWriteLock.holder ≠ some t) :
    Linear serde float layer (s.setStage t (.waiting line))
      (history ++ [(t, .onEvent e, .formatted e line)]) := by
  have hnone : atWork t history = none := h.atWork_eq_none (by rw [hidle]; rfl)
  have hwork : ∀ t', atWork t' (history ++ [(t, .onEvent e, .formatted e line)]) =
      if t = t' then some e else atWork t' history := fun t' => atWork_concat _ _ _
  have hpoint : point history (t, .onEvent e, .formatted e line) = [] := rfl
  refine ⟨fun t' => ?_, fun t' => ?_, h.serial.keep hpoint rfl fun bytes hbytes => ?_, ?_, ?_⟩
  · rw [hwork]
    by_cases ht : t = t'
    · subst ht
      rw [if_pos rfl, Threads.stage_setStage]
      exact .some hformat
    · rw [if_neg ht, Threads.stage_setStage_of_ne s (Ne.symm ht)]
      exact h.working t'
  · rw [linearized_concat, hpoint, hwork, handledBy_concat, ← h.order, List.append_nil]
    by_cases ht : t = t'
    · subst ht
      simp [handledBy, hnone]
    · simp [handledBy, ht]
  · have hstage : s.recordWriteLock.holder.map (s.setStage t (.waiting line)).stage =
        s.recordWriteLock.holder.map s.stage := by
      cases hholder : s.recordWriteLock.holder with
      | none => rfl
      | some t' =>
        have ht : t' ≠ t := fun ht => hunheld (by rw [hholder, ht])
        simp [Threads.stage_setStage_of_ne s ht]
    simp only [Threads.buffer, Threads.unsettledBytes, Threads.setStage] at hbytes hstage ⊢
    rw [hstage]
    exact hbytes
  · rw [linearized_concat, hpoint, List.append_nil]
    exact h.diagnosed
  · rw [linearized_concat, hpoint, List.append_nil]
    exact h.formatted

/-- An event that has no line is begun and decided at once. -/
theorem Linear.fails (h : Linear serde float layer s history) (hidle : s.stage t = .idle)
    {e : LoggedEvent} {failure : InternalFailure}
    (hformat : layer.formatLine serde float e = .ok (.error failure)) :
    Linear serde float layer { s with out := layer.reportInternalFailure failure s.out }
      (history ++ [(t, .onEvent e, .unformatted failure)]) := by
  have hnone : atWork t history = none := h.atWork_eq_none (by rw [hidle]; rfl)
  have hwork : ∀ t', atWork t' (history ++ [(t, .onEvent e, .unformatted failure)]) =
      atWork t' history := fun t' => (atWork_concat _ _ _).trans (ite_self _)
  have hpoint : point history (t, .onEvent e, .unformatted failure) =
      [(t, e, .unformatted failure)] := rfl
  have hreport : ∀ out, layer.reportInternalFailure failure out = ⟨out.sink ++ [],
      out.diagnostics ++ (internalDiagnostic layer.logInternalErrors failure).toList⟩ := by
    intro out
    unfold JsonLayer.reportInternalFailure
    cases internalDiagnostic layer.logInternalErrors failure <;> simp
  have hsettle : ∀ out, layer.settle serde float e (.written .ok) out = .ok ⟨out.sink ++ [],
      out.diagnostics ++ (internalDiagnostic layer.logInternalErrors failure).toList⟩ := by
    intro out
    have hformat' : JsonLayer.formatLine serde float
      { layer with writer := fun _ _ _ _ => .ok } e = .ok (.error failure) := hformat
    rw [JsonLayer.settle, onEvent_eq_formatLine, hformat', ok_bind]
    exact congrArg Except.ok (hreport out)
  refine ⟨fun t' => ?_, fun t' => ?_,
    h.serial.decide hpoint (.unformatted failure) hsettle ?_ fun bytes hbytes => ?_, ?_,
    fun t' e' note hmem hsettles => ?_⟩
  · rw [hwork]
    exact h.working t'
  · rw [linearized_concat, hpoint, hwork, handledBy_concat, eventsOf_append, ← h.order]
    by_cases ht : t = t'
    · subst ht
      simp [handledBy, eventsOf, hnone]
    · simp [handledBy, eventsOf, ht]
  · rw [hreport]
  · rw [List.append_nil]
    simp only [Threads.buffer, Threads.unsettledBytes, reportInternalFailure_sink] at hbytes ⊢
    exact hbytes
  · rw [linearized_concat, hpoint, diagnosticsOf_concat, hreport, h.diagnosed]
    rfl
  · rw [linearized_concat, hpoint] at hmem
    rcases List.mem_append.mp hmem with hmem | hmem
    · exact h.formatted t' e' note hmem hsettles
    · cases List.mem_singleton.mp hmem
      cases hsettles

omit [DecidableEq θ] in
theorem Threads.buffer_of_holding {work : Work} (hholder : s.recordWriteLock.holder = some t)
    (hstage : s.stage t = .holding work) : s.buffer = work.buffer := by
  simp only [Threads.buffer, hholder, Option.map_some, hstage]

omit [DecidableEq θ] in
theorem Threads.unsettledBytes_of_holding {work : Work}
    (hholder : s.recordWriteLock.holder = some t) (hstage : s.stage t = .holding work) :
    s.unsettledBytes = work.unsettledBytes := by
  simp only [Threads.unsettledBytes, hholder, Option.map_some, hstage]

/-- A thread that waits has taken the lock. -/
theorem Linear.locks (h : Linear serde float layer s history) {line : Bytes}
    (hstage : s.stage t = .waiting line) (hfree : s.recordWriteLock.holder = none) :
    Linear serde float layer { s.setStage t (.holding (.start line)) with
      recordWriteLock := { s.recordWriteLock with holder := some t } }
      (history ++ [(t, .lock, .locked line)]) := by
  refine h.keep (Or.inl rfl) (fun t' => ?_) rfl fun bytes hbytes => ?_
  · by_cases ht : t' = t
    · subst ht
      simp [hstage, ThreadStage.unsettled, Work.start, WorkStage.unsettled]
    · exact congrArg _ (s.stage_setStage_of_ne ht _)
  · simp only [Threads.buffer, Threads.unsettledBytes, hfree, Option.map_none] at hbytes
    simp only [Threads.buffer, Threads.unsettledBytes, Option.map_some, Threads.stage_setStage]
    exact hbytes

/-- The holder has released the lock. -/
theorem Linear.unlocks (h : Linear serde float layer s history) {work : Work} {unwinding : Bool}
    (hholder : s.recordWriteLock.holder = some t) (hstage : s.stage t = .holding work)
    (hvalid : work.Valid) (hreleasing : work.stage = .releasing unwinding) (poisoned : Bool) :
    Linear serde float layer { s.setStage t .idle with recordWriteLock := ⟨none, poisoned⟩ }
      (history ++ [(t, .unlock, .unlocked)]) := by
  have hsettled : work.stage.unsettled = false := by rw [hreleasing]; rfl
  have hflushed : work.buffer = [] := by
    rw [Work.buffer, hvalid.released unwinding hreleasing, List.drop_take_self]
  refine h.keep (Or.inl rfl) (fun t' => ?_) rfl fun bytes hbytes => ?_
  · by_cases ht : t' = t
    · subst ht
      simp [hstage, ThreadStage.unsettled, hsettled]
    · exact congrArg _ (s.stage_setStage_of_ne ht _)
  · rw [Threads.buffer_of_holding hholder hstage, Threads.unsettledBytes_of_holding hholder hstage,
      hflushed, Work.unsettledBytes, if_neg (by simp [hsettled])] at hbytes
    exact hbytes

/-- The holder has gone on with its record. -/
theorem Linear.works (h : Linear serde float layer s history) {work work' : Work}
    {out' : LogOutput} (hholder : s.recordWriteLock.holder = some t)
    (hstage : s.stage t = .holding work) (hvalid : work.Valid)
    (hadvances : work.Advances layer s.out note work' out') (hsettles : work.Settles note work') :
    Linear serde float layer { s.setStage t (.holding work') with out := out' }
      (history ++ [(t, action, note)]) := by
  obtain ⟨chunk, hsink, hchunk⟩ := hadvances.sink
  have htake := hadvances.valid.take_accepted
  rw [hadvances.line, hchunk, List.append_assoc] at htake
  have hstage' : (s.setStage t (.holding work')).stage t = .holding work' := s.stage_setStage t _
  have hbuffer : s.buffer = work.buffer := Threads.buffer_of_holding hholder hstage
  have hbuffer' : Threads.buffer { s.setStage t (.holding work') with out := out' } =
      work'.buffer := Threads.buffer_of_holding hholder hstage'
  have hbytes : s.unsettledBytes = work.unsettledBytes :=
    Threads.unsettledBytes_of_holding hholder hstage
  have hbytes' : Threads.unsettledBytes { s.setStage t (.holding work') with out := out' } =
      work'.unsettledBytes := Threads.unsettledBytes_of_holding hholder hstage'
  have hother : ∀ t', t' ≠ t → (s.setStage t (.holding work')).stage t' = s.stage t' :=
    fun t' ht => s.stage_setStage_of_ne ht _
  -- what the sink has got meanwhile, the writer no longer holds back
  have hflushed : ∀ before, s.out.sink ++ work.buffer = before ++ work.line.take work.accepted →
      out'.sink ++ work'.buffer = before ++ work.line.take work'.accepted := by
    intro before hbefore
    rw [hvalid.take_accepted, ← List.append_assoc] at hbefore
    rw [hsink, htake, List.append_cancel_right hbefore]
    simp
  have hnone : note.result = none → out'.diagnostics = s.out.diagnostics := by
    intro hresult
    rw [hadvances.diagnostics, hresult, JsonLayer.writeDiagnostics, List.append_nil]
    intro _ h
    cases h
  cases hunsettled : work.stage.unsettled with
  | true =>
    have hundecided := hsettles.undecided hunsettled
    cases hquiet : note.quiet with
    | true =>
      rw [hquiet] at hundecided
      refine h.keep (Or.inl hquiet) (fun t' => ?_) (hnone (note.result_of_quiet hquiet))
        fun before hbefore => ?_
      · by_cases ht : t' = t
        · subst ht
          simp [hstage, ThreadStage.unsettled, hunsettled, hundecided, hadvances.line]
        · exact congrArg _ (hother t' ht)
      · rw [hbuffer, hbytes, Work.unsettledBytes, if_pos hunsettled] at hbefore
        rw [hbuffer', hbytes', Work.unsettledBytes, if_pos hundecided, hadvances.line]
        exact hflushed before hbefore
    | false =>
      rw [hquiet] at hundecided
      have hreturned : work.returned = none := hvalid.returned_of_unsettled hunsettled
      have hreturned' : work'.returned = note.result := by
        rw [hadvances.returned, hreturned, Option.none_or]
      have hnote : note.settles = true := by rw [hsettles.kind, hquiet]; rfl
      have hline : (s.stage t).unsettled = some work.line := by
        simp [hstage, ThreadStage.unsettled, hunsettled]
      refine h.decide hnote hline ?_ hother ?_ (fun e hformat out =>
        hadvances.valid.settle (hadvances.line.symm ▸ hformat) out) ?_ ?_ fun before hbefore => ?_
      · simp [ThreadStage.unsettled, hundecided]
      · exact Work.notedAs_settlement hnote hreturned'
      · rw [hreturned']
        exact hadvances.diagnostics
      · rw [hreturned', note.writeDiagnostics_result layer hnote]
      · rw [hbuffer, hbytes, Work.unsettledBytes, if_pos hunsettled] at hbefore
        rw [hbuffer', hbytes', Work.unsettledBytes, if_neg (by simp [hundecided]), List.append_nil,
          hadvances.line]
        exact hflushed before hbefore
  | false =>
    obtain ⟨hundecided, haccepted, hresult⟩ := hsettles.decided hunsettled
    refine h.keep ?_ (fun t' => ?_) (hnone hresult) fun before hbefore => ?_
    · cases hquiet : note.quiet with
      | true => exact Or.inl rfl
      | false =>
        refine Or.inr ⟨by rw [hsettles.kind, hquiet]; rfl, ?_⟩
        simp [hstage, ThreadStage.unsettled, hunsettled]
    · by_cases ht : t' = t
      · subst ht
        simp [hstage, ThreadStage.unsettled, hunsettled, hundecided]
      · exact congrArg _ (hother t' ht)
    · rw [hbuffer, hbytes, Work.unsettledBytes, if_neg (by simp [hunsettled]), List.append_nil]
        at hbefore
      rw [hbuffer', hbytes', Work.unsettledBytes, if_neg (by simp [hundecided]), List.append_nil,
        ← hbefore, hsink, List.append_assoc]
      rw [haccepted, hvalid.take_accepted] at htake
      rw [List.append_cancel_left htake]

/-- **One step.**  Whichever thread goes on and whatever its writer does, the run so far has a
serial history: the step begins an event, decides one, or does neither. -/
theorem Linear.step (h : Linear serde float layer s history) {trace : List (θ × Note)}
    {done : List (Block θ)} {current : Option (θ × Work)}
    (hlog : Log serde float layer s trace done current) (t : θ) (action : Action) :
    Linear serde float layer (s.step serde float layer t action).2
      (history ++ [(t, action, (s.step serde float layer t action).1)]) := by
  have hidle : s.step serde float layer t action = (.idle, s) →
      Linear serde float layer (s.step serde float layer t action).2
        (history ++ [(t, action, (s.step serde float layer t action).1)]) := by
    intro heq
    rw [heq]
    exact h.keep (Or.inl rfl) (fun _ => rfl) rfl fun _ => id
  have hholder : ∀ work, s.stage t = .holding work → s.recordWriteLock.holder = some t ∧
      work.Valid := by
    intro work hstage
    have hcurrent := (hlog.holding t work).mp hstage
    exact ⟨by rw [hlog.holder, hcurrent]; rfl, hlog.valid t work hcurrent⟩
  have hunheld : (∀ work, s.stage t ≠ .holding work) → s.recordWriteLock.holder ≠ some t := by
    intro hnot hheld
    rw [hlog.holder, Option.map_eq_some_iff] at hheld
    obtain ⟨⟨t', work⟩, hcurrent, rfl⟩ := hheld
    exact hnot work ((hlog.holding t' work).mpr hcurrent)
  cases hstage : s.stage t with
  | idle =>
    cases action with
    | onEvent e =>
      rcases formatLine_spec serde float layer e with ⟨failure, -, hformat⟩ | ⟨line, hformat, -⟩
      · simp only [Threads.step, hstage, hformat]
        exact h.fails hstage hformat
      · simp only [Threads.step, hstage, hformat]
        exact h.formats hstage hformat (hunheld (by simp [hstage]))
    | _ => exact hidle (by simp only [Threads.step, hstage])
  | waiting line =>
    cases action with
    | lock =>
      cases hfree : s.recordWriteLock.holder with
      | some t' => exact hidle (by simp only [Threads.step, hstage, hfree])
      | none =>
        simp only [Threads.step, hstage, hfree]
        exact h.locks hstage hfree
    | _ => exact hidle (by simp only [Threads.step, hstage])
  | holding work =>
    obtain ⟨hheld, hvalid⟩ := hholder work hstage
    have hworks : ∀ action, Linear serde float layer
        { s.setStage t (.holding (work.step layer s.out action).2.1) with
          out := (work.step layer s.out action).2.2 }
        (history ++ [(t, action, (work.step layer s.out action).1)]) := fun action =>
      h.works hheld hstage hvalid (work.step_spec layer hvalid s.out action)
        (work.step_settles layer s.out action)
    cases action with
    | unlock =>
      cases hreleasing : work.stage with
      | releasing unwinding =>
        simp only [Threads.step, hstage, hreleasing]
        exact h.unlocks hheld hstage hvalid hreleasing _
      | _ =>
        simp only [Threads.step, hstage, hreleasing]
        exact hworks .unlock
    | _ =>
      simp only [Threads.step, hstage]
      exact hworks _

end

/-! ## Whole runs -/

/-- Telling the actions as well changes nothing about the states or the notes. -/
theorem historyMachine_run (serde : SerdeJson) (float : FloatArithmetic) (layer : JsonLayer)
    (s : Threads θ) (ops : List (θ × Action)) :
    (historyMachine θ serde float layer).run s ops = (threadMachine θ serde float layer).run s ops ∧
      ((historyMachine θ serde float layer).answers s ops).map (fun h => (h.1, h.2.2)) =
        (threadMachine θ serde float layer).answers s ops := by
  induction ops generalizing s with
  | nil => exact ⟨rfl, rfl⟩
  | cons op ops ih =>
    obtain ⟨hrun, hanswers⟩ := ih (s.step serde float layer op.1 op.2).2
    exact ⟨hrun, congrArg (List.cons _) hanswers⟩

/-- Every run has a log and a serial history. -/
theorem exists_linear (serde : SerdeJson) (float : FloatArithmetic) (layer : JsonLayer)
    (ops : List (θ × Action)) :
    let s : Threads θ := (threadMachine θ serde float layer).run Threads.initial ops
    let history := (historyMachine θ serde float layer).answers Threads.initial ops
    (∃ trace done current, Log serde float layer s trace done current) ∧
      Linear serde float layer s history := by
  have hrun := Machine.history (m := historyMachine θ serde float layer)
    (P := fun s history => (∃ trace done current, Log serde float layer s trace done current) ∧
      Linear serde float layer s history)
    (fun s history op h => by
      obtain ⟨⟨trace, done, current, hlog⟩, hlinear⟩ := h
      obtain ⟨done', current', hlog'⟩ := hlog.step op.1 op.2
      exact ⟨⟨_, done', current', hlog'⟩, hlinear.step hlog op.1 op.2⟩)
    ⟨⟨[], [], none, Log.initial serde float layer⟩, Linear.initial serde float layer⟩ ops
  rw [(historyMachine_run serde float layer Threads.initial ops).1] at hrun
  exact hrun

omit [DecidableEq θ] in
/-- While the lock is free nothing is in progress. -/
theorem Threads.out_eq_of_free {s : Threads θ} {out : LogOutput}
    (hdiagnostics : s.out.diagnostics = out.diagnostics)
    (hsink : s.out.sink ++ s.buffer = out.sink ++ s.unsettledBytes)
    (hfree : s.recordWriteLock.holder = none) : s.out = out := by
  rw [Threads.buffer, Threads.unsettledBytes, hfree] at hsink
  obtain ⟨sink, diagnostics⟩ := out
  have hsame : s.out.sink = sink := by simpa using hsink
  rw [← hsame, ← show s.out.diagnostics = diagnostics from hdiagnostics]

/-- **Concurrent events are serial.**  For every set of threads, every interleaving of their
steps and every behaviour of the writer, the run leaves what one thread would have left that
handles the decided events one after another: the same diagnostics, and the same output up to
the record in progress. Each thread's events keep the order in which it began them, and all
but the one it is at work on are decided. What is decided is decided for good: an event that
was decided before another one began comes before it in the serial order. -/
theorem run_linearizes (θ : Type) [DecidableEq θ] (serde : SerdeJson) (float : FloatArithmetic)
    (layer : JsonLayer) (ops : List (θ × Action)) :
    let s : Threads θ := (threadMachine θ serde float layer).run Threads.initial ops
    let history := fun ops => (historyMachine θ serde float layer).answers Threads.initial ops
    (∃ serial out,
      List.Forall₂ (fun d x => d.2.1 = x.1 ∧ x.2.NotedAs d.2.2) (linearized (history ops)) serial ∧
      layer.serially serde float serial .empty = .ok out ∧ s.out.diagnostics = out.diagnostics ∧
      s.out.sink ++ s.buffer = out.sink ++ s.unsettledBytes ∧
      (s.recordWriteLock.holder = none → s.out = out)) ∧
    (∀ t, eventsOf t (linearized (history ops)) ++ (atWork t (history ops)).toList =
      handledBy t (history ops)) ∧
    (∀ t, s.stage t = .idle → atWork t (history ops) = none) ∧
    ∀ before after, ops = before ++ after →
      linearized (history before) <+: linearized (history ops) := by
  intro s history
  obtain ⟨-, hlinear⟩ := exists_linear serde float layer ops
  obtain ⟨serial, out, hserial, hrun, hdiagnostics, hsink⟩ := hlinear.serial
  refine ⟨⟨serial, out, hserial, hrun, hdiagnostics, hsink,
    Threads.out_eq_of_free hdiagnostics hsink⟩, hlinear.order,
    fun t hidle => hlinear.atWork_eq_none (by rw [hidle]; rfl), fun before after hops => ?_⟩
  · have happend := Machine.answers_append (m := historyMachine θ serde float layer)
      Threads.initial before after
    rw [← hops] at happend
    simp only [history]
    rw [happend, linearized_append]
    exact List.prefix_append _ _

end AxumObservability
