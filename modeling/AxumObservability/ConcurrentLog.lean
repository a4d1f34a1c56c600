import AxumObservability.Diagnostics
import AxumObservability.ReadBack

/-!
# Reading a concurrent log back

The writer of a layer may take a line in pieces and be interrupted between them, while other
threads format their events and wait for the lock. As long as it never gives up, the log that
is left is all and only the events, each thread's in its own order.

* `Action.Sound`: the steps of a writer that never gives up;
* `decided_whole`: what it makes of the events;
* `run_reads_back`: the log of any interleaving reads back as the events.
-/

namespace AxumObservability

open Library.Json Library.Machines Library.Panics Library.Text

/-! ## A writer that never gives up -/

/-- A step of a writer that never gives up: it can be made, and takes something of what it is
offered unless it is interrupted. It may hold bytes back, and may panic once it is dropped. -/
def Action.Sound : Action → Prop
  | .makeWriterFor panics => panics = false
  | .write (.accepted n) => 0 < n
  | .write (.error _) | .write .panicked => False
  | _ => True

theorem Action.Sound.not_unwinds {action : Action} (h : action.Sound) : ¬ action.Unwinds := by
  rintro (_ | _)
  · cases h
  · exact h

variable {θ : Type} [DecidableEq θ] {serde : SerdeJson} {float : FloatArithmetic}
  {layer : JsonLayer} {s : Threads θ} {ops : List (θ × Action)} {t : θ} {e : LoggedEvent}
  {action : Action} {note : Note}

/-- A thread that begins an event returns from no write. -/
theorem Threads.step_onEvent (serde : SerdeJson) (float : FloatArithmetic) (layer : JsonLayer)
    (s : Threads θ) (t : θ) (e : LoggedEvent) :
    (s.step serde float layer t (.onEvent e)).1.result = none := by
  cases hstage : s.stage t with
  | idle =>
    rcases formatLine_spec serde float layer e with ⟨failure, -, hformat⟩ | ⟨line, hformat, -⟩
    · simp only [Threads.step, hstage, hformat, Note.result]
    · simp only [Threads.step, hstage, hformat, Note.result]
  | waiting line => simp only [Threads.step, hstage, Note.result]
  | holding work => simp only [Threads.step, hstage, Work.step, Note.result]

/-- Every entry of a history is a step. -/
theorem exists_step_of_mem_history
    (h : (t, action, note) ∈ (historyMachine θ serde float layer).answers s ops) :
    ∃ s' : Threads θ, (s'.step serde float layer t action).1 = note := by
  induction ops generalizing s with
  | nil => cases h
  | cons op ops ih =>
    rcases List.mem_cons.mp h with heq | hmem
    · cases heq
      exact ⟨s, rfl⟩
    · exact ih hmem

/-- An event is begun by an action of its thread. -/
theorem mem_of_mem_handledBy
    (h : e ∈ handledBy t ((historyMachine θ serde float layer).answers s ops)) :
    (t, .onEvent e) ∈ ops := by
  obtain ⟨⟨t', action, note⟩, hmem, hsome⟩ := List.mem_filterMap.mp h
  have hop := mem_of_mem_history hmem
  cases action with
  | onEvent e' =>
    have hsame : t' = t ∧ e' = e := by
      cases note with
      | formatted _ _ => simpa using hsome
      | unformatted _ => simpa using hsome
      | _ => cases hsome
    obtain ⟨rfl, rfl⟩ := hsame
    exact hop
  | _ => cases hsome

/-- What a writer that never gives up makes of an event: its whole line, where it has one. -/
theorem decided_whole (hsound : ∀ op ∈ ops, op.2.Sound)
    (h : (t, e, note) ∈ linearized ((historyMachine θ serde float layer).answers
      Threads.initial ops)) :
    note = .returned (.ok ()) ∨ ∃ failure, note = .unformatted failure := by
  obtain ⟨action, hhistory, hexplains⟩ := run_explained serde float layer ops t e note h
  have haction := hsound _ (mem_of_mem_history hhistory)
  cases hexplains with
  | written => exact Or.inl rfl
  | lost hunwinds => exact absurd hunwinds haction.not_unwinds
  | dropped failure hreason hfails =>
    cases hfails with
    | writeZero => exact absurd haction (Nat.lt_irrefl 0)
    | write kind => exact haction.elim
    | timestamp e' _ _ =>
      obtain ⟨s', hstep⟩ := exists_step_of_mem_history hhistory
      have hresult := Threads.step_onEvent serde float layer s' t e'
      rw [hstep] at hresult
      cases note with
      | unformatted failure => exact Or.inr ⟨failure, rfl⟩
      | returned result => cases hresult
      | _ => cases hreason

omit [DecidableEq θ] in
theorem Settlement.eq_written {settlement : Settlement} (h : settlement.NotedAs note)
    (hwhole : note = .returned (.ok ()) ∨ ∃ failure, note = .unformatted failure) :
    settlement = .written .ok := by
  cases h with
  | ok => rfl
  | unformatted => rfl
  | error kind accepted => rcases hwhole with hwhole | ⟨_, hwhole⟩ <;> cases hwhole
  | unwound accepted => rcases hwhole with hwhole | ⟨_, hwhole⟩ <;> cases hwhole

omit [DecidableEq θ] in
/-- A serial history of whole lines is that of a writer that takes every line. -/
theorem serially_whole {serial : List (LoggedEvent × Settlement)}
    (h : ∀ x ∈ serial, x.2 = .written .ok) (out : LogOutput) :
    layer.serially serde float serial out =
      JsonLayer.onEvents serde float { layer with writer := .whole } (serial.map Prod.fst) out := by
  induction serial generalizing out with
  | nil => rfl
  | cons x serial ih =>
    obtain ⟨hx, hrest⟩ := List.forall_mem_cons.mp h
    obtain ⟨e, settlement⟩ := x
    obtain rfl : settlement = .written .ok := hx
    rw [JsonLayer.serially, List.map_cons, JsonLayer.onEvents]
    exact congrArg _ (funext (ih hrest))

/-! ## Round trip -/

/-- **A concurrent log reads back.**  For every set of threads, every interleaving of their
steps, whatever pieces the writer takes their lines in and whenever it is interrupted: while
nobody holds the lock, the lines of the log are the objects of the events in the order in
which they were written, all and only those of events with a timestamp, and the events of
each thread, but for the one it waits with, are there in the order in which it began them. -/
theorem run_reads_back (θ : Type) [DecidableEq θ] (serde : SerdeJson) (hserde : serde.Compact)
    (float : FloatArithmetic) (layer : JsonLayer) (ops : List (θ × Action))
    (hevents : ∀ t e, (t, .onEvent e) ∈ ops → Genuine serde float e.event ∧ Registered e.scope)
    (hsound : ∀ op ∈ ops, op.2.Sound) :
    let s : Threads θ := (threadMachine θ serde float layer).run Threads.initial ops
    let history := (historyMachine θ serde float layer).answers Threads.initial ops
    (s.recordWriteLock.holder = none →
      AtLineStart lineFeed s.out.sink ∧
      List.Forall₂ (ReadsAs serde float layer.fieldConvention)
        (((linearized history).map fun d => d.2.1).filter fun e => e.timestamp.isOk)
        (readLines serde s.out.sink)) ∧
    ∀ t, eventsOf t (linearized history) ++ (atWork t history).toList = handledBy t history := by
  intro s history
  obtain ⟨-, hlinear⟩ := exists_linear serde float layer ops
  refine ⟨fun hfree => ?_, hlinear.order⟩
  obtain ⟨serial, out, hserial, hrun, hdiagnostics, hsink⟩ := hlinear.serial
  obtain rfl : s.out = out := Threads.out_eq_of_free hdiagnostics hsink hfree
  have hwhole : ∀ x ∈ serial, x.2 = .written .ok := by
    intro x hx
    obtain ⟨⟨t, e, note⟩, hmem, -, hnoted⟩ := exists_mem_of_forall₂ hserial.flip hx
    exact Settlement.eq_written hnoted (decided_whole hsound hmem)
  have horder : (linearized history).map (fun d => d.2.1) = serial.map Prod.fst := by
    rw [← List.forall₂_eq_eq_eq, List.forall₂_map_left_iff, List.forall₂_map_right_iff]
    exact hserial.imp fun _ _ h => h.1
  rw [serially_whole hwhole, ← horder] at hrun
  refine readLines_sink serde hserde float { layer with writer := .whole } rfl _ ?_ s.out hrun
  intro e he
  obtain ⟨⟨t, e, note⟩, hmem, rfl⟩ := List.mem_map.mp he
  have hhandled : e ∈ handledBy t history := by
    rw [← hlinear.order t]
    refine List.mem_append_left _ (List.mem_filterMap.mpr ⟨_, hmem, ?_⟩)
    rw [if_pos rfl]
  exact hevents t e (mem_of_mem_handledBy hhandled)

/-! ### Two threads and an interruption -/

/-- Both threads begin an event; the second one writes its line first, after an interruption. -/
def twoThreads (n : Nat) : List (Bool × Action) :=
  [(true, .onEvent startedEvent), (false, .onEvent startedEvent), (false, .lock),
    (false, .makeWriterFor false), (false, .write .interrupted), (true, .lock),
    (false, .write (.accepted (n + 1))), (false, .dropWriter false), (false, .unlock),
    (true, .lock), (true, .makeWriterFor false), (true, .write (.accepted (n + 1))),
    (true, .dropWriter false), (true, .unlock)]

theorem run_reads_back_two :
    ∃ n, List.Forall₂ (ReadsAs .reference .whole .gcp) [startedEvent, startedEvent]
      (readLines .reference ((threadMachine Bool .reference .whole (.fromConvention .whole .gcp)).run
        Threads.initial (twoThreads n) : Threads Bool).out.sink) := by
  rcases formatLine_spec .reference .whole (.fromConvention .whole .gcp) startedEvent with
    ⟨failure, hmissing, -⟩ | ⟨line, hformat, timestamp, m, -, hline⟩
  · cases hmissing
  have hpos : 0 < line.length := by
    obtain ⟨json, -, rfl⟩ := hline.exists_json
    simp
  have hevents : ∀ t e, (t, .onEvent e) ∈ twoThreads line.length →
      Genuine .reference .whole e.event ∧ Registered e.scope := by
    intro t e he
    obtain rfl : e = startedEvent := by
      simp only [twoThreads, List.mem_cons, Prod.mk.injEq, Action.onEvent.injEq, reduceCtorEq,
        and_false, List.not_mem_nil, or_false] at he
      rcases he with ⟨-, rfl⟩ | ⟨-, rfl⟩ <;> rfl
    exact ⟨Or.inl (by decide), nofun⟩
  have hsound : ∀ op ∈ twoThreads line.length, op.2.Sound := by
    simp [twoThreads, Action.Sound]
  obtain ⟨hread, -⟩ := run_reads_back Bool .reference SerdeJson.compact_reference .whole
    (.fromConvention .whole .gcp) (twoThreads line.length) hevents hsound
  refine ⟨line.length, ?_⟩
  have hfree : ((threadMachine Bool .reference .whole (.fromConvention .whole .gcp)).run
      Threads.initial (twoThreads line.length) : Threads Bool).recordWriteLock.holder = none := by
    simp [twoThreads, threadMachine, Machine.run, Threads.step, Threads.initial, Threads.setStage,
      hformat, hpos, Work.step, Work.start, Work.writeAll, Work.flush]
  have hhistory : (linearized ((historyMachine Bool .reference .whole
      (.fromConvention .whole .gcp)).answers Threads.initial (twoThreads line.length))).map
        (fun d => d.2.1) = [startedEvent, startedEvent] := by
    simp [twoThreads, historyMachine, Machine.answers, Threads.step, Threads.initial,
      Threads.setStage, hformat, hpos, Work.step, Work.start, Work.writeAll, Work.flush, linearized,
      linearizedFrom, point, atWork, atWorkAfter, Note.settles]
  have hobjects := (hread hfree).2
  rw [hhistory] at hobjects
  exact hobjects

end AxumObservability
