import AxumObservability.Linearization

/-!
# The end of every run

Whatever has happened so far, the threads can go on to the end: a panic that has poisoned the
lock stops none of them, and no line that waits is lost.

* `Work.Valid.finish`: what the holder has left to do with its record;
* `Threads.settled_spec`: what becomes of one thread after another;
* `run_drains`: from the end of every run the threads come to rest.
-/

namespace AxumObservability

open Library.Machines Library.Text

/-! ## One record -/

/-- What the writer has not accepted yet of a record that is not decided. -/
def Work.rest (work : Work) : Bytes :=
  if work.stage.unsettled then work.line.drop work.accepted else []

theorem Work.rest_of_unsettled {work : Work} (h : work.stage.unsettled = true) :
    work.rest = work.line.drop work.accepted := if_pos h

theorem Work.rest_of_settled {work : Work} (h : work.stage.unsettled = false) : work.rest = [] :=
  if_neg (by simp [h])

/-- What the holder has left to do, up to the release of the lock. Its writer takes all that
it is offered. -/
def Work.finishing (line : Bytes) : List Action :=
  [.makeWriterFor false, .write (.accepted (line.length + 1)), .dropWriter false]

theorem Work.Valid.buffer_append {work : Work} (h : work.Valid) :
    work.buffer ++ work.line.drop work.accepted = work.line.drop work.flushed := by
  have hlength : work.flushed ≤ (work.line.take work.accepted).length := by
    rw [List.length_take, Nat.min_eq_left h.accepted]
    exact h.flushed
  rw [Work.buffer, ← List.drop_append_of_le_length hlength, List.take_append_drop]

/-- The calls lead to the release of the lock, and they write these bytes. -/
def Work.Finishes (layer : JsonLayer) (work : Work) (out : LogOutput) (actions : List Action)
    (bytes : Bytes) : Prop :=
  ∃ work' unwinding, (workMachine layer).run (work, out) actions =
      (work', ⟨out.sink ++ bytes, out.diagnostics⟩) ∧ work'.stage = .releasing unwinding

/-- One call more that writes nothing. -/
theorem Work.Finishes.cons {layer : JsonLayer} {work work₁ : Work} {out : LogOutput}
    {action : Action} {actions : List Action} {bytes : Bytes}
    (hstep : (work.step layer out action).2 = (work₁, out))
    (h : work₁.Finishes layer out actions bytes) :
    work.Finishes layer out (action :: actions) bytes := by
  obtain ⟨work', unwinding, hrun, hstage⟩ := h
  have hnext := congrArg (fun s : Work × LogOutput => (workMachine layer).run s actions) hstep
  exact ⟨work', unwinding, hnext.trans hrun, hstage⟩

/-- The writer of a decided record hands on what it holds back. -/
theorem Work.finishes_of_dropping (layer : JsonLayer) (work : Work)
    (hstage : work.stage = .dropping) (out : LogOutput) :
    work.Finishes layer out [.dropWriter false] work.buffer := by
  obtain ⟨line, accepted, flushed, returned, stage⟩ := work
  cases hstage
  refine ⟨_, false || returned.isNone, Prod.ext rfl ?_, rfl⟩
  simp [Machine.run, workMachine, Work.step, Work.flush]

/-- A writer that takes all it is offered has the whole line after one call. -/
theorem Work.finishes_of_writing (layer : JsonLayer) (work : Work) (hstage : work.stage = .writing)
    (out : LogOutput) : work.Finishes layer out
      [.write (.accepted (work.line.length + 1)), .dropWriter false]
      (work.line.drop work.flushed) := by
  obtain ⟨line, accepted, flushed, returned, stage⟩ := work
  cases hstage
  have hall : min line.length (accepted + (line.length + 1)) = line.length := by omega
  have hdrop := Work.finishes_of_dropping layer
    ⟨line, line.length, flushed, some (.ok ()), .dropping⟩ rfl out
  rw [Work.buffer, List.take_length] at hdrop
  refine Work.Finishes.cons ?_ hdrop
  simp [Work.step, Work.writeAll, hall]

/-- **The rest of a record.**  From every stage of the work the same calls lead to the release
of the lock, and they write what is left of the line. -/
theorem Work.Valid.finish {work : Work} (h : work.Valid) (layer : JsonLayer) (out : LogOutput) :
    work.Finishes layer out (Work.finishing work.line) (work.buffer ++ work.rest) := by
  have hidle : ∀ {actions bytes} action, (work.step layer out action).2 = (work, out) →
      work.Finishes layer out actions bytes → work.Finishes layer out (action :: actions) bytes :=
    fun _ hstep => Work.Finishes.cons hstep
  cases hstage : work.stage with
  | making =>
    rw [Work.rest_of_unsettled (by rw [hstage]; rfl), h.buffer_append]
    by_cases hmore : work.accepted < work.line.length
    · refine Work.Finishes.cons ?_
        (Work.finishes_of_writing layer { work with stage := .writing } rfl out)
      simp [Work.step, Work.writeAll, hstage, hmore]
    · let decided : Work := { work with returned := some (.ok ()), stage := .dropping }
      have hdrop := Work.finishes_of_dropping layer decided rfl out
      rw [Work.buffer, List.take_of_length_le (Nat.le_of_not_lt hmore)] at hdrop
      have hwrite : decided.Finishes layer out
          [.write (.accepted (work.line.length + 1)), .dropWriter false] _ := .cons rfl hdrop
      refine Work.Finishes.cons ?_ hwrite
      simp [decided, Work.step, Work.writeAll, hstage, hmore]
  | writing =>
    rw [Work.rest_of_unsettled (by rw [hstage]; rfl), h.buffer_append]
    exact hidle _ (by simp [Work.step, hstage]) (Work.finishes_of_writing layer work hstage out)
  | dropping =>
    rw [Work.rest_of_settled (by rw [hstage]; rfl), List.append_nil]
    exact hidle _ (by simp [Work.step, hstage]) (hidle _ (by simp [Work.step, hstage])
      (Work.finishes_of_dropping layer work hstage out))
  | releasing unwinding =>
    rw [Work.rest_of_settled (by rw [hstage]; rfl), List.append_nil, Work.buffer,
      h.released unwinding hstage, List.drop_take_self]
    have hend : work.Finishes layer out [] [] :=
      ⟨work, unwinding, Prod.ext rfl (by simp [Machine.run]), hstage⟩
    exact hidle _ (by simp [Work.step, hstage]) (hidle _ (by simp [Work.step, hstage])
      (hidle _ (by simp [Work.step, hstage]) hend))

/-! ## One thread after another -/

variable {θ : Type}

/-- What is left of the record in progress. -/
def Threads.rest (s : Threads θ) : Bytes :=
  match s.recordWriteLock.holder.map s.stage with
  | some (.holding work) => work.rest
  | _ => []

/-- What a thread that has begun a line does next, to the end of it. -/
def ThreadStage.settling : ThreadStage → List Action
  | .idle => []
  | .waiting line => .lock :: Work.finishing line ++ [.unlock]
  | .holding work => Work.finishing work.line ++ [.unlock]

/-- The steps of the holder, if there is one, and then those of the threads in this order. -/
def Threads.draining (s : Threads θ) (order : List θ) : List (θ × Action) :=
  (s.recordWriteLock.holder.toList ++ order).flatMap fun t => (s.stage t).settling.map (t, ·)

variable [DecidableEq θ]

/-- A thread has come to rest with the lock free, and these bytes were written meanwhile. -/
structure Threads.Settles (s : Threads θ) (t : θ) (bytes : Bytes) (s' : Threads θ) : Prop where
  stage : s'.stage = Function.update s.stage t .idle
  free : s'.recordWriteLock.holder = none
  sink : s'.out.sink = s.out.sink ++ bytes
  diagnostics : s'.out.diagnostics = s.out.diagnostics

section

variable {serde : SerdeJson} {float : FloatArithmetic} {layer : JsonLayer} {s : Threads θ} {t : θ}

/-- The steps of the holder are those of the work on its record. -/
theorem Threads.run_holding (serde : SerdeJson) (float : FloatArithmetic) (layer : JsonLayer)
    {work work' : Work} {out' : LogOutput} (hstage : s.stage t = .holding work)
    (actions : List Action) (hactions : ∀ action ∈ actions, action ≠ .unlock)
    (hrun : (workMachine layer).run (work, s.out) actions = (work', out')) :
    (threadMachine θ serde float layer).run s (actions.map (t, ·)) =
      { s.setStage t (.holding work') with out := out' } := by
  induction actions generalizing s work with
  | nil =>
    cases hrun
    rw [← hstage, Threads.setStage, Function.update_eq_self]
    rfl
  | cons action actions ih =>
    obtain ⟨haction, hrest⟩ := List.forall_mem_cons.mp hactions
    have hstep : (s.step serde float layer t action).2 =
        { s.setStage t (.holding (work.step layer s.out action).2.1) with
          out := (work.step layer s.out action).2.2 } := by
      cases action with
      | unlock => exact absurd rfl haction
      | _ => simp only [Threads.step, hstage]
    have hnext : (s.step serde float layer t action).2.stage t =
        .holding (work.step layer s.out action).2.1 := by
      rw [hstep]
      exact s.stage_setStage t _
    refine (ih hnext hrest (by rw [hstep]; exact hrun)).trans ?_
    rw [hstep]
    simp only [Threads.setStage, Function.update_idem]
    rfl

theorem Threads.settles_holding (serde : SerdeJson) (float : FloatArithmetic) (layer : JsonLayer)
    {work : Work} (hstage : s.stage t = .holding work) (hvalid : work.Valid) :
    s.Settles t (work.buffer ++ work.rest) ((threadMachine θ serde float layer).run s
      ((s.stage t).settling.map (t, ·))) := by
  obtain ⟨work', unwinding, hrun, hreleasing⟩ := hvalid.finish layer s.out
  have hholding := Threads.run_holding serde float layer hstage _ (by simp [Work.finishing]) hrun
  have hunlock : ∀ out, Threads.step serde float layer
      { s.setStage t (.holding work') with out := out } t .unlock =
        (.unlocked, { s.setStage t .idle with
          recordWriteLock := ⟨none, s.recordWriteLock.poisoned || unwinding⟩, out := out }) := by
    intro out
    simp [Threads.step, Threads.setStage, hreleasing]
  have happend := Machine.run_append (m := threadMachine θ serde float layer) s
    ((Work.finishing work.line).map (t, ·)) [(t, .unlock)]
  have hend : (threadMachine θ serde float layer).run s ((s.stage t).settling.map (t, ·)) =
      { s.setStage t .idle with
        recordWriteLock := ⟨none, s.recordWriteLock.poisoned || unwinding⟩
        out := ⟨s.out.sink ++ (work.buffer ++ work.rest), s.out.diagnostics⟩ } := by
    rw [hstage, ThreadStage.settling, List.map_append]
    refine happend.trans ?_
    rw [hholding]
    exact congrArg Prod.snd (hunlock _)
  rw [hend]
  exact ⟨rfl, rfl, rfl, rfl⟩

theorem Threads.settles_waiting (serde : SerdeJson) (float : FloatArithmetic) (layer : JsonLayer)
    {line : Bytes} (hstage : s.stage t = .waiting line)
    (hfree : s.recordWriteLock.holder = none) :
    s.Settles t line ((threadMachine θ serde float layer).run s
      ((s.stage t).settling.map (t, ·))) := by
  have hlock : (s.step serde float layer t .lock).2 = { s.setStage t (.holding (.start line)) with
      recordWriteLock := { s.recordWriteLock with holder := some t } } := by
    simp only [Threads.step, hstage, hfree]
  have hheld : (s.step serde float layer t .lock).2.stage t = .holding (.start line) := by
    rw [hlock]
    exact s.stage_setStage t _
  have hrest := Threads.settles_holding serde float layer hheld (Work.valid_start line)
  rw [hheld] at hrest
  rw [hstage]
  refine ⟨?_, hrest.free, ?_, hrest.diagnostics.trans (by rw [hlock]; rfl)⟩
  · refine hrest.stage.trans ?_
    rw [hlock]
    simp only [Threads.setStage, Function.update_idem]
  · refine hrest.sink.trans ?_
    rw [hlock]
    simp [Threads.setStage, Work.start, Work.buffer, Work.rest, WorkStage.unsettled]

/-- **One thread after another.**  The lock is free before each of them and after the last,
and every line that waits is written whole. -/
theorem Threads.settled_spec (serde : SerdeJson) (float : FloatArithmetic) (layer : JsonLayer)
    (hfree : s.recordWriteLock.holder = none) {order : List θ} (hnodup : order.Nodup)
    (hwaiting : ∀ t ∈ order, ∃ line, s.stage t = .waiting line) :
    let final : Threads θ := (threadMachine θ serde float layer).run s
      (order.flatMap fun t => (s.stage t).settling.map (t, ·))
    (∀ t, final.stage t = if t ∈ order then .idle else s.stage t) ∧
      final.recordWriteLock.holder = none ∧
      final.out.sink = s.out.sink ++ (order.flatMap fun t => (s.stage t).pending).flatten ∧
      final.out.diagnostics = s.out.diagnostics := by
  induction order generalizing s with
  | nil => exact ⟨fun t => rfl, hfree, (List.append_nil _).symm, rfl⟩
  | cons t order ih =>
    obtain ⟨ht, hnodup⟩ := List.nodup_cons.mp hnodup
    obtain ⟨⟨line, hline⟩, hwaiting⟩ := List.forall_mem_cons.mp hwaiting
    have hsettles := Threads.settles_waiting serde float layer hline hfree
    have happend := Machine.run_append (m := threadMachine θ serde float layer) s
      ((s.stage t).settling.map (t, ·))
      (order.flatMap fun t => (s.stage t).settling.map (t, ·))
    obtain ⟨s', hs'⟩ : ∃ s' : Threads θ, (threadMachine θ serde float layer).run s
      ((s.stage t).settling.map (t, ·)) = s' := ⟨_, rfl⟩
    rw [hs'] at hsettles happend
    have hstage : ∀ t' ∈ order, s'.stage t' = s.stage t' := by
      intro t' ht'
      have hne : t' ≠ t := fun heq => ht (heq ▸ ht')
      rw [hsettles.stage, Function.update_of_ne hne]
    obtain ⟨hidle, hfree', hsink, hdiagnostics⟩ := ih hsettles.free hnodup fun t' ht' => by
      rw [hstage t' ht']
      exact hwaiting t' ht'
    have hactions : (order.flatMap fun t => (s'.stage t).settling.map (t, ·)) =
        order.flatMap fun t => (s.stage t).settling.map (t, ·) :=
      List.flatMap_congr fun t' ht' => by rw [hstage t' ht']
    have hpending : (order.flatMap fun t => (s'.stage t).pending) =
        order.flatMap fun t => (s.stage t).pending :=
      List.flatMap_congr fun t' ht' => by rw [hstage t' ht']
    rw [hactions, ← happend] at hidle hfree' hsink hdiagnostics
    rw [List.flatMap_cons, List.flatMap_cons]
    refine ⟨fun t' => (hidle t').trans ?_, hfree', hsink.trans ?_,
      hdiagnostics.trans hsettles.diagnostics⟩
    · by_cases ht' : t' = t
      · subst ht'
        rw [if_neg ht, if_pos List.mem_cons_self, hsettles.stage, Function.update_self]
      · rw [hsettles.stage, Function.update_of_ne ht']
        simp [ht']
    · rw [hsettles.sink, hpending, hline]
      simp [ThreadStage.pending]

/-- A step of one thread leaves the others where they are. -/
theorem Threads.step_stage_of_ne (serde : SerdeJson) (float : FloatArithmetic) (layer : JsonLayer)
    {t' : θ} (h : t' ≠ t) (action : Action) :
    (s.step serde float layer t action).2.stage t' = s.stage t' := by
  have hset : ∀ stage, (s.setStage t stage).stage t' = s.stage t' := s.stage_setStage_of_ne h
  unfold Threads.step
  split
  · split
    · split
      · rfl
      · rfl
      · exact hset _
    · rfl
  · split
    · exact hset _
    · rfl
  · split
    · exact hset _
    · exact hset _

/-- At no time has more than a list of threads begun a line. -/
theorem Threads.exists_waiting (serde : SerdeJson) (float : FloatArithmetic) (layer : JsonLayer)
    (ops : List (θ × Action)) :
    let s : Threads θ := (threadMachine θ serde float layer).run Threads.initial ops
    ∃ order : List θ, order.Nodup ∧ ∀ t, t ∈ order ↔ ∃ line, s.stage t = .waiting line := by
  intro s
  obtain ⟨busy, hbusy⟩ : ∃ busy : List θ, ∀ t, s.stage t ≠ .idle → t ∈ busy :=
    Machine.run_invariant (m := threadMachine θ serde float layer)
      (P := fun s : Threads θ => ∃ busy : List θ, ∀ t, s.stage t ≠ .idle → t ∈ busy)
      (fun (s : Threads θ) op h => by
        obtain ⟨busy, hbusy⟩ := h
        refine ⟨op.1 :: busy, fun t ht => ?_⟩
        by_cases heq : t = op.1
        · exact heq ▸ List.mem_cons_self
        · have hsame := s.step_stage_of_ne serde float layer heq op.2
          exact List.mem_cons_of_mem _ (hbusy t fun hidle => ht (hsame.trans hidle)))
      ⟨[], fun t ht => absurd rfl ht⟩ ops
  refine ⟨busy.dedup.filter fun t => !(s.stage t).pending.isEmpty,
    (List.nodup_dedup busy).filter _, fun t => ?_⟩
  rw [List.mem_filter, List.mem_dedup]
  cases hstage : s.stage t with
  | waiting line => simp [ThreadStage.pending, hbusy t (by simp [hstage])]
  | _ => simp [ThreadStage.pending]

/-- The holder comes to rest, if there is one. The threads that wait go on waiting. -/
theorem Threads.settled_holder {trace : List (θ × Note)} {done : List (Block θ)}
    {current : Option (θ × Work)} (h : Log serde float layer s trace done current) :
    let s' : Threads θ := (threadMachine θ serde float layer).run s
      (s.recordWriteLock.holder.toList.flatMap fun t => (s.stage t).settling.map (t, ·))
    (∀ t, s'.stage t = .idle ∨ ∃ line, s.stage t = .waiting line ∧ s'.stage t = .waiting line) ∧
      (∀ t line, s.stage t = .waiting line → s'.stage t = .waiting line) ∧
      s'.recordWriteLock.holder = none ∧
      s'.out.sink = s.out.sink ++ s.buffer ++ s.rest ∧
      s'.out.diagnostics = s.out.diagnostics := by
  cases hcurrent : current with
  | none =>
    have hfree : s.recordWriteLock.holder = none := by rw [h.holder, hcurrent]; rfl
    have hbytes : s.buffer = [] ∧ s.rest = [] := by
      rw [Threads.buffer, Threads.rest, hfree]
      exact ⟨rfl, rfl⟩
    rw [hfree, hbytes.1, hbytes.2]
    refine ⟨fun t => ?_, fun t line => id, hfree, by simp [Machine.run], rfl⟩
    cases hstage : s.stage t with
    | idle => exact Or.inl hstage
    | waiting line => exact Or.inr ⟨line, rfl, hstage⟩
    | holding work =>
      have hheld := (h.holding t work).mp hstage
      rw [hcurrent] at hheld
      cases hheld
  | some c =>
    obtain ⟨t, work⟩ := c
    have hheld : s.recordWriteLock.holder = some t := by rw [h.holder, hcurrent]; rfl
    have hstage := (h.holding t work).mpr hcurrent
    have hsettles := Threads.settles_holding serde float layer hstage (h.valid t work hcurrent)
    have hbytes : s.buffer = work.buffer ∧ s.rest = work.rest := by
      rw [Threads.buffer_of_holding hheld hstage, Threads.rest, hheld, Option.map_some, hstage]
      exact ⟨rfl, rfl⟩
    rw [hheld, hbytes.1, hbytes.2, Option.toList_some, List.flatMap_singleton]
    refine ⟨fun t' => ?_, fun t' line hline => ?_, hsettles.free, ?_, hsettles.diagnostics⟩
    · rw [hsettles.stage]
      by_cases ht : t' = t
      · exact Or.inl (by rw [ht, Function.update_self])
      · rw [Function.update_of_ne ht]
        cases hstage' : s.stage t' with
        | idle => exact Or.inl rfl
        | waiting line => exact Or.inr ⟨line, rfl, rfl⟩
        | holding work' =>
          have hheld' := (h.holding t' work').mp hstage'
          rw [hcurrent] at hheld'
          cases hheld'
          exact absurd rfl ht
    · have ht : t' ≠ t := by
        rintro rfl
        cases hstage.symm.trans hline
      rw [hsettles.stage, Function.update_of_ne ht, hline]
    · rw [hsettles.sink, List.append_assoc]

end

/-- **Every run can be brought to its end.**  Whatever the threads and their writers have done,
and whether or not a panic has poisoned the lock: if no new events come and the writers take
what they are offered, the holder releases the lock, and then the threads that wait get it in
any order there may be. All come to rest, nothing is reported any more, and the output goes
on with what was held back, the rest of the record in progress, and the whole line of every
thread that waited. -/
theorem run_drains (θ : Type) [DecidableEq θ] (serde : SerdeJson) (float : FloatArithmetic)
    (layer : JsonLayer) (ops : List (θ × Action)) :
    let s : Threads θ := (threadMachine θ serde float layer).run Threads.initial ops
    (∃ order : List θ, order.Nodup ∧ ∀ t, t ∈ order ↔ ∃ line, s.stage t = .waiting line) ∧
    ∀ order : List θ, order.Nodup → (∀ t, t ∈ order ↔ ∃ line, s.stage t = .waiting line) →
      let final : Threads θ := (threadMachine θ serde float layer).run Threads.initial
        (ops ++ s.draining order)
      (∀ t e, (t, .onEvent e) ∉ s.draining order) ∧
      (∀ t, final.stage t = .idle) ∧
      final.recordWriteLock.holder = none ∧
      final.out.sink = s.out.sink ++ s.buffer ++ s.rest ++
        (order.flatMap fun t => (s.stage t).pending).flatten ∧
      final.out.diagnostics = s.out.diagnostics := by
  intro s
  refine ⟨Threads.exists_waiting serde float layer ops, fun order hnodup horder => ?_⟩
  intro final
  obtain ⟨⟨trace, done, current, hlog⟩, -⟩ := exists_linear serde float layer ops
  obtain ⟨hstages, hwaiting, hfree, hsink, hdiagnostics⟩ := Threads.settled_holder hlog
  obtain ⟨s', hs'⟩ : ∃ s' : Threads θ, (threadMachine θ serde float layer).run s
    (s.recordWriteLock.holder.toList.flatMap fun t => (s.stage t).settling.map (t, ·)) = s' :=
    ⟨_, rfl⟩
  rw [hs'] at hstages hwaiting hfree hsink hdiagnostics
  have hsame : ∀ t ∈ order, s'.stage t = s.stage t := by
    intro t ht
    obtain ⟨line, hline⟩ := (horder t).mp ht
    rw [hline, hwaiting t line hline]
  have hactions : (order.flatMap fun t => (s'.stage t).settling.map (t, ·)) =
      order.flatMap fun t => (s.stage t).settling.map (t, ·) :=
    List.flatMap_congr fun t ht => by rw [hsame t ht]
  have hpending : (order.flatMap fun t => (s'.stage t).pending) =
      order.flatMap fun t => (s.stage t).pending :=
    List.flatMap_congr fun t ht => by rw [hsame t ht]
  have hfinal : final = (threadMachine θ serde float layer).run s'
      (order.flatMap fun t => (s'.stage t).settling.map (t, ·)) := by
    have hdrain := Machine.run_append (m := threadMachine θ serde float layer) s
      (s.recordWriteLock.holder.toList.flatMap fun t => (s.stage t).settling.map (t, ·))
      (order.flatMap fun t => (s.stage t).settling.map (t, ·))
    rw [hs', ← List.flatMap_append] at hdrain
    rw [hactions, ← hdrain]
    exact Machine.run_append (m := threadMachine θ serde float layer) Threads.initial ops _
  obtain ⟨hidle, hfree', hsink', hdiagnostics'⟩ := Threads.settled_spec serde float layer hfree
    hnodup fun t ht => by
      rw [hsame t ht]
      exact (horder t).mp ht
  rw [← hfinal] at hidle hfree' hsink' hdiagnostics'
  refine ⟨fun t e hmem => ?_, fun t => ?_, hfree', ?_, hdiagnostics'.trans hdiagnostics⟩
  · obtain ⟨t', -, hmem⟩ := List.mem_flatMap.mp hmem
    obtain ⟨action, haction, heq⟩ := List.mem_map.mp hmem
    cases heq
    cases hstage : s.stage t <;> simp [hstage, ThreadStage.settling, Work.finishing] at haction
  · rw [hidle t]
    split
    · rfl
    · rename_i ht
      rcases hstages t with hdone | ⟨line, hline, -⟩
      · exact hdone
      · exact absurd ((horder t).mpr ⟨line, hline⟩) ht
  · rw [hsink', hsink, hpending]

end AxumObservability
