import Mathlib.Data.List.Basic

/-!
# Machines driven by inputs

Deterministic machines that answer one input after another, runs over any list of
inputs, and the rules by which facts about one step become facts about a run.

* `lockstep`: two machines whose steps keep a relation answer alike along every
  run;
* `lockstepPart`: a machine in step with a part of another one;
* `Machine.run_related`: a relation that steps on related inputs keep;
* `Machine.run_invariant`, `Machine.history`: invariants of a state, and of a state
  and the answers that led to it;
* `Machine.run_of_firstEvent_none`, `Machine.run_of_firstEvent_some`: what holds up to
  the first event of a run, and from it on;
* `latch`, `oneShot`: a machine with a latch logs the first event of a run, once.
-/

namespace Library.Machines

structure Machine (ι ο : Type) where
  State : Type
  step : State → ι → ο × State

variable {ι ο ο' κ : Type}

namespace Machine

variable (m : Machine ι ο)

/-- The state after a list of inputs. -/
def run (s : m.State) : List ι → m.State
  | [] => s
  | i :: is => run (m.step s i).2 is

/-- The answers to a list of inputs. -/
def answers (s : m.State) : List ι → List ο
  | [] => []
  | i :: is => (m.step s i).1 :: answers (m.step s i).2 is

/-- The first event along a run, where `event` says which step makes one. -/
def firstEvent (event : m.State → ι → Option κ) (s : m.State) : List ι → Option κ
  | [] => none
  | i :: is => (event s i).or (firstEvent event (m.step s i).2 is)

variable {m}

theorem run_append (s : m.State) (is js : List ι) : m.run s (is ++ js) = m.run (m.run s is) js := by
  induction is generalizing s with
  | nil => rfl
  | cons i is ih => exact ih _

theorem answers_append (s : m.State) (is js : List ι) :
    m.answers s (is ++ js) = m.answers s is ++ m.answers (m.run s is) js := by
  induction is generalizing s with
  | nil => rfl
  | cons i is ih => exact congrArg (List.cons _) (ih _)

theorem firstEvent_append (event : m.State → ι → Option κ) (s : m.State) (is js : List ι) :
    m.firstEvent event s (is ++ js) =
      (m.firstEvent event s is).or (m.firstEvent event (m.run s is) js) := by
  induction is generalizing s with
  | nil => rw [List.nil_append, firstEvent, Option.none_or, run]
  | cons i is ih => rw [List.cons_append, firstEvent, firstEvent, ih, Option.or_assoc, run]

/-- **Invariants.**  What every step keeps holds after every run. -/
theorem run_invariant {P : m.State → Prop} (hstep : ∀ s i, P s → P (m.step s i).2)
    {s : m.State} (hs : P s) (is : List ι) : P (m.run s is) := by
  induction is generalizing s with
  | nil => exact hs
  | cons i is ih => exact ih (hstep s i hs)

/-- **History invariants.**  What every step keeps of a state and the answers so far holds
after every run. -/
theorem history {P : m.State → List ο → Prop}
    (hstep : ∀ s os i, P s os → P (m.step s i).2 (os ++ [(m.step s i).1])) {s : m.State}
    {os : List ο} (hs : P s os) (is : List ι) : P (m.run s is) (os ++ m.answers s is) := by
  induction is generalizing s os with
  | nil => rwa [answers, List.append_nil]
  | cons i is ih =>
    rw [answers, List.append_cons]
    exact ih (hstep s os i hs)

/-- **Up to the first event.**  What every good step without an event keeps holds
after a run of good steps in which there was none. -/
theorem run_of_firstEvent_none {P : m.State → Prop} {G : m.State → ι → Prop}
    (event : m.State → ι → Option κ)
    (hstep : ∀ s i, P s → event s i = none → G s i → P (m.step s i).2) {s : m.State} (hs : P s)
    (is : List ι) (hgood : ∀ before i after, is = before ++ i :: after →
      m.firstEvent event s before = none → G (m.run s before) i)
    (hnone : m.firstEvent event s is = none) : P (m.run s is) := by
  induction is generalizing s with
  | nil => exact hs
  | cons i is ih =>
    rw [firstEvent, Option.or_eq_none_iff] at hnone
    obtain ⟨hfirst, hrest⟩ := hnone
    refine ih (hstep s i hs hfirst (hgood [] i is rfl rfl)) (fun before j after heq hbefore => ?_)
      hrest
    refine hgood (i :: before) j after (by rw [heq, List.cons_append]) ?_
    rw [firstEvent, hfirst, Option.none_or, hbefore]

/-- **From the first event on.**  What a step with an event establishes, and every
step keeps, holds after a run in which it was the first. -/
theorem run_of_firstEvent_some {P : κ → m.State → Prop} (event : m.State → ι → Option κ)
    (hmade : ∀ s i e, event s i = some e → P e (m.step s i).2)
    (hkept : ∀ s i e, P e s → P e (m.step s i).2) {s : m.State} {is : List ι} {e : κ}
    (hsome : m.firstEvent event s is = some e) : P e (m.run s is) := by
  induction is generalizing s with
  | nil => cases hsome
  | cons i is ih =>
    rw [firstEvent, Option.or_eq_some_iff] at hsome
    rcases hsome with hsome | ⟨-, hsome⟩
    · exact run_invariant (fun s i => hkept s i e) (hmade s i e hsome) is
    · exact ih hsome

end Machine

/-- **Two runs side by side.**  Where steps on related inputs keep a relation between the
states, runs over related inputs do. -/
theorem Machine.run_related {ι' : Type} {m : Machine ι ο} {m' : Machine ι' ο'} {I : ι → ι' → Prop}
    {R : m.State → m'.State → Prop}
    (hstep : ∀ s s' i i', R s s' → I i i' → R (m.step s i).2 (m'.step s' i').2) {s : m.State}
    {s' : m'.State} (hs : R s s') {is : List ι} {is' : List ι'} (his : List.Forall₂ I is is') :
    R (m.run s is) (m'.run s' is') := by
  induction his generalizing s s' with
  | nil => exact hs
  | cons hi _ ih => exact ih (hstep _ _ _ _ hs hi)

theorem exists_mem_of_forall₂ {α β : Type} {R : α → β → Prop} {as : List α} {bs : List β}
    (h : List.Forall₂ R as bs) {a : α} (ha : a ∈ as) : ∃ b ∈ bs, R a b := by
  induction h with
  | nil => cases ha
  | cons hab hrest ih =>
    rcases List.mem_cons.mp ha with rfl | ha
    · exact ⟨_, List.mem_cons_self, hab⟩
    · obtain ⟨b, hb, hR⟩ := ih ha
      exact ⟨b, List.mem_cons_of_mem _ hb, hR⟩

variable {m : Machine ι ο} {m' : Machine ι ο'}

/-- **Lockstep.**  Where every step keeps a relation between the states and
relates the answers, whole runs do. -/
theorem lockstep {R : m.State → m'.State → Prop} {A : ο → ο' → Prop}
    (hstep : ∀ s s' i, R s s' → A (m.step s i).1 (m'.step s' i).1 ∧
      R (m.step s i).2 (m'.step s' i).2)
    {s : m.State} {s' : m'.State} (hs : R s s') (is : List ι) :
    List.Forall₂ A (m.answers s is) (m'.answers s' is) ∧ R (m.run s is) (m'.run s' is) := by
  induction is generalizing s s' with
  | nil => exact ⟨.nil, hs⟩
  | cons i is ih =>
    obtain ⟨hanswer, hnext⟩ := hstep s s' i hs
    obtain ⟨hanswers, hfinal⟩ := ih hnext
    exact ⟨.cons hanswer hanswers, hfinal⟩

/-- The answers to the inputs that `part` selects. -/
def selected {ι' : Type} (part : ι' → Option ι) (is : List ι') (os : List ο') : List ο' :=
  (is.zip os).filterMap fun io => (part io.1).map fun _ => io.2

/-- **Lockstep with a part.**  Where the inputs that `part` selects keep a machine in
step and all other good ones leave the relation alone, the machine answers like the part of
the other one, along every run over good inputs. -/
theorem lockstepPart {ι' : Type} {m' : Machine ι' ο'} {G : ι' → Prop} (part : ι' → Option ι)
    {R : m.State → m'.State → Prop} {A : ο → ο' → Prop}
    (hpart : ∀ s s' i j, part i = some j → R s s' → A (m.step s j).1 (m'.step s' i).1 ∧
      R (m.step s j).2 (m'.step s' i).2)
    (hother : ∀ s s' i, G i → part i = none → R s s' → R s (m'.step s' i).2)
    {s : m.State} {s' : m'.State} (hs : R s s') (is : List ι') (his : ∀ i ∈ is, G i) :
    List.Forall₂ A (m.answers s (is.filterMap part)) (selected part is (m'.answers s' is)) ∧
      R (m.run s (is.filterMap part)) (m'.run s' is) := by
  induction is generalizing s s' with
  | nil => exact ⟨.nil, hs⟩
  | cons i is ih =>
    obtain ⟨hgood, hrest⟩ := List.forall_mem_cons.mp his
    rw [selected, Machine.answers, List.zip_cons_cons]
    cases hi : part i with
    | none =>
      rw [List.filterMap_cons_none hi, List.filterMap_cons_none (by rw [hi]; rfl)]
      exact ih (hother s s' i hgood hi hs) hrest
    | some j =>
      obtain ⟨hanswer, hnext⟩ := hpart s s' i j hi hs
      obtain ⟨hanswers, hfinal⟩ := ih hnext hrest
      rw [List.filterMap_cons_some hi, List.filterMap_cons_some (by rw [hi]; rfl)]
      exact ⟨.cons hanswer hanswers, hfinal⟩

/-- **The latch.**  While it is armed a step logs nothing, or the entries of its event
and disarms; once disarmed nothing is logged. Then a run over good inputs logs the entries
of its first event and no others, and it is disarmed after the run exactly when there was
one. -/
theorem latch {ν : Type} {good : ι → Prop} {armed disarmed : m.State → m'.State → Prop}
    (event : m.State → ι → Option κ) (log : m'.State → List ν) {entries : κ → List ν → Prop}
    (harmed : ∀ s s' i, good i → armed s s' →
      (event s i = none ∧ log (m'.step s' i).2 = log s' ∧
        armed (m.step s i).2 (m'.step s' i).2) ∨
      ∃ e ls, event s i = some e ∧ entries e ls ∧ log (m'.step s' i).2 = log s' ++ ls ∧
        disarmed (m.step s i).2 (m'.step s' i).2)
    (hdisarmed : ∀ s s' i, disarmed s s' → log (m'.step s' i).2 = log s' ∧
      disarmed (m.step s i).2 (m'.step s' i).2)
    {s : m.State} {s' : m'.State} (hs : armed s s') (is : List ι) (his : ∀ i ∈ is, good i) :
    (m.firstEvent event s is = none ∧ log (m'.run s' is) = log s' ∧
      armed (m.run s is) (m'.run s' is)) ∨
    ∃ e ls, m.firstEvent event s is = some e ∧ entries e ls ∧
      log (m'.run s' is) = log s' ++ ls ∧ disarmed (m.run s is) (m'.run s' is) := by
  have hdone : ∀ (is : List ι) (s : m.State) (s' : m'.State), disarmed s s' →
      log (m'.run s' is) = log s' ∧ disarmed (m.run s is) (m'.run s' is) := by
    intro is
    induction is with
    | nil => exact fun s s' h => ⟨rfl, h⟩
    | cons i is ih =>
      intro s s' h
      obtain ⟨hlog, hnext⟩ := hdisarmed s s' i h
      obtain ⟨hrest, hfinal⟩ := ih _ _ hnext
      exact ⟨hrest.trans hlog, hfinal⟩
  induction is generalizing s s' with
  | nil => exact Or.inl ⟨rfl, rfl, hs⟩
  | cons i is ih =>
    have hgood := his i List.mem_cons_self
    have htail := fun j hj => his j (List.mem_cons_of_mem i hj)
    rcases harmed s s' i hgood hs with ⟨hnone, hlog, hnext⟩ | ⟨e, ls, hsome, hls, hlog, hnext⟩
    · rcases ih hnext htail with ⟨hfirst, hrest, hfinal⟩ | ⟨e, ls, hfirst, hls, hrest, hfinal⟩
      · refine Or.inl ⟨?_, hrest.trans hlog, hfinal⟩
        rw [Machine.firstEvent, hnone, Option.none_or, hfirst]
      · refine Or.inr ⟨e, ls, ?_, hls, ?_, hfinal⟩
        · rw [Machine.firstEvent, hnone, Option.none_or, hfirst]
        · rw [Machine.run, hrest, hlog]
    · obtain ⟨hrest, hfinal⟩ := hdone is _ _ hnext
      refine Or.inr ⟨e, ls, ?_, hls, hrest.trans hlog, hfinal⟩
      rw [Machine.firstEvent, hsome, Option.some_or]

/-- A latch whose events have one entry each. -/
theorem oneShot {ν : Type} {good : ι → Prop} {armed disarmed : m.State → m'.State → Prop}
    (event : m.State → ι → Option κ) (log : m'.State → List ν) {entry : κ → ν → Prop}
    (harmed : ∀ s s' i, good i → armed s s' →
      (event s i = none ∧ log (m'.step s' i).2 = log s' ∧
        armed (m.step s i).2 (m'.step s' i).2) ∨
      ∃ e l, event s i = some e ∧ entry e l ∧ log (m'.step s' i).2 = log s' ++ [l] ∧
        disarmed (m.step s i).2 (m'.step s' i).2)
    (hdisarmed : ∀ s s' i, disarmed s s' → log (m'.step s' i).2 = log s' ∧
      disarmed (m.step s i).2 (m'.step s' i).2)
    {s : m.State} {s' : m'.State} (hs : armed s s') (is : List ι) (his : ∀ i ∈ is, good i) :
    (m.firstEvent event s is = none ∧ log (m'.run s' is) = log s' ∧
      armed (m.run s is) (m'.run s' is)) ∨
    ∃ e l, m.firstEvent event s is = some e ∧ entry e l ∧
      log (m'.run s' is) = log s' ++ [l] ∧ disarmed (m.run s is) (m'.run s' is) := by
  have harmed' : ∀ s s' i, good i → armed s s' →
      (event s i = none ∧ log (m'.step s' i).2 = log s' ∧
        armed (m.step s i).2 (m'.step s' i).2) ∨
      ∃ e ls, event s i = some e ∧ (∃ l, ls = [l] ∧ entry e l) ∧
        log (m'.step s' i).2 = log s' ++ ls ∧ disarmed (m.step s i).2 (m'.step s' i).2 := by
    intro s s' i hi h
    refine (harmed s s' i hi h).imp_right ?_
    rintro ⟨e, l, hsome, hl, hlog, hnext⟩
    exact ⟨e, [l], hsome, ⟨l, rfl, hl⟩, hlog, hnext⟩
  refine (latch event log harmed' hdisarmed hs is his).imp_right ?_
  rintro ⟨e, _, hfirst, ⟨l, rfl, hl⟩, hlog, hfinal⟩
  exact ⟨e, l, hfirst, hl, hlog, hfinal⟩

end Library.Machines
