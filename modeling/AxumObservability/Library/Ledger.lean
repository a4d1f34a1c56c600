import Mathlib.Data.List.Induction
import Mathlib.Logic.Function.Basic
import AxumObservability.Library.Machines

/-!
# Sessions and their ledger

Any number of sessions of one machine, opened and driven in any order. Each is opened
in a state of its own, under a label; the ledger gets an entry when a session has its
first event, and none for it from then on.

* `sessionOf_concat`: what one act adds to the history of a session;
* `Ledger.run_spec`: over every interleaving the ledger has one entry for each session
  that had an event, with the first one.
-/

namespace Library.Machines

variable {ι ο κ τ ε : Type}

/-! ## Histories -/

/-- What is done to a session. -/
inductive Act (τ σ ι : Type) where
  | opened (label : τ) (start : σ)
  | given (i : ι)

/-- A session's label, the state it was opened in, and its inputs since. -/
structure Session (τ σ ι : Type) where
  label : τ
  start : σ
  inputs : List ι

/-- A session after one more act. Nothing is given to it before it is opened, and it is
opened once. -/
def Act.extend {σ : Type} : Act τ σ ι → Option (Session τ σ ι) → Option (Session τ σ ι)
  | .opened label start, none => some ⟨label, start, []⟩
  | .opened _ _, some session => some session
  | .given _, none => none
  | .given i, some session => some { session with inputs := session.inputs ++ [i] }

variable [DecidableEq κ]

/-- The session of a key, in an interleaving of acts on many. -/
def sessionOf {σ : Type} (k : κ) (acts : List (κ × Act τ σ ι)) : Option (Session τ σ ι) :=
  acts.foldl (fun session act => if act.1 = k then act.2.extend session else session) none

theorem sessionOf_nil {σ : Type} (k : κ) :
    sessionOf k ([] : List (κ × Act τ σ ι)) = none := rfl

theorem sessionOf_concat {σ : Type} (k : κ) (acts : List (κ × Act τ σ ι)) (k' : κ)
    (act : Act τ σ ι) : sessionOf k (acts ++ [(k', act)]) =
      if k' = k then act.extend (sessionOf k acts) else sessionOf k acts := by
  rw [sessionOf, List.foldl_append, List.foldl_cons, List.foldl_nil, ← sessionOf]

/-! ## The ledger -/

/-- Where the sessions are, and the entries so far. -/
structure Ledger (κ τ ε : Type) (m : Machine ι ο) where
  session : κ → Option (τ × m.State)
  entries : List (κ × τ × ε)

namespace Ledger

variable {m : Machine ι ο}

def empty : Ledger κ τ ε m := ⟨fun _ => none, []⟩

/-- A session that has had its event. -/
def Closed (l : Ledger κ τ ε m) (k : κ) : Prop := k ∈ l.entries.map Prod.fst

instance (l : Ledger κ τ ε m) (k : κ) : Decidable (l.Closed k) :=
  inferInstanceAs (Decidable (k ∈ l.entries.map Prod.fst))

variable (event : m.State → ι → Option ε)

def step (l : Ledger κ τ ε m) (k : κ) : Act τ m.State ι → Ledger κ τ ε m
  | .opened label start =>
    match l.session k with
    | none => { l with session := Function.update l.session k (some (label, start)) }
    | some _ => l
  | .given i =>
    match l.session k with
    | none => l
    | some (label, s) =>
      { session := Function.update l.session k (some (label, (m.step s i).2))
        entries := l.entries ++
          if l.Closed k then [] else ((event s i).map fun e => (k, label, e)).toList }

def run (l : Ledger κ τ ε m) (acts : List (κ × Act τ m.State ι)) : Ledger κ τ ε m :=
  acts.foldl (fun l act => l.step event act.1 act.2) l

theorem run_append (l : Ledger κ τ ε m) (acts acts' : List (κ × Act τ m.State ι)) :
    l.run event (acts ++ acts') = (l.run event acts).run event acts' := by
  rw [run, List.foldl_append, ← run, ← run]

theorem run_concat (l : Ledger κ τ ε m) (acts : List (κ × Act τ m.State ι)) (k : κ)
    (act : Act τ m.State ι) :
    l.run event (acts ++ [(k, act)]) = (l.run event acts).step event k act :=
  l.run_append event acts [(k, act)]

theorem step_of_ne (l : Ledger κ τ ε m) {k k' : κ} (h : k' ≠ k) (act : Act τ m.State ι) :
    (l.step event k act).session k' = l.session k' ∧
      ((l.step event k act).Closed k' ↔ l.Closed k') := by
  cases act with
  | opened label start =>
    cases hl : l.session k <;> simp [step, hl, Closed, h]
  | given i =>
    cases hl : l.session k with
    | none => simp [step, hl]
    | some session =>
      have h' := h.symm
      by_cases hclosed : l.Closed k <;> simp_all [step, Closed]

theorem step_opened {l : Ledger κ τ ε m} {k : κ} (h : l.session k = none) (label : τ)
    (start : m.State) : l.step event k (.opened label start) =
      { l with session := Function.update l.session k (some (label, start)) } := by
  simp only [step, h]

theorem step_given_none {l : Ledger κ τ ε m} {k : κ} (h : l.session k = none) (i : ι) :
    l.step event k (.given i) = l := by
  simp only [step, h]

/-- An input to a session that goes on. -/
theorem step_given {l : Ledger κ τ ε m} {k : κ} {label : τ} {s : m.State}
    (h : l.session k = some (label, s)) (i : ι) :
    (l.step event k (.given i)).session k = some (label, (m.step s i).2) ∧
      ((l.step event k (.given i)).Closed k ↔ l.Closed k ∨ (event s i).isSome = true) ∧
      (l.step event k (.given i)).entries = l.entries ++
        if l.Closed k then [] else ((event s i).map fun e => (k, label, e)).toList := by
  by_cases hclosed : l.Closed k <;> cases he : event s i <;> simp_all [step, Closed]

/-- The ledger of a history: where each session is, and one entry for each one that had
an event. -/
structure Keeps (acts : List (κ × Act τ m.State ι)) (l : Ledger κ τ ε m) : Prop where
  session : ∀ k, l.session k =
    (sessionOf k acts).map fun session => (session.label, m.run session.start session.inputs)
  entry : ∀ k label e, (k, label, e) ∈ l.entries ↔ ∃ session, sessionOf k acts = some session ∧
    session.label = label ∧ m.firstEvent event session.start session.inputs = some e
  once : (l.entries.map Prod.fst).Nodup

variable {event} {acts : List (κ × Act τ m.State ι)} {l : Ledger κ τ ε m}

theorem Keeps.nil : Keeps event ([] : List (κ × Act τ m.State ι)) (empty : Ledger κ τ ε m) where
  session := fun _ => rfl
  entry := fun _ _ _ => ⟨nofun, fun ⟨_, h, _⟩ => nomatch h⟩
  once := List.nodup_nil

theorem Keeps.closed_iff (h : Keeps event acts l) {k : κ} {session : Session τ m.State ι}
    (hsession : sessionOf k acts = some session) :
    l.Closed k ↔ ∃ e, m.firstEvent event session.start session.inputs = some e := by
  constructor
  · intro hclosed
    obtain ⟨⟨_, label, e⟩, hentry, rfl⟩ := List.mem_map.mp hclosed
    obtain ⟨session', hsession', -, he⟩ := (h.entry _ label e).mp hentry
    cases hsession.symm.trans hsession'
    exact ⟨e, he⟩
  · rintro ⟨e, he⟩
    exact List.mem_map.mpr ⟨_, (h.entry k session.label e).mpr ⟨session, hsession, rfl, he⟩, rfl⟩

/-- An act that leaves the history of its session alone leaves the ledger alone. -/
theorem Keeps.quiet (h : Keeps event acts l) {k : κ} {act : Act τ m.State ι}
    (hact : act.extend (sessionOf k acts) = sessionOf k acts) :
    Keeps event (acts ++ [(k, act)]) l := by
  have hsame : ∀ k', sessionOf k' (acts ++ [(k, act)]) = sessionOf k' acts := by
    intro k'
    rw [sessionOf_concat]
    split
    · rename_i hk
      rw [← hk, hact]
    · rfl
  exact ⟨fun k' => by rw [hsame, h.session], fun k' label e => by rw [hsame, h.entry], h.once⟩

theorem Keeps.opened (h : Keeps event acts l) {k : κ} (hnone : sessionOf k acts = none)
    (label : τ) (start : m.State) : Keeps event (acts ++ [(k, .opened label start)])
      { l with session := Function.update l.session k (some (label, start)) } where
  session := fun k' => by
    dsimp only
    rw [sessionOf_concat]
    by_cases hk : k' = k
    · rw [if_pos hk.symm, hk, Function.update_self, hnone]
      rfl
    · rw [if_neg (Ne.symm hk), Function.update_of_ne hk, h.session]
  entry := fun k' label' e => by
    rw [sessionOf_concat, h.entry]
    by_cases hk : k = k'
    · rw [if_pos hk, ← hk, hnone]
      refine iff_of_false (fun ⟨_, hsome, _⟩ => nomatch hsome) ?_
      rintro ⟨_, ⟨⟩, -, he⟩
      cases he
    · rw [if_neg hk]
  once := h.once

/-- An input to a session: it makes the session's entry, or none. -/
theorem Keeps.given (h : Keeps event acts l) {k : κ} {session : Session τ m.State ι}
    (hsession : sessionOf k acts = some session) (i : ι) :
    let s := m.run session.start session.inputs
    Keeps event (acts ++ [(k, .given i)])
      { session := Function.update l.session k (some (session.label, (m.step s i).2))
        entries := l.entries ++ if l.Closed k then [] else
          ((event s i).map fun e => (k, session.label, e)).toList } := by
  intro s
  have hafter : sessionOf k (acts ++ [(k, .given i)]) =
      some { session with inputs := session.inputs ++ [i] } := by
    rw [sessionOf_concat, if_pos rfl, hsession]
    rfl
  have hother : ∀ k', k' ≠ k → sessionOf k' (acts ++ [(k, .given i)]) = sessionOf k' acts :=
    fun k' hk => by rw [sessionOf_concat, if_neg (Ne.symm hk)]
  have hfirst : m.firstEvent event session.start (session.inputs ++ [i]) =
      (m.firstEvent event session.start session.inputs).or (event s i) := by
    rw [Machine.firstEvent_append, Machine.firstEvent, Machine.firstEvent, Option.or_none]
  have hentry : ∀ k' label e, (k', label, e) ∈ (if l.Closed k then [] else
      ((event s i).map fun e => (k, session.label, e)).toList) ↔
      k' = k ∧ label = session.label ∧ ¬ l.Closed k ∧ event s i = some e := by
    intro k' label e
    split
    · simp_all
    · cases event s i <;> simp_all [eq_comm]
  refine ⟨fun k' => ?_, fun k' label e => ?_, ?_⟩
  · dsimp only
    by_cases hk : k' = k
    · rw [hk, Function.update_self, hafter, Option.map_some, Machine.run_append]
      rfl
    · rw [Function.update_of_ne hk, hother k' hk, h.session]
  · rw [List.mem_append, h.entry, hentry]
    by_cases hk : k' = k
    · rw [hk, hafter, hsession, h.closed_iff hsession]
      simp only [Option.some.injEq, exists_eq_left', hfirst]
      cases m.firstEvent event session.start session.inputs <;> simp [eq_comm]
    · rw [hother k' hk]
      simp [hk]
  · dsimp only
    split
    · rw [List.append_nil]
      exact h.once
    · rename_i hopen
      cases event s i with
      | none => simpa using h.once
      | some e =>
        rw [Option.map_some, Option.toList_some, List.map_append, List.nodup_append]
        refine ⟨h.once, List.nodup_cons.mpr ⟨List.not_mem_nil, List.nodup_nil⟩, ?_⟩
        rintro k' hk' _ hmem rfl
        obtain rfl : k' = k := by simpa using hmem
        exact hopen hk'

theorem Keeps.step (h : Keeps event acts l) (k : κ) (act : Act τ m.State ι) :
    Keeps event (acts ++ [(k, act)]) (l.step event k act) := by
  have hl := h.session k
  cases hsession : sessionOf k acts with
  | none =>
    rw [hsession, Option.map_none] at hl
    cases act with
    | opened label start =>
      simp only [Ledger.step, hl]
      exact h.opened hsession label start
    | given i =>
      simp only [Ledger.step, hl]
      exact h.quiet (by rw [hsession]; rfl)
  | some session =>
    rw [hsession, Option.map_some] at hl
    cases act with
    | opened label start =>
      simp only [Ledger.step, hl]
      exact h.quiet (by rw [hsession]; rfl)
    | given i =>
      simp only [Ledger.step, hl]
      exact h.given hsession i

/-- **One entry for each session that had an event**, with the first one, whatever the
interleaving. -/
theorem run_spec (event : m.State → ι → Option ε) (acts : List (κ × Act τ m.State ι)) :
    Keeps event acts ((empty : Ledger κ τ ε m).run event acts) := by
  induction acts using List.reverseRecOn with
  | nil => exact Keeps.nil
  | append_singleton acts act ih =>
    obtain ⟨k, act⟩ := act
    rw [run_concat]
    exact ih.step k act

end Ledger

end Library.Machines
