import Mathlib.Order.Defs.Unbundled
import Mathlib.Tactic.Common

/-!
# Computations that may panic

Indexing, slicing and unwrapping as a language with unwinding has them: each
returns its value or panics. A condition written with short-circuit connectives
evaluates its right side only where the left side asks for it, so a guard on
the left can keep an index on the right in range.

* `index_of_lt`, `slice_of_le`: in range nothing panics;
* `shortOr_ok`, `shortAnd_ok`: on values the connectives are the Boolean ones;
* `Returns.bind`: the rule of postconditions for computations on a state, where
  to return is not to panic;
* `Moves.bind`: the rule of preorders that the state moves along;
* `Coupled.bind`: the rule of two computations side by side.
-/

namespace Library.Panics

structure Panic where
  message : String
  deriving DecidableEq

abbrev Result (α : Type) := Except Panic α

variable {α β : Type}

def index (l : List α) (i : Nat) : Result α :=
  match l[i]? with
  | some a => .ok a
  | none => .error ⟨"index out of bounds"⟩

/-- The elements from `lo` up to, not including, `hi`. -/
def slice (l : List α) (lo hi : Nat) : Result (List α) :=
  if lo ≤ hi ∧ hi ≤ l.length then .ok ((l.drop lo).take (hi - lo))
  else .error ⟨"range out of bounds"⟩

def expect (o : Option α) (message : String) : Result α :=
  match o with
  | some a => .ok a
  | none => .error ⟨message⟩

def shortOr : Result Bool → Result Bool → Result Bool
  | .ok false, y => y
  | x, _ => x

def shortAnd : Result Bool → Result Bool → Result Bool
  | .ok true, y => y
  | x, _ => x

@[simp] theorem ok_bind (a : α) (f : α → Result β) : ((.ok a : Result α) >>= f) = f a := rfl

@[simp] theorem pure_eq_ok (a : α) : (pure a : Result α) = .ok a := rfl

theorem index_of_lt {l : List α} {i : Nat} (h : i < l.length) : index l i = .ok l[i] := by
  rw [index, List.getElem?_eq_getElem h]

theorem slice_of_le {l : List α} {lo hi : Nat} (hlo : lo ≤ hi) (hhi : hi ≤ l.length) :
    slice l lo hi = .ok ((l.drop lo).take (hi - lo)) := if_pos ⟨hlo, hhi⟩

/-- The element between two parts of a list. -/
theorem index_middle {l r : List α} {a : α} {i : Nat} (h : l.length = i) :
    index (l ++ a :: r) i = .ok a := by
  subst h
  rw [index_of_lt (by simp)]
  simp

/-- The middle of three parts of a list. -/
theorem slice_middle {l m r : List α} {i j : Nat} (hi : l.length = i)
    (hj : i + m.length = j) : slice (l ++ (m ++ r)) i j = .ok m := by
  subst hi hj
  rw [slice_of_le (by omega) (by simp)]
  simp

@[simp] theorem shortOr_ok (a b : Bool) : shortOr (.ok a) (.ok b) = .ok (a || b) := by
  cases a <;> rfl

@[simp] theorem shortOr_true (y : Result Bool) : shortOr (.ok true) y = .ok true := rfl

@[simp] theorem shortAnd_ok (a b : Bool) : shortAnd (.ok a) (.ok b) = .ok (a && b) := by
  cases a <;> rfl

@[simp] theorem shortAnd_false (y : Result Bool) : shortAnd (.ok false) y = .ok false := rfl

/-! ## Computations on a state -/

/-- A computation on a state that may panic. -/
abbrev Run (σ α : Type) := StateT σ Result α

variable {σ : Type}

/-- From the state `s` the computation returns, with a value and a state that
satisfy `Q`. -/
def Returns (x : Run σ α) (s : σ) (Q : α → σ → Prop) : Prop :=
  ∃ a s', x.run s = .ok (a, s') ∧ Q a s'

theorem Returns.pure {a : α} {s : σ} {Q : α → σ → Prop} (h : Q a s) :
    Returns (Pure.pure a : Run σ α) s Q := ⟨a, s, rfl, h⟩

theorem Returns.mono {x : Run σ α} {s : σ} {P Q : α → σ → Prop} (hx : Returns x s P)
    (h : ∀ a s', P a s' → Q a s') : Returns x s Q := by
  obtain ⟨a, s', hrun, hp⟩ := hx
  exact ⟨a, s', hrun, h a s' hp⟩

theorem Returns.bind {x : Run σ α} {f : α → Run σ β} {s : σ} {P : α → σ → Prop}
    {Q : β → σ → Prop} (hx : Returns x s P) (hf : ∀ a s', P a s' → Returns (f a) s' Q) :
    Returns (x >>= f) s Q := by
  obtain ⟨a, s', hrun, hp⟩ := hx
  obtain ⟨b, s'', hrun', hq⟩ := hf a s' hp
  refine ⟨b, s'', ?_, hq⟩
  rw [StateT.run_bind, hrun]
  exact hrun'

/-- What a computation returned is what its run returned. -/
theorem Returns.run {x : Run σ α} {s : σ} {Q : α → σ → Prop} (hx : Returns x s Q) :
    Returns x s fun a s' => Q a s' ∧ x.run s = .ok (a, s') := by
  obtain ⟨a, s', hrun, hq⟩ := hx
  exact ⟨a, s', hrun, hq, hrun⟩

/-- A value that may have failed to exist, inside a computation on a state. -/
theorem Returns.lift {r : Result α} {a : α} {s : σ} {Q : α → σ → Prop} (hr : r = .ok a)
    (h : Q a s) : Returns (liftM r : Run σ α) s Q := by
  subst hr
  exact ⟨a, s, rfl, h⟩

/-- With such a value a computation goes on from where it is. -/
theorem Returns.lift_bind {r : Result α} {a : α} {f : α → Run σ β} {s : σ} {Q : β → σ → Prop}
    (hr : r = .ok a) (h : Returns (f a) s Q) : Returns ((liftM r : Run σ α) >>= f) s Q := by
  have hlift : Returns (liftM r : Run σ α) s fun b s' => b = a ∧ s' = s :=
    Returns.lift hr ⟨rfl, rfl⟩
  apply hlift.bind
  rintro _ _ ⟨rfl, rfl⟩
  exact h

theorem Returns.get_bind {f : σ → Run σ β} {s : σ} {Q : β → σ → Prop} (h : Returns (f s) s Q) :
    Returns (get >>= f) s Q := by
  have hget : Returns (get : Run σ σ) s fun b s' => b = s ∧ s' = s := ⟨s, s, rfl, rfl, rfl⟩
  apply hget.bind
  rintro _ _ ⟨rfl, rfl⟩
  exact h

theorem Returns.modify_bind {g : σ → σ} {f : PUnit → Run σ β} {s : σ} {Q : β → σ → Prop}
    (h : Returns (f ⟨⟩) (g s) Q) : Returns (modify g >>= f) s Q := by
  have hmodify : Returns (modify g : Run σ PUnit) s fun _ s' => s' = g s := ⟨⟨⟩, g s, rfl, rfl⟩
  apply hmodify.bind
  rintro ⟨⟩ _ rfl
  exact h

/-! ## Where the state goes -/

/-- From wherever the computation starts, the state moves along `R` if it returns. -/
def Moves (R : σ → σ → Prop) (x : Run σ α) : Prop :=
  ∀ s a s', x.run s = .ok (a, s') → R s s'

section Preorder

variable {R : σ → σ → Prop} [IsPreorder σ R]

theorem Moves.pure (a : α) : Moves R (Pure.pure a : Run σ α) := by
  rintro s a s' ⟨⟩
  exact refl_of R s

theorem Moves.lift (r : Result α) : Moves R (liftM r : Run σ α) := by
  intro s a s' h
  cases r with
  | error panic => cases h
  | ok a =>
    cases h
    exact refl_of R s

theorem Moves.get : Moves R (MonadState.get : Run σ σ) := by
  rintro s a s' ⟨⟩
  exact refl_of R s

theorem Moves.bind {x : Run σ α} {f : α → Run σ β} (hx : Moves R x) (hf : ∀ a, Moves R (f a)) :
    Moves R (x >>= f) := by
  intro s b s' h
  rw [StateT.run_bind] at h
  cases hrun : x.run s with
  | error panic =>
    rw [hrun] at h
    cases h
  | ok next =>
    rw [hrun, ok_bind] at h
    exact trans_of R (hx s _ _ hrun) (hf _ _ _ _ h)

end Preorder

/-! ## Two computations side by side -/

section Coupled

variable {σ' α' β' : Type}

/-- From related states both computations panic, or both return, with related values and
related states. -/
def Coupled (R : σ → σ' → Prop) (A : α → α' → Prop) (x : Run σ α) (y : Run σ' α') : Prop :=
  ∀ s s', R s s' → (∃ panic panic', x.run s = .error panic ∧ y.run s' = .error panic') ∨
    ∃ a t a' t', x.run s = .ok (a, t) ∧ y.run s' = .ok (a', t') ∧ A a a' ∧ R t t'

variable {R : σ → σ' → Prop} {A : α → α' → Prop} {B : β → β' → Prop} {x : Run σ α}
  {y : Run σ' α'}

theorem Coupled.pure {a : α} {a' : α'} (h : A a a') :
    Coupled R A (Pure.pure a : Run σ α) (Pure.pure a' : Run σ' α') :=
  fun s s' hs => Or.inr ⟨a, s, a', s', rfl, rfl, h, hs⟩

theorem Coupled.bind {f : α → Run σ β} {g : α' → Run σ' β'} (hx : Coupled R A x y)
    (hf : ∀ a a', A a a' → Coupled R B (f a) (g a')) : Coupled R B (x >>= f) (y >>= g) := by
  intro s s' hs
  rw [StateT.run_bind, StateT.run_bind]
  rcases hx s s' hs with ⟨panic, panic', hleft, hright⟩ | ⟨a, t, a', t', hleft, hright, ha, ht⟩
  · exact Or.inl ⟨panic, panic', by rw [hleft]; rfl, by rw [hright]; rfl⟩
  · rw [hleft, hright]
    exact hf a a' ha t t' ht

/-- What the two returned is related. -/
theorem Coupled.of_run (hx : Coupled R A x y) {s t : σ} {s' t' : σ'} {a : α} {a' : α'}
    (hs : R s s') (hleft : x.run s = .ok (a, t)) (hright : y.run s' = .ok (a', t')) :
    A a a' ∧ R t t' := by
  rcases hx s s' hs with ⟨panic, panic', hpanic, -⟩ | ⟨_, _, _, _, hleft', hright', hrelated⟩
  · cases hpanic.symm.trans hleft
  · cases hleft'.symm.trans hleft
    cases hright'.symm.trans hright
    exact hrelated

theorem Coupled.mono {A' : α → α' → Prop} (hx : Coupled R A x y) (h : ∀ a a', A a a' → A' a a') :
    Coupled R A' x y := by
  intro s s' hs
  rcases hx s s' hs with hpanic | ⟨a, t, a', t', hleft, hright, ha, ht⟩
  · exact Or.inl hpanic
  · exact Or.inr ⟨a, t, a', t', hleft, hright, h a a' ha, ht⟩

theorem Coupled.lift (r : Result α) :
    Coupled R Eq (liftM r : Run σ α) (liftM r : Run σ' α) := by
  intro s s' hs
  cases r with
  | error panic => exact Or.inl ⟨panic, panic, rfl, rfl⟩
  | ok a => exact Or.inr ⟨a, s, a, s', rfl, rfl, rfl, hs⟩

theorem Coupled.get : Coupled R R (MonadState.get : Run σ σ) (MonadState.get : Run σ' σ') :=
  fun s s' hs => Or.inr ⟨s, s, s', s', rfl, rfl, hs, hs⟩

theorem Coupled.set {s : σ} {s' : σ'} (h : R s s') :
    Coupled R (fun _ _ => True) (MonadStateOf.set s : Run σ PUnit)
      (MonadStateOf.set s' : Run σ' PUnit) :=
  fun _ _ _ => Or.inr ⟨⟨⟩, s, ⟨⟩, s', rfl, rfl, trivial, h⟩

theorem Coupled.modify {f : σ → σ} {g : σ' → σ'} (h : ∀ s s', R s s' → R (f s) (g s')) :
    Coupled R (fun _ _ => True) (modify f : Run σ PUnit) (modify g : Run σ' PUnit) :=
  fun s s' hs => Or.inr ⟨⟨⟩, f s, ⟨⟩, g s', rfl, rfl, trivial, h s s' hs⟩

end Coupled

end Library.Panics
