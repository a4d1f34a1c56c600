import Mathlib.Data.List.DropRight
import Mathlib.Order.Bounds.Defs

/-!
# Text as bytes

Byte strings next to Lean's `String`, whose values are exactly the valid UTF-8
byte sequences, and the byte-level operations a wire parser is written with.

* `fromUtf8_eq_some_iff`: decoding inverts encoding, so a decoded text has the
  bytes it was read from;
* `fromUtf8_ascii`: ASCII bytes always decode;
* `findIdx?_eq_some_iff_isLeast`, `findIdx?_asBytes`: the first byte of a class is the
  least index of one, and the first byte of a character;
* `splitOn_append`, `splitOn_joinWith`: how splitting meets appending and joining;
* `splitOnce_eq_some_iff`: splitting at the first separator;
* `atLineStart_iff`, `splitOn_append_line`: where a text is at the start of a line, and
  how a line is added there;
* `exists_trim`, `trim_trim`: trimming takes off two runs of the trimmed class, and
  then nothing more.
-/

namespace Library.Text

abbrev Bytes := List UInt8

/-- A fact about every byte is one about 256 cases. -/
theorem forall_byte {p : UInt8 → Prop} (h : ∀ n : Fin 256, p (UInt8.ofFin n)) (b : UInt8) : p b :=
  h b.toFin

/-! ## UTF-8 -/

/-- The UTF-8 bytes of a text. -/
def asBytes (s : String) : Bytes := s.toByteArray.data.toList

/-- The text of a byte string, when it is valid UTF-8. -/
def fromUtf8 (b : Bytes) : Option String := String.fromUTF8? ⟨b.toArray⟩

theorem fromUtf8_eq_some_iff (b : Bytes) (s : String) :
    fromUtf8 b = some s ↔ asBytes s = b := by
  unfold fromUtf8 String.fromUTF8? asBytes
  constructor
  · intro h
    split at h
    · cases h; simp [String.fromUTF8]
    · cases h
  · rintro rfl
    have h : (⟨s.toByteArray.data.toList.toArray⟩ : ByteArray) = s.toByteArray := by simp
    rw [h, dif_pos s.isValidUTF8]
    rfl

@[simp] theorem fromUtf8_asBytes (s : String) : fromUtf8 (asBytes s) = some s :=
  (fromUtf8_eq_some_iff _ _).mpr rfl

theorem asBytes_injective {s t : String} (h : asBytes s = asBytes t) : s = t := by
  have hs := fromUtf8_asBytes s
  rw [h, fromUtf8_asBytes] at hs
  exact (Option.some.inj hs).symm

@[simp] theorem asBytes_append (s t : String) : asBytes (s ++ t) = asBytes s ++ asBytes t := by
  simp [asBytes]

theorem asBytes_ofList (cs : List Char) :
    asBytes (String.ofList cs) = cs.flatMap String.utf8EncodeChar := by
  simp [asBytes, String.toByteArray_ofList, List.utf8Encode]

/-- An ASCII byte is the whole encoding of the character with its code. -/
theorem utf8EncodeChar_ascii (b : UInt8) (h : b < 128) :
    String.utf8EncodeChar (Char.ofNat b.toNat) = [b] := by
  have hb : b.toNat < 128 := h
  have hv : (Char.ofNat b.toNat).val.toNat = b.toNat := by
    have hvalid : b.toNat.isValidChar := Or.inl (by omega)
    rw [Char.ofNat, dif_pos hvalid]
    rfl
  unfold String.utf8EncodeChar
  simp only [hv, show b.toNat ≤ 127 by omega, ↓reduceIte]
  simp

theorem fromUtf8_ascii (b : Bytes) (h : ∀ x ∈ b, x < 128) : ∃ s, fromUtf8 b = some s := by
  refine ⟨String.ofList (b.map fun x => Char.ofNat x.toNat), ?_⟩
  rw [fromUtf8_eq_some_iff, asBytes_ofList]
  induction b with
  | nil => rfl
  | cons x b ih =>
    rw [List.map_cons, List.flatMap_cons, utf8EncodeChar_ascii x (h x (by simp)),
      ih (fun y hy => h y (List.mem_cons_of_mem _ hy))]
    rfl

theorem exists_texts {lines : List Bytes} (h : ∀ l ∈ lines, ∀ b ∈ l, b < 128) :
    ∃ texts : List String, texts.map asBytes = lines := by
  induction lines with
  | nil => exact ⟨[], rfl⟩
  | cons l lines ih =>
    obtain ⟨s, hs⟩ := fromUtf8_ascii l (h l (by simp))
    obtain ⟨texts, ht⟩ := ih fun k hk => h k (List.mem_cons_of_mem _ hk)
    exact ⟨s :: texts, by rw [List.map_cons, (fromUtf8_eq_some_iff _ _).mp hs, ht]⟩

/-- The bytes of a character are at least as great as any bound below it, up to the
bytes of ASCII. -/
theorem le_of_mem_utf8EncodeChar {c : Char} {n : Nat} (hn : n ≤ 128) (hc : n ≤ c.toNat) :
    ∀ b ∈ String.utf8EncodeChar c, n ≤ b.toNat := by
  intro b hb
  have hv : n ≤ c.val.toNat := hc
  have hsize : c.val.toNat < 2 ^ 32 := c.val.toBitVec.isLt
  unfold String.utf8EncodeChar at hb
  dsimp only at hb
  split_ifs at hb <;> simp only [List.mem_cons, List.not_mem_nil, or_false] at hb
  · subst hb
    simp only [UInt8.toNat_ofNat']
    omega
  · rcases hb with rfl | rfl <;> simp only [UInt8.toNat_ofNat'] <;> omega
  · rcases hb with rfl | rfl | rfl <;> simp only [UInt8.toNat_ofNat'] <;> omega
  · rcases hb with rfl | rfl | rfl | rfl <;> simp only [UInt8.toNat_ofNat'] <;> omega

theorem le_of_mem_asBytes {s : String} {n : Nat} (hn : n ≤ 128) (hs : ∀ c ∈ s.toList, n ≤ c.toNat) :
    ∀ b ∈ asBytes s, n ≤ b.toNat := by
  intro b hb
  rw [← String.ofList_toList (s := s), asBytes_ofList] at hb
  obtain ⟨c, hc, hb⟩ := List.mem_flatMap.mp hb
  exact le_of_mem_utf8EncodeChar hn (hs c hc) b hb

/-! ## The first byte of a class -/

theorem findIdx?_eq_some_iff_isLeast {p : UInt8 → Bool} {l : Bytes} {i : Nat} :
    l.findIdx? p = some i ↔ IsLeast {j | ∃ b, l[j]? = some b ∧ p b = true} i := by
  rw [List.findIdx?_eq_some_iff_getElem]
  constructor
  · rintro ⟨hlt, hp, hbefore⟩
    refine ⟨⟨l[i], List.getElem?_eq_getElem hlt, hp⟩, fun j ⟨b, hj, hb⟩ => ?_⟩
    by_contra hji
    obtain ⟨hjlt, rfl⟩ := List.getElem?_eq_some_iff.mp hj
    exact hbefore j (by omega) hb
  · rintro ⟨⟨b, hi, hb⟩, hleast⟩
    obtain ⟨hlt, rfl⟩ := List.getElem?_eq_some_iff.mp hi
    refine ⟨hlt, hb, fun j hji hj => ?_⟩
    exact Nat.not_le_of_lt hji (hleast ⟨_, List.getElem?_eq_getElem (by omega), hj⟩)

/-- A class with all bytes from 128 on has all bytes of a character or none. -/
theorem utf8EncodeChar_all_or_none {p : UInt8 → Bool} (hp : ∀ b : UInt8, 128 ≤ b → p b = true)
    (c : Char) : (∀ b ∈ String.utf8EncodeChar c, p b = true) ∨
      ∀ b ∈ String.utf8EncodeChar c, p b = false := by
  by_cases hc : c.toNat < 128
  · have hcode : (UInt8.ofNat c.toNat).toNat = c.toNat := by
      rw [UInt8.toNat_ofNat']
      omega
    have hbyte : UInt8.ofNat c.toNat < 128 := by
      rw [UInt8.lt_iff_toNat_lt, hcode]
      exact hc
    have hencode := utf8EncodeChar_ascii _ hbyte
    rw [hcode, Char.ofNat_toNat] at hencode
    rw [hencode]
    simp only [List.mem_singleton, forall_eq]
    exact (p _).eq_false_or_eq_true
  · left
    intro b hb
    exact hp b (le_of_mem_utf8EncodeChar le_rfl (by omega) b hb)

theorem findIdx?_utf8Encode {p : UInt8 → Bool} (hp : ∀ b : UInt8, 128 ≤ b → p b = true)
    {cs : List Char} {i : Nat} (h : (cs.flatMap String.utf8EncodeChar).findIdx? p = some i) :
    ∃ before c after, cs = before ++ c :: after ∧
      (before.flatMap String.utf8EncodeChar).length = i ∧
      ∀ b ∈ String.utf8EncodeChar c, p b = true := by
  induction cs generalizing i with
  | nil => cases h
  | cons c cs ih =>
    rw [List.flatMap_cons, List.findIdx?_append] at h
    rcases utf8EncodeChar_all_or_none hp c with hall | hnone
    · obtain ⟨b, bs, hbs⟩ := List.exists_cons_of_ne_nil (String.utf8EncodeChar_ne_nil (c := c))
      have hfirst : (String.utf8EncodeChar c).findIdx? p = some 0 := by
        rw [hbs, List.findIdx?_cons, if_pos (hall b (by rw [hbs]; exact List.mem_cons_self))]
      rw [hfirst] at h
      cases h
      exact ⟨[], c, cs, rfl, rfl, hall⟩
    · rw [List.findIdx?_eq_none_iff.mpr hnone, Option.none_or, Option.map_eq_some_iff] at h
      obtain ⟨j, hj, rfl⟩ := h
      obtain ⟨before, d, after, rfl, hlength, hd⟩ := ih hj
      refine ⟨c :: before, d, after, rfl, ?_, hd⟩
      rw [List.flatMap_cons, List.length_append, hlength, Nat.add_comm]

/-- **The first byte of a class is where a character starts.**  All bytes of the
character are in the class, for the class has all bytes from 128 on. -/
theorem findIdx?_asBytes {p : UInt8 → Bool} (hp : ∀ b : UInt8, 128 ≤ b → p b = true)
    {s : String} {i : Nat} (h : (asBytes s).findIdx? p = some i) :
    ∃ before c after, s = before ++ (String.singleton c ++ after) ∧
      (asBytes before).length = i ∧ ∀ b ∈ asBytes (String.singleton c), p b = true := by
  rw [← String.ofList_toList (s := s), asBytes_ofList] at h
  obtain ⟨before, c, after, hs, hlength, hc⟩ := findIdx?_utf8Encode hp h
  refine ⟨String.ofList before, c, String.ofList after, ?_, ?_, ?_⟩
  · have htext := congrArg String.ofList hs
    rw [String.ofList_toList] at htext
    rw [htext, String.ofList_append, String.ofList_cons]
  · rw [asBytes_ofList, hlength]
  · rw [String.singleton_eq_ofList, asBytes_ofList, List.flatMap_singleton]
    exact hc

/-! ## Splitting and joining -/

/-- The lines one after another with `c` between them. -/
def joinWith (c : UInt8) (lines : List Bytes) : Bytes := [c].intercalate lines

theorem asBytes_intercalate (c : UInt8) {sep : String} (hsep : asBytes sep = [c])
    (lines : List String) :
    asBytes (sep.intercalate lines) = joinWith c (lines.map asBytes) := by
  induction lines with
  | nil => rfl
  | cons l lines ih =>
    cases lines with
    | nil => simp [joinWith]
    | cons l' lines =>
      rw [String.intercalate_cons_cons, asBytes_append, asBytes_append, ih, hsep]
      simp [joinWith, List.intercalate_cons_cons]

/-- **Splitting an append.**  The last field of the left part and the first of
the right one run together, all others stay. -/
theorem splitOn_append (c : UInt8) (l r : Bytes) :
    ∃ before last first after, l.splitOn c = before ++ [last] ∧ r.splitOn c = first :: after ∧
      (l ++ r).splitOn c = before ++ (last ++ first) :: after := by
  obtain ⟨first, after, hr⟩ := List.exists_cons_of_ne_nil (List.splitOn_ne_nil c r)
  induction l with
  | nil => exact ⟨[], [], first, after, rfl, hr, by simpa using hr⟩
  | cons x l ih =>
    obtain ⟨before, last, first', after', hl, hr', happend⟩ := ih
    obtain ⟨rfl, rfl⟩ := List.cons.inj (hr.symm.trans hr')
    rw [List.cons_append, List.splitOn_cons_eq_if_modifyHead, List.splitOn_cons_eq_if_modifyHead,
      hl, happend]
    by_cases hx : (x == c) = true
    · refine ⟨[] :: before, last, first, after, ?_, hr, ?_⟩ <;> simp [hx]
    · cases before with
      | nil => refine ⟨[], x :: last, first, after, ?_, hr, ?_⟩ <;> simp [hx]
      | cons b before =>
        refine ⟨(x :: b) :: before, last, first, after, ?_, hr, ?_⟩ <;> simp [hx]

/-- **Splitting a join.**  The fields of joined lines are the fields of the
lines, in order. -/
theorem splitOn_joinWith (c : UInt8) (lines : List Bytes) (h : lines ≠ []) :
    (joinWith c lines).splitOn c = lines.flatMap (List.splitOn c) := by
  induction lines with
  | nil => exact absurd rfl h
  | cons l lines ih =>
    cases lines with
    | nil => simp [joinWith]
    | cons l' lines =>
      have hj : joinWith c (l :: l' :: lines) = l ++ c :: joinWith c (l' :: lines) := by
        simp [joinWith, List.intercalate_cons_cons]
      rw [hj, List.flatMap_cons, ← ih (by simp)]
      exact List.splitOnP_append_cons _ _ (by simp)

theorem eq_or_mem_of_mem_joinWith {c x : UInt8} {lines : List Bytes} (hx : x ∈ joinWith c lines) :
    x = c ∨ ∃ l ∈ lines, x ∈ l := by
  induction lines with
  | nil => cases hx
  | cons k lines ih =>
    cases lines with
    | nil => exact Or.inr ⟨k, by simp, by simpa [joinWith] using hx⟩
    | cons k' lines =>
      rw [joinWith, List.intercalate_cons_cons] at hx
      rcases List.mem_append.mp hx with hx | hx
      · rcases List.mem_append.mp hx with hx | hx
        · exact Or.inr ⟨k, by simp, hx⟩
        · exact Or.inl (by simpa using hx)
      · rcases ih hx with h | ⟨l, hl, hx⟩
        · exact Or.inl h
        · exact Or.inr ⟨l, List.mem_cons_of_mem _ hl, hx⟩

theorem not_mem_of_mem_splitOn {c : UInt8} {l f : Bytes} (hf : f ∈ l.splitOn c) : c ∉ f := by
  induction l generalizing f with
  | nil => simp_all
  | cons x l ih =>
    rw [List.splitOn_cons_eq_if_modifyHead] at hf
    obtain ⟨g, gs, hg⟩ := List.exists_cons_of_ne_nil (List.splitOn_ne_nil c l)
    rw [hg] at hf ih
    split at hf
    · rcases List.mem_cons.mp hf with rfl | hf
      · exact List.not_mem_nil
      · exact ih hf
    · rename_i hx
      rw [List.modifyHead_cons] at hf
      rcases List.mem_cons.mp hf with rfl | hf
      · intro hc
        rcases List.mem_cons.mp hc with rfl | hc
        · exact hx (beq_self_eq_true _)
        · exact ih List.mem_cons_self hc
      · exact ih (List.mem_cons_of_mem _ hf)

theorem mem_of_mem_splitOn {c x : UInt8} {l f : Bytes} (hf : f ∈ l.splitOn c) (hx : x ∈ f) :
    x ∈ l := by
  induction l generalizing f with
  | nil => simp_all
  | cons y l ih =>
    rw [List.splitOn_cons_eq_if_modifyHead] at hf
    obtain ⟨g, gs, hg⟩ := List.exists_cons_of_ne_nil (List.splitOn_ne_nil c l)
    rw [hg] at hf ih
    split at hf
    · rcases List.mem_cons.mp hf with rfl | hf
      · cases hx
      · exact List.mem_cons_of_mem _ (ih hf hx)
    · rw [List.modifyHead_cons] at hf
      rcases List.mem_cons.mp hf with rfl | hf
      · rcases List.mem_cons.mp hx with rfl | hx
        · exact List.mem_cons_self
        · exact List.mem_cons_of_mem _ (ih List.mem_cons_self hx)
      · exact List.mem_cons_of_mem _ (ih (List.mem_cons_of_mem _ hf) hx)

/-- A byte of a text other than the separator lies in one of its fields. -/
theorem mem_splitOn {c x : UInt8} {l : Bytes} (hx : x ∈ l) (hc : x ≠ c) :
    ∃ f ∈ l.splitOn c, x ∈ f := by
  induction l with
  | nil => cases hx
  | cons y l ih =>
    rw [List.splitOn_cons_eq_if_modifyHead]
    split
    · rename_i hy
      have hne : x ≠ y := fun e => hc (e.trans (by simpa using hy))
      obtain ⟨f, hf, hxf⟩ := ih ((List.mem_cons.mp hx).resolve_left hne)
      exact ⟨f, List.mem_cons_of_mem _ hf, hxf⟩
    · obtain ⟨g, gs, hg⟩ := List.exists_cons_of_ne_nil (List.splitOn_ne_nil c l)
      rw [hg] at ih ⊢
      rw [List.modifyHead_cons]
      rcases List.mem_cons.mp hx with rfl | h
      · exact ⟨x :: g, by simp, by simp⟩
      · obtain ⟨f, hf, hxf⟩ := ih h
        rcases List.mem_cons.mp hf with rfl | hf
        · exact ⟨y :: f, by simp, by simp [hxf]⟩
        · exact ⟨f, by simp [hf], hxf⟩

/-- The text before the first `c` and the text after it. -/
def splitOnce (c : UInt8) (l : Bytes) : Option (Bytes × Bytes) :=
  match l.dropWhile (· != c) with
  | [] => none
  | _ :: rest => some (l.takeWhile (· != c), rest)

theorem splitOnce_append_cons (c : UInt8) (l r : Bytes) (h : c ∉ l) :
    splitOnce c (l ++ c :: r) = some (l, r) := by
  have hl : ∀ x ∈ l, (x != c) = true := by
    intro x hx
    have hne : x ≠ c := fun e => h (e ▸ hx)
    simpa using hne
  rw [splitOnce, List.dropWhile_append_of_pos hl, List.takeWhile_append_of_pos hl]
  simp

theorem splitOnce_eq_some_iff (c : UInt8) (m l r : Bytes) :
    splitOnce c m = some (l, r) ↔ m = l ++ c :: r ∧ c ∉ l := by
  constructor
  · intro h
    have hm := List.takeWhile_append_dropWhile (p := (· != c)) (l := m)
    cases hd : m.dropWhile (· != c) with
    | nil => simp [splitOnce, hd] at h
    | cons x rest =>
      simp only [splitOnce, hd, Option.some.injEq, Prod.mk.injEq] at h
      obtain ⟨rfl, rfl⟩ := h
      have hx : x = c := by
        have := List.dropWhile_get_zero_not (· != c) m (by rw [hd]; simp)
        simpa [hd] using this
      rw [hd, hx] at hm
      refine ⟨hm.symm, fun hc => ?_⟩
      simpa using List.mem_takeWhile_imp hc
  · rintro ⟨rfl, hl⟩
    exact splitOnce_append_cons c l r hl

theorem splitOnce_eq_none_iff (c : UInt8) (l : Bytes) : splitOnce c l = none ↔ c ∉ l := by
  constructor
  · intro h hc
    obtain ⟨s, t, rfl, hs⟩ := List.eq_append_cons_of_mem hc
    rw [splitOnce_append_cons c s t hs] at h
    cases h
  · intro h
    cases hs : splitOnce c l with
    | none => rfl
    | some p =>
      obtain ⟨rfl, -⟩ := (splitOnce_eq_some_iff c l p.1 p.2).mp hs
      exact absurd (by simp) h

/-! ## Lines -/

/-- A text is at the start of a line: it is empty or has ended its last one. -/
def AtLineStart (c : UInt8) (l : Bytes) : Prop := ∀ b ∈ l.getLast?, b = c

theorem atLineStart_nil (c : UInt8) : AtLineStart c [] := nofun

theorem atLineStart_concat {c b : UInt8} {l : Bytes} : AtLineStart c (l ++ [b]) ↔ b = c := by
  simp [AtLineStart]

/-- What follows the last separator of a text is empty at the start of a line only. -/
theorem atLineStart_iff (c : UInt8) (l : Bytes) :
    AtLineStart c l ↔ ∃ lines, l.splitOn c = lines ++ [[]] := by
  induction l using List.reverseRecOn with
  | nil => simp [atLineStart_nil, List.splitOn_nil]
  | append_singleton l b ih =>
    obtain ⟨before, last, first, after, hl, hb, happend⟩ := splitOn_append c l [b]
    rw [atLineStart_concat, happend]
    rw [List.splitOn_cons_eq_if_modifyHead, List.splitOn_nil] at hb
    by_cases hbc : b = c
    · rw [if_pos (by simpa using hbc)] at hb
      obtain ⟨rfl, rfl⟩ := List.cons.inj hb
      simp only [hbc, true_iff]
      exact ⟨before ++ [last ++ []], by simp⟩
    · rw [if_neg (by simpa using hbc)] at hb
      obtain ⟨rfl, rfl⟩ := List.cons.inj hb
      simp only [hbc, false_iff]
      rintro ⟨lines, hlines⟩
      have := (List.append_inj' hlines rfl).2
      simp at this

/-- **A line of its own.**  A line added at the start of a line is the next one. -/
theorem splitOn_append_line {c : UInt8} {l line : Bytes} {lines : List Bytes}
    (hl : l.splitOn c = lines ++ [[]]) (hline : c ∉ line) (r : Bytes) :
    (l ++ (line ++ c :: r)).splitOn c = lines ++ line :: r.splitOn c := by
  obtain ⟨before, last, first, after, hl', hr, happend⟩ := splitOn_append c l line
  obtain ⟨rfl, hlast⟩ := List.append_inj' (hl.symm.trans hl') rfl
  obtain ⟨rfl, -⟩ := List.cons.inj hlast
  obtain ⟨rfl, rfl⟩ := List.cons.inj ((List.splitOn_eq_singleton hline).symm.trans hr)
  rw [← List.append_assoc, List.splitOn_append_cons_self, happend]
  simp

/-! ## Trimming -/

/-- The text without the leading and trailing bytes that satisfy `p`. -/
def trim (p : UInt8 → Bool) (l : Bytes) : Bytes := (l.dropWhile p).rdropWhile p

theorem trim_append_left {p : UInt8 → Bool} {pad : Bytes} (hpad : ∀ b ∈ pad, p b = true)
    (l : Bytes) : trim p (pad ++ l) = trim p l := by
  rw [trim, List.dropWhile_append_of_pos hpad, trim]

theorem trim_append_right {p : UInt8 → Bool} {pad : Bytes} (hpad : ∀ b ∈ pad, p b = true)
    (l : Bytes) : trim p (l ++ pad) = trim p l := by
  have hreverse : ∀ b ∈ pad.reverse, p b = true := fun b hb => hpad b (List.mem_reverse.mp hb)
  induction l with
  | nil =>
    have hnil := List.dropWhile_eq_nil_iff.mpr hpad
    simp [trim, hnil]
  | cons x l ih =>
    by_cases hx : p x = true
    · rw [List.cons_append, trim, List.dropWhile_cons_of_pos hx, trim,
        List.dropWhile_cons_of_pos hx]
      exact ih
    · rw [List.cons_append, trim, List.dropWhile_cons_of_neg hx, trim,
        List.dropWhile_cons_of_neg hx, List.rdropWhile, List.rdropWhile, ← List.cons_append,
        List.reverse_append, List.dropWhile_append_of_pos hreverse]

/-- A text is its trimmed form between two runs of trimmed bytes. -/
theorem exists_trim (p : UInt8 → Bool) (l : Bytes) : ∃ pad pad', l = pad ++ (trim p l ++ pad') ∧
    (∀ b ∈ pad, p b = true) ∧ ∀ b ∈ pad', p b = true := by
  refine ⟨l.takeWhile p, (l.dropWhile p).rtakeWhile p, ?_, fun b => List.mem_takeWhile_imp,
    fun b => List.mem_rtakeWhile_imp⟩
  rw [trim, List.rdropWhile_append_rtakeWhile, List.takeWhile_append_dropWhile]

theorem trim_trim (p : UInt8 → Bool) (l : Bytes) : trim p (trim p l) = trim p l := by
  obtain ⟨pad, pad', hl, hpad, hpad'⟩ := exists_trim p l
  have h : trim p l = trim p (pad ++ (trim p l ++ pad')) := congrArg (trim p) hl
  rw [trim_append_left hpad, trim_append_right hpad'] at h
  exact h.symm

theorem mem_of_mem_trim {p : UInt8 → Bool} {l : Bytes} {x : UInt8} (hx : x ∈ trim p l) : x ∈ l := by
  obtain ⟨pad, pad', hl, -, -⟩ := exists_trim p l
  rw [hl]
  simp [hx]

/-- A byte of a text that trimming would keep anywhere is kept. -/
theorem mem_trim {p : UInt8 → Bool} {l : Bytes} {x : UInt8} (hx : x ∈ l) (hp : p x = false) :
    x ∈ trim p l := by
  obtain ⟨pad, pad', hl, hpad, hpad'⟩ := exists_trim p l
  have hout : ∀ run : Bytes, (∀ b ∈ run, p b = true) → x ∉ run := by
    intro run hrun hmem
    rw [hrun x hmem] at hp
    cases hp
  rw [hl, List.mem_append, List.mem_append] at hx
  rcases hx with h | h | h
  · exact absurd h (hout pad hpad)
  · exact h
  · exact absurd h (hout pad' hpad')

end Library.Text
