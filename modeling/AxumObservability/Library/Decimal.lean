import Mathlib.Algebra.Ring.Nat
import Mathlib.Data.List.TakeWhile
import Mathlib.Tactic.Common

/-!
# Decimal numerals with a fraction

Digits of a fixed number, padded on the left, and the reading of a numeral that
has a whole part, perhaps a fraction, and the letter of its unit.

* `length_padded`, `ofDigitChars_padded`: padding gives the width and keeps the
  value;
* `readFixed_whole`, `readFixed_fraction`: reading undoes writing.
-/

namespace Library.Decimal

/-- A number in at least `width` digits. -/
def padded (width n : Nat) : List Char :=
  List.replicate (width - (Nat.toDigits 10 n).length) '0' ++ Nat.toDigits 10 n

theorem padded_zero_left (n : Nat) : padded 0 n = Nat.toDigits 10 n := by
  simp [padded]

theorem length_padded {width n : Nat} (hwidth : 0 < width) (h : n < 10 ^ width) :
    (padded width n).length = width := by
  have hlength := (Nat.length_toDigits_le_iff (b := 10) (by decide) hwidth).mpr h
  rw [padded, List.length_append, List.length_replicate]
  omega

theorem isDigit_of_mem_padded {width n : Nat} {c : Char} (h : c ∈ padded width n) :
    c.isDigit = true := by
  rcases List.mem_append.mp h with h | h
  · rw [List.eq_of_mem_replicate h]
    rfl
  · exact Nat.isDigit_of_mem_toDigits (by decide) (by decide) h

theorem ofDigitChars_padded (width n : Nat) : Nat.ofDigitChars 10 (padded width n) 0 = n := by
  rw [padded, Nat.ofDigitChars_append, Nat.ofDigitChars_replicate_zero, Nat.mul_zero,
    Nat.ofDigitChars_ten_toDigits]

/-- The whole part of a numeral and its fraction in units of `10 ^ (-scale)`. -/
def readFixed (scale : Nat) (unit : Char) (text : List Char) : Option (Nat × Nat) :=
  let whole := text.takeWhile Char.isDigit
  match text.dropWhile Char.isDigit with
  | [] => none
  | c :: rest =>
    let fraction := rest.takeWhile Char.isDigit
    if c = unit ∧ rest = [] then some (Nat.ofDigitChars 10 whole 0, 0)
    else if c = '.' ∧ rest.dropWhile Char.isDigit = [unit] ∧ fraction.length ≤ scale then
      some (Nat.ofDigitChars 10 whole 0,
        Nat.ofDigitChars 10 fraction 0 * 10 ^ (scale - fraction.length))
    else none

/-- Padded digits are read up to the first character that is none. -/
theorem span_padded (width n : Nat) {c : Char} (hc : c.isDigit = false) (rest : List Char) :
    (padded width n ++ c :: rest).takeWhile Char.isDigit = padded width n ∧
      (padded width n ++ c :: rest).dropWhile Char.isDigit = c :: rest := by
  have hdigits : ∀ d ∈ padded width n, d.isDigit = true := fun _ => isDigit_of_mem_padded
  rw [List.takeWhile_append_of_pos hdigits, List.dropWhile_append_of_pos hdigits,
    List.takeWhile_cons_of_neg (by simp [hc]), List.dropWhile_cons_of_neg (by simp [hc]),
    List.append_nil]
  exact ⟨rfl, rfl⟩

theorem readFixed_whole (scale : Nat) {unit : Char} (hunit : unit.isDigit = false) (n : Nat) :
    readFixed scale unit (padded 0 n ++ [unit]) = some (n, 0) := by
  obtain ⟨htake, hdrop⟩ := span_padded 0 n hunit []
  rw [readFixed, htake, hdrop]
  simp [ofDigitChars_padded]

theorem readFixed_fraction {scale width : Nat} {unit : Char} (hunit : unit.isDigit = false)
    (hwidth : 0 < width) (hscale : width ≤ scale) (whole : Nat) {n : Nat} (hn : n < 10 ^ width) :
    readFixed scale unit (padded 0 whole ++ '.' :: (padded width n ++ [unit])) =
      some (whole, n * 10 ^ (scale - width)) := by
  obtain ⟨htake, hdrop⟩ := span_padded 0 whole (c := '.') rfl (padded width n ++ [unit])
  obtain ⟨hfraction, hrest⟩ := span_padded width n hunit []
  rw [readFixed, htake, hdrop]
  simp [hfraction, hrest, length_padded hwidth hn, hscale, ofDigitChars_padded]

end Library.Decimal
