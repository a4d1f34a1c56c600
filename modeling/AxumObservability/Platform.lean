import AxumObservability.Library.JsonCodec
import AxumObservability.Library.Panics
import AxumObservability.Library.Text

/-!
# What other packages provide

Durations and instants, the JSON codec and the floating-point operations, as far
as the middleware and the formatter use them. The codec and the float operations
are parameters: `SerdeJson` states the documented behaviour of the codec,
`FloatArithmetic` names the operations and promises nothing of them.

* `SerdeJson.hop`: what a value written as text reads back as;
* `SerdeJson.reference`: a codec with this behaviour;
* `FloatArithmetic.whole`: float operations that agree with the real ones on
  whole numbers.
-/

namespace AxumObservability

open Library.Json Library.Text

/-! ## Time -/

/-- A span of time in nanoseconds, of fewer than `2 ^ 64` seconds. -/
structure Duration where
  nanos : Nat
  bound : nanos < 2 ^ 64 * 10 ^ 9
  deriving DecidableEq

namespace Duration

def asSecs (d : Duration) : Nat := d.nanos / 10 ^ 9

def subsecNanos (d : Duration) : Nat := d.nanos % 10 ^ 9

def asMillis (d : Duration) : Nat := d.nanos / 10 ^ 6

def zero : Duration := ⟨0, by decide⟩

end Duration

/-- A clock reading, as the time since some fixed origin. -/
structure Instant where
  elapsed : Duration
  deriving DecidableEq

def Instant.saturatingDurationSince (later earlier : Instant) : Duration :=
  ⟨later.elapsed.nanos - earlier.elapsed.nanos,
    Nat.lt_of_le_of_lt (Nat.sub_le _ _) later.elapsed.bound⟩

/-! ## Floating point -/

/-- The operations on 64-bit floats that the source performs. -/
structure FloatArithmetic where
  F64 : Type
  asSecsF64 : Duration → F64
  ofNat : Nat → F64
  mul : F64 → F64 → F64
  div : F64 → F64 → F64
  ofNumber : Number → F64
  rangeContains : F64 → F64 → F64 → Bool
  tryFromSecsF64 : F64 → Option Duration
  literal : F64 → FloatLiteral

/-- A whole number with its fraction written out. -/
def wholeLiteral (n : Nat) : FloatLiteral where
  chars := Nat.toDigits 10 n ++ ['.', '0']
  wellFormed := by
    have hd := toDigits_isDigit n
    have hbody : (Nat.toDigits 10 n ++ ['.', '0']).takeWhile Char.isDigit = Nat.toDigits 10 n ∧
        (Nat.toDigits 10 n ++ ['.', '0']).dropWhile Char.isDigit = ['.', '0'] :=
      ⟨by rw [List.takeWhile_append_of_pos hd]; simp, by rw [List.dropWhile_append_of_pos hd]; rfl⟩
    have hhead : (Nat.toDigits 10 n ++ ['.', '0']).head? ≠ some '-' := fun h => by
      rw [List.head?_append_of_ne_nil _ Nat.toDigits_ne_nil] at h
      exact absurd (hd '-' (List.mem_of_mem_head? h)) (by decide)
    have hchars : (Nat.toDigits 10 n ++ ['.', '0']).all isNumberChar = true := by
      rw [List.all_append, List.all_eq_true.mpr fun c hc => isDigit_isNumberChar (hd c hc)]
      rfl
    simp only [isFloatLiteral, hhead, ↓reduceIte, hbody, hchars, isIntLiteral_toDigits]
    simp [isFractional]

/-- The float operations on whole seconds and milliseconds, rounded down to them. -/
def FloatArithmetic.whole : FloatArithmetic where
  F64 := Nat
  asSecsF64 := Duration.asSecs
  ofNat := id
  mul := (· * ·)
  div := (· / ·)
  ofNumber
    | .posInt n => n
    | _ => 0
  rangeContains lo hi x := lo ≤ x && x < hi
  tryFromSecsF64 x := if h : x * 10 ^ 9 < 2 ^ 64 * 10 ^ 9 then some ⟨x * 10 ^ 9, h⟩ else none
  literal := wholeLiteral

/-! ## JSON text -/

/-- A JSON codec. Writing never fails on a tree; reading back undoes writing below
the recursion limit, up to numbers outside the 64-bit integers, which come back
as `readNumber` says. -/
structure SerdeJson where
  toString : Value → Option String
  fromStr : String → Option Value
  readNumber : Number → Number
  toString_isSome : ∀ v, (toString v).isSome = true
  hop : ∀ v text, toString v = some text →
    fromStr text = if v.depth < 128 then some (v.mapNumbers readNumber) else none
  readNumber_fits : ∀ n : Number, n.fits → readNumber n = n

namespace SerdeJson

def toVec (serde : SerdeJson) (v : Value) : Option Bytes := (serde.toString v).map asBytes

theorem exists_toString (serde : SerdeJson) (v : Value) : ∃ text, serde.toString v = some text :=
  Option.isSome_iff_exists.mp (serde.toString_isSome v)

/-- The encoder and the decoder with the limit of 128, which keep every number. -/
def reference : SerdeJson where
  toString v := some (encode v)
  fromStr := decode 128
  readNumber := id
  toString_isSome := fun _ => rfl
  hop := by
    rintro v _ ⟨⟩
    rw [decode_encode 128 (by decide), mapNumbers_id]
  readNumber_fits := fun _ _ => rfl

end SerdeJson

end AxumObservability
