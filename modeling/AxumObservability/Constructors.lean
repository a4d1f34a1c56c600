import AxumObservability.Provenance

/-!
# The constructors of an identifier

Two predicates decide which texts become identifiers: the baseline grammar, of the
public constructors and of the fallback, and native field content, of a header value
that a policy accepted. The second covers the first, so that no identifier is refused
on its way into a header.

* `RequestId.Constructed.fieldContent`: every identifier is native field content;
* `baselineAnswer_parse`: the answer of the baseline parser to every text, with the
  order of its errors and the place of the first invalid character;
* `requestId_constructors`: what every constructor gives.
-/

namespace AxumObservability

open Library.Panics Library.Text

/-! ## What constructors build -/

/-- Every identifier comes from here: a public constructor, a header value that was
accepted, or the fallback. -/
inductive RequestId.Constructed (platform : Platform) (requestId : RequestId) : Prop where
  | built (built : requestId.Built)
  | native (value : String) (built : RequestId.fromNativeHeader value = some requestId)
  | random (w w' : World) (built : (randomRequestId platform).run w = .ok (requestId, w'))

theorem RequestId.Constructed.fieldContent {platform : Platform} {requestId : RequestId}
    (h : requestId.Constructed platform) : FieldContent requestId.asStr := by
  cases h with
  | built built => exact fieldContent_of_baseline (baseline_of_built built)
  | native value built =>
    obtain ⟨hcontent, rfl⟩ := (RequestId.fromNativeHeader_eq_some_iff value requestId).mp built
    exact hcontent
  | random w w' built =>
    obtain ⟨_, _, hrun, huuid, -⟩ := randomRequestId_spec platform w
    cases hrun.symm.trans built
    rw [huuid]
    exact fieldContent_of_baseline (platform.newV4 w.calls).baseline_simple

/-! ## The answer of the baseline parser -/

/-- The bytes of an identifier in the baseline grammar. -/
def unreservedBytes : Bytes :=
  asBytes "ABCDEFGHIJKLMNOPQRSTUVWXYZabcdefghijklmnopqrstuvwxyz0123456789._~-"

theorem isUnreserved_iff_mem : ∀ b : UInt8, isUnreserved b = true ↔ b ∈ unreservedBytes :=
  forall_byte (by decide +kernel)

/-- An answer that takes a text as it is or says what is wrong with it: that it is
empty, or else that it is too long, or else where it leaves the grammar first. -/
structure BaselineAnswer (text : String) (answer : Except InvalidRequestId RequestId) : Prop where
  accepted : (∃ requestId, answer = .ok requestId) ↔
    1 ≤ (asBytes text).length ∧ (asBytes text).length ≤ 128 ∧
      ∀ b ∈ asBytes text, b ∈ unreservedBytes
  unchanged : ∀ requestId, answer = .ok requestId → requestId.asStr = text
  empty : answer = .error .empty ↔ text = ""
  tooLong : ∀ length, answer = .error (.tooLong length) ↔
    128 < (asBytes text).length ∧ length = (asBytes text).length
  invalidCharacter : ∀ index, answer = .error (.invalidCharacter index) ↔
    (asBytes text).length ≤ 128 ∧
      IsLeast {i | ∃ b, (asBytes text)[i]? = some b ∧ b ∉ unreservedBytes} index
  /-- The index is that of a character's first byte. -/
  firstByte : ∀ index, answer = .error (.invalidCharacter index) →
    ∃ before c after, text = before ++ (String.singleton c ++ after) ∧
      (asBytes before).length = index ∧ ∀ b ∈ asBytes (String.singleton c), b ∉ unreservedBytes

theorem baseline_iff (text : String) : Baseline text ↔
    1 ≤ (asBytes text).length ∧ (asBytes text).length ≤ 128 ∧
      ∀ b ∈ asBytes text, b ∈ unreservedBytes := by
  rw [Baseline, ← List.length_pos_iff, Nat.one_le_iff_ne_zero, Nat.pos_iff_ne_zero]
  simp only [isUnreserved_iff_mem, RequestId.maxLen]

theorem baselineAnswer_parse (text : String) : BaselineAnswer text (RequestId.parse text) where
  accepted := by
    rw [← baseline_iff]
    constructor
    · rintro ⟨requestId, h⟩
      exact ((RequestId.parse_eq_ok_iff text requestId).mp h).1
    · intro h
      exact ⟨_, RequestId.parse_of_validate ((validate_eq_ok_iff text).mpr h)⟩
  unchanged := fun requestId h => ((RequestId.parse_eq_ok_iff text requestId).mp h).2
  empty := by rw [RequestId.parse_eq_error_iff, validate_eq_empty_iff]
  tooLong := fun length => by
    rw [RequestId.parse_eq_error_iff, validate_eq_tooLong_iff, RequestId.maxLen]
  invalidCharacter := fun index => by
    rw [RequestId.parse_eq_error_iff, validate_eq_invalidCharacter_iff, RequestId.maxLen,
      findIdx?_eq_some_iff_isLeast]
    simp only [Bool.not_eq_true', ← isUnreserved_iff_mem, Bool.not_eq_true]
  firstByte := fun index h => by
    rw [RequestId.parse_eq_error_iff, validate_eq_invalidCharacter_iff] at h
    have hascii : ∀ b : UInt8, 128 ≤ b → (!isUnreserved b) = true := by
      intro b hb
      rw [Bool.not_eq_true', ← Bool.not_eq_true]
      exact fun hunreserved => UInt8.not_lt.mpr hb (isUnreserved_field b hunreserved).2.2
    obtain ⟨before, c, after, htext, hlength, hc⟩ := findIdx?_asBytes hascii h.2
    refine ⟨before, c, after, htext, hlength, fun b hb => ?_⟩
    rw [← isUnreserved_iff_mem, Bool.not_eq_true, ← Bool.not_eq_true']
    exact hc b hb

example : RequestId.parse "safeümlaut" = .error (.invalidCharacter 4) := by decide +kernel

/-! ## All constructors -/

def RequestId.publicConstructors : List (String → Except InvalidRequestId RequestId) :=
  [RequestId.parse, RequestId.fromStr, RequestId.tryFromStr, RequestId.tryFromString]

/-- **What every constructor gives.**  An identifier is field content with no blank at
an end, whoever built it, and goes into a header value of its own bytes. The fallback
always builds one. The public constructors answer alike, to every text. -/
theorem requestId_constructors (M : Type) {V : Type} [Headers M V] (platform : Platform) :
    (∀ requestId : RequestId, requestId.Constructed platform →
      FieldContent requestId.asStr ∧
        ∃ value : V, Headers.fromStr M requestId.asStr = some value ∧
          Headers.valueBytes M value = asBytes requestId.asStr) ∧
    (∀ w, ∃ requestId w', (randomRequestId platform).run w = .ok (requestId, w')) ∧
    ∀ construct ∈ RequestId.publicConstructors, ∀ text,
      construct text = RequestId.parse text ∧ BaselineAnswer text (construct text) := by
  refine ⟨fun requestId h => ⟨h.fieldContent, h.fieldContent.fromStr M⟩, fun w => ?_, ?_⟩
  · obtain ⟨requestId, w', hrun, -⟩ := randomRequestId_spec platform w
    exact ⟨requestId, w', hrun⟩
  · intro construct hconstruct text
    have hsame : construct text = RequestId.parse text := by
      simp only [RequestId.publicConstructors, List.mem_cons, List.not_mem_nil, or_false]
        at hconstruct
      rcases hconstruct with rfl | rfl | rfl | rfl <;> rfl
    refine ⟨hsame, ?_⟩
    rw [hsame]
    exact baselineAnswer_parse text

end AxumObservability
