import AxumObservability.Library.Text

/-!
# Request identifiers

The two ways a request identifier comes to be: the baseline grammar of the
public constructors, and the wider native field content that a custom
validator may admit. Both give values that are legal header field values,
which the type records.

* `nativeFieldContent_iff`: the native field content;
* `validate_eq_ok_iff` and the iffs after it: the baseline grammar, and which error a
  text outside it has;
* `fieldContent_of_baseline`: a baseline identifier is native field content;
* `RequestId.fieldContent`: every identifier is what a header field value can hold.
-/

namespace AxumObservability

open Library.Text

/-! ## Field content -/

def isEdgeBlank (byte : UInt8) : Bool := byte == ' '.toUInt8 || byte == '\t'.toUInt8

/-- A byte that a header field value may hold: a tab, or anything from the space
on but the delete character. -/
def isFieldByte (byte : UInt8) : Bool := byte == '\t'.toUInt8 || byte ≥ 0x20 && byte != 0x7f

def nativeFieldContent (value : String) : Bool :=
  let bytes := asBytes value
  if bytes.isEmpty || bytes.head?.any isEdgeBlank || bytes.getLast?.any isEdgeBlank then false
  else bytes.all isFieldByte

/-- What a header field value can hold with no blank at either end. -/
structure FieldContent (value : String) : Prop where
  nonempty : asBytes value ≠ []
  first : ∀ b, (asBytes value).head? = some b → b ≠ ' '.toUInt8 ∧ b ≠ '\t'.toUInt8
  last : ∀ b, (asBytes value).getLast? = some b → b ≠ ' '.toUInt8 ∧ b ≠ '\t'.toUInt8
  bytes : ∀ b ∈ asBytes value, b = '\t'.toUInt8 ∨ 0x20 ≤ b ∧ b ≠ 0x7f

theorem any_isEdgeBlank_eq_false_iff (o : Option UInt8) : o.any isEdgeBlank = false ↔
    ∀ b, o = some b → b ≠ ' '.toUInt8 ∧ b ≠ '\t'.toUInt8 := by
  cases o with
  | none => simp
  | some b => simp [isEdgeBlank]

theorem isFieldByte_iff (b : UInt8) :
    isFieldByte b = true ↔ b = '\t'.toUInt8 ∨ 0x20 ≤ b ∧ b ≠ 0x7f := by
  simp [isFieldByte]

theorem nativeFieldContent_iff (value : String) :
    nativeFieldContent value = true ↔ FieldContent value := by
  simp only [nativeFieldContent]
  split_ifs with h
  · refine iff_of_false (by simp) fun c => ?_
    have hempty : (asBytes value).isEmpty = false := by simpa using c.nonempty
    rw [hempty, (any_isEdgeBlank_eq_false_iff _).mpr c.first,
      (any_isEdgeBlank_eq_false_iff _).mpr c.last] at h
    cases h
  · simp only [Bool.not_eq_true, Bool.or_eq_false_iff, any_isEdgeBlank_eq_false_iff] at h
    obtain ⟨⟨hempty, hfirst⟩, hlast⟩ := h
    rw [List.all_eq_true]
    constructor
    · intro hall
      exact ⟨by simpa using hempty, hfirst, hlast, fun b hb => (isFieldByte_iff b).mp (hall b hb)⟩
    · exact fun c b hb => (isFieldByte_iff b).mpr (c.bytes b hb)

/-! ## The baseline grammar -/

inductive InvalidRequestId where
  | empty
  | tooLong (length : Nat)
  | invalidCharacter (index : Nat)
  deriving DecidableEq

def RequestId.maxLen : Nat := 128

def isAsciiAlphanumeric (byte : UInt8) : Bool :=
  '0'.toUInt8 ≤ byte && byte ≤ '9'.toUInt8 || 'A'.toUInt8 ≤ byte && byte ≤ 'Z'.toUInt8 ||
    'a'.toUInt8 ≤ byte && byte ≤ 'z'.toUInt8

/-- Letters, digits and `-`, `.`, `_`, `~`. -/
def isUnreserved (byte : UInt8) : Bool :=
  isAsciiAlphanumeric byte || byte == '-'.toUInt8 || byte == '.'.toUInt8 || byte == '_'.toUInt8 ||
    byte == '~'.toUInt8

def validate (value : String) : Except InvalidRequestId Unit :=
  if (asBytes value).isEmpty then .error .empty
  else if (asBytes value).length > RequestId.maxLen then .error (.tooLong (asBytes value).length)
  else match (asBytes value).findIdx? fun byte => !isUnreserved byte with
    | some index => .error (.invalidCharacter index)
    | none => .ok ()

/-- The baseline grammar: 1 to 128 unreserved bytes. -/
def Baseline (value : String) : Prop :=
  asBytes value ≠ [] ∧ (asBytes value).length ≤ RequestId.maxLen ∧
    ∀ b ∈ asBytes value, isUnreserved b = true

theorem validate_eq_ok_iff (value : String) : validate value = .ok () ↔ Baseline value := by
  unfold validate Baseline
  cases hidx : (asBytes value).findIdx? fun byte => !isUnreserved byte with
  | some index =>
    obtain ⟨hlt, hbad, -⟩ := List.findIdx?_eq_some_iff_getElem.mp hidx
    have hmem : ∃ b ∈ asBytes value, ¬ isUnreserved b = true :=
      ⟨_, List.getElem_mem hlt, by simpa using hbad⟩
    split_ifs <;> simp only [false_iff, not_and]
    all_goals exact fun _ _ hall => hmem.elim fun b hb => hb.2 (hall b hb.1)
  | none =>
    have hall : ∀ b ∈ asBytes value, isUnreserved b = true := by
      simpa using List.findIdx?_eq_none_iff.mp hidx
    split_ifs with hempty hlong
    · simp only [false_iff]
      exact fun h => h.1 (List.isEmpty_iff.mp hempty)
    · simp only [false_iff]
      exact fun h => absurd h.2.1 (by omega)
    · simp only [true_iff]
      exact ⟨fun h => hempty (List.isEmpty_iff.mpr h), by omega, hall⟩

theorem validate_eq_empty_iff (value : String) :
    validate value = .error .empty ↔ value = "" := by
  have hnil : value = "" ↔ (asBytes value).isEmpty = true := by
    rw [List.isEmpty_iff]
    exact ⟨fun h => by rw [h]; rfl, fun h => asBytes_injective (h.trans rfl)⟩
  rw [hnil, validate]
  split_ifs with hempty hlong
  · simp [hempty]
  · simp [hempty]
  · split <;> simp [hempty]

theorem validate_eq_tooLong_iff (value : String) (length : Nat) :
    validate value = .error (.tooLong length) ↔
      RequestId.maxLen < (asBytes value).length ∧ length = (asBytes value).length := by
  unfold validate
  split_ifs with hempty hlong
  · simp [List.isEmpty_iff.mp hempty]
  · simp [hlong, eq_comm]
  · split <;> simp [hlong]

theorem validate_eq_invalidCharacter_iff (value : String) (index : Nat) :
    validate value = .error (.invalidCharacter index) ↔
      (asBytes value).length ≤ RequestId.maxLen ∧
        (asBytes value).findIdx? (fun byte => !isUnreserved byte) = some index := by
  unfold validate
  split_ifs with hempty hlong
  · simp [List.isEmpty_iff.mp hempty]
  · exact iff_of_false (by simp) fun h => Nat.not_le_of_gt hlong h.1
  · split <;> rename_i hidx <;> simp [hidx, Nat.le_of_not_lt hlong]

theorem isUnreserved_field : ∀ b : UInt8, isUnreserved b = true →
    isFieldByte b = true ∧ isEdgeBlank b = false ∧ b < 128 :=
  forall_byte (by decide +kernel)

/-- The weaker predicate covers the stronger one. -/
theorem fieldContent_of_baseline {value : String} (h : Baseline value) : FieldContent value := by
  obtain ⟨hne, -, hall⟩ := h
  have hedge : ∀ b ∈ asBytes value, b ≠ ' '.toUInt8 ∧ b ≠ '\t'.toUInt8 := by
    intro b hb
    simpa [isEdgeBlank] using (isUnreserved_field b (hall b hb)).2.1
  refine ⟨hne, fun b hb => hedge b (List.mem_of_mem_head? hb),
    fun b hb => hedge b (List.mem_of_mem_getLast? hb), fun b hb => ?_⟩
  exact (isFieldByte_iff b).mp (isUnreserved_field b (hall b hb)).1

theorem native_of_validate {value : String} (h : validate value = .ok ()) :
    nativeFieldContent value = true :=
  (nativeFieldContent_iff value).mpr (fieldContent_of_baseline ((validate_eq_ok_iff value).mp h))

/-! ## Identifiers -/

/-- A request identifier. Whoever built it, its text is native field content. -/
@[ext] structure RequestId where
  value : String
  native : nativeFieldContent value = true
  deriving DecidableEq

namespace RequestId

def asStr (id : RequestId) : String := id.value

def parse (value : String) : Except InvalidRequestId RequestId :=
  match h : validate value with
  | .error e => .error e
  | .ok () => .ok ⟨value, native_of_validate h⟩

def fromNativeHeader (value : String) : Option RequestId :=
  if h : nativeFieldContent value = true then some ⟨value, h⟩ else none

def fromStr (value : String) : Except InvalidRequestId RequestId := parse value

def tryFromStr (value : String) : Except InvalidRequestId RequestId := parse value

def tryFromString (value : String) : Except InvalidRequestId RequestId :=
  match h : validate value with
  | .error e => .error e
  | .ok () => .ok ⟨value, native_of_validate h⟩

theorem parse_of_validate {value : String} (h : validate value = .ok ()) :
    parse value = .ok ⟨value, native_of_validate h⟩ := by
  unfold parse
  split
  · rename_i e he; rw [h] at he; cases he
  · rfl

/-- The parser answers as the validation does. -/
theorem parse_isOk_iff (value : String) : (parse value).isOk = true ↔ validate value = .ok () := by
  constructor
  · intro h
    unfold parse at h
    split at h
    · cases h
    · assumption
  · intro h
    rw [parse_of_validate h]
    rfl

theorem parse_eq_error_iff (value : String) (error : InvalidRequestId) :
    parse value = .error error ↔ validate value = .error error := by
  unfold parse
  split <;> rename_i h <;> simp [h]

theorem parse_eq_ok_iff (value : String) (id : RequestId) :
    parse value = .ok id ↔ Baseline value ∧ id.asStr = value := by
  constructor
  · intro h
    have hvalid : validate value = .ok () := (parse_isOk_iff value).mp (by rw [h]; rfl)
    cases (parse_of_validate hvalid).symm.trans h
    exact ⟨(validate_eq_ok_iff value).mp hvalid, rfl⟩
  · rintro ⟨hbaseline, rfl⟩
    exact parse_of_validate ((validate_eq_ok_iff _).mpr hbaseline)

/-- Whoever was built by the parser satisfies the baseline grammar. -/
theorem baseline_of_parse {value : String} {id : RequestId} (h : parse value = .ok id) :
    Baseline id.asStr := by
  obtain ⟨hbaseline, hvalue⟩ := (parse_eq_ok_iff value id).mp h
  rw [hvalue]
  exact hbaseline

theorem fromNativeHeader_of_native {value : String} (h : nativeFieldContent value = true) :
    fromNativeHeader value = some ⟨value, h⟩ := dif_pos h

theorem fromNativeHeader_eq_some_iff (value : String) (id : RequestId) :
    fromNativeHeader value = some id ↔ FieldContent value ∧ id.asStr = value := by
  rw [← nativeFieldContent_iff]
  constructor
  · intro h
    rw [fromNativeHeader] at h
    split at h
    · cases h
      exact ⟨‹_›, rfl⟩
    · cases h
  · rintro ⟨h, rfl⟩
    exact fromNativeHeader_of_native h

/-- **Every identifier is field content.**  No constructor can give one that is
not. -/
theorem fieldContent (id : RequestId) : FieldContent id.asStr :=
  (nativeFieldContent_iff _).mp id.native

end RequestId

/-! ## The fallback -/

def isLowerHexDigit (byte : UInt8) : Bool :=
  '0'.toUInt8 ≤ byte && byte ≤ '9'.toUInt8 || 'a'.toUInt8 ≤ byte && byte ≤ 'f'.toUInt8

/-- A random UUID, by its simple form: 32 lowercase hex digits. -/
structure Uuid where
  simple : String
  length_eq : (asBytes simple).length = 32
  lowerHex : ∀ b ∈ asBytes simple, isLowerHexDigit b = true

theorem isLowerHexDigit_unreserved : ∀ b : UInt8, isLowerHexDigit b = true →
    isUnreserved b = true :=
  forall_byte (by decide +kernel)

theorem isLowerHexDigit_ascii : ∀ b : UInt8, isLowerHexDigit b = true → b < 128 :=
  forall_byte (by decide +kernel)

theorem Uuid.baseline_simple (uuid : Uuid) : Baseline uuid.simple := by
  have hlen := uuid.length_eq
  refine ⟨fun h => ?_, ?_, fun b hb => isLowerHexDigit_unreserved b (uuid.lowerHex b hb)⟩
  · rw [h] at hlen; cases hlen
  · rw [hlen, RequestId.maxLen]; omega

theorem Uuid.validate_simple (uuid : Uuid) : validate uuid.simple = .ok () :=
  (validate_eq_ok_iff _).mpr uuid.baseline_simple

end AxumObservability
