import AxumObservability.RequestId
import AxumObservability.Library.Panics

/-!
# The traceparent header

The fixed-offset parser of one `traceparent` value, with its indexing as the
source has it: an index out of range would panic.

* `Layout.exists_of_le`: a value of 55 bytes or more is cut at fixed offsets;
* `parse_cases`: every value is cut there and accepted, or refused;
* `parseTraceparentWithLevel_grammar`: the parser accepts exactly its grammar,
  and what it returns encodes back to what it read;
* `TraceContext.Encodes.ext`: the first fifty-five bytes determine identifiers and
  flags.
-/

namespace AxumObservability

open Library.Text Library.Panics

/-! ## The trace context -/

inductive TraceContextLevel where
  | level1
  | level2
  deriving DecidableEq

/-- An accepted inbound trace context. -/
structure TraceContext where
  version : UInt8
  traceId : String
  parentId : String
  flags : UInt8
  level : TraceContextLevel
  traceparent : Bytes
  tracestate : Option String
  deriving DecidableEq

namespace TraceContext

def new (version : UInt8) (traceId parentId : String) (flags : UInt8) (level : TraceContextLevel)
    (traceparent : Bytes) : TraceContext :=
  ⟨version, traceId, parentId, flags, level, traceparent, none⟩

def withTracestate (trace : TraceContext) (tracestate : Option String) : TraceContext :=
  { trace with tracestate := tracestate }

def sampled (trace : TraceContext) : Bool := trace.flags &&& 1 == 1

def traceIdRandom (trace : TraceContext) : Option Bool :=
  match trace.level, trace.version with
  | .level2, 0 => some (trace.flags &&& 2 == 2)
  | _, _ => none

end TraceContext

/-! ## Hex -/

def isLowerHex (value : Bytes) : Bool := value.all isLowerHexDigit

def hexNibble (value : UInt8) : UInt8 :=
  if '0'.toUInt8 ≤ value && value ≤ '9'.toUInt8 then value - '0'.toUInt8
  else if 'a'.toUInt8 ≤ value && value ≤ 'f'.toUInt8 then value - 'a'.toUInt8 + 10
  else 0

def decodeHexByte (high low : UInt8) : UInt8 := hexNibble high <<< 4 ||| hexNibble low

/-- A byte as two lowercase hex digits. -/
def lowerHex02 (byte : UInt8) : String :=
  String.ofList [Nat.digitChar (byte.toNat / 16), Nat.digitChar (byte.toNat % 16)]

theorem hexNibble_spec : ∀ b : UInt8, isLowerHexDigit b = true →
    hexNibble b < 16 ∧ String.utf8EncodeChar (Nat.digitChar (hexNibble b).toNat) = [b] :=
  forall_byte (by decide +kernel)

theorem nibbles_spec : ∀ h l : Fin 16,
    (UInt8.ofNat h <<< 4 ||| UInt8.ofNat l).toNat / 16 = h ∧
      (UInt8.ofNat h <<< 4 ||| UInt8.ofNat l).toNat % 16 = l := by
  decide +kernel

theorem decodeHexByte_digits {high low : UInt8} (hh : isLowerHexDigit high = true)
    (hl : isLowerHexDigit low = true) :
    (decodeHexByte high low).toNat / 16 = (hexNibble high).toNat ∧
      (decodeHexByte high low).toNat % 16 = (hexNibble low).toNat := by
  have h := nibbles_spec ⟨(hexNibble high).toNat, (hexNibble_spec high hh).1⟩
    ⟨(hexNibble low).toNat, (hexNibble_spec low hl).1⟩
  simpa [decodeHexByte] using h

/-- **Formatting inverts decoding.** -/
theorem lowerHex02_decodeHexByte {high low : UInt8} (hh : isLowerHexDigit high = true)
    (hl : isLowerHexDigit low = true) :
    asBytes (lowerHex02 (decodeHexByte high low)) = [high, low] := by
  obtain ⟨hdiv, hmod⟩ := decodeHexByte_digits hh hl
  rw [lowerHex02, asBytes_ofList, hdiv, hmod]
  simp [(hexNibble_spec high hh).2, (hexNibble_spec low hl).2]

/-- Hex digits are text. -/
theorem fromUtf8_isLowerHex {value : Bytes} (h : isLowerHex value = true) :
    ∃ s, fromUtf8 value = some s :=
  fromUtf8_ascii value fun b hb => isLowerHexDigit_ascii b (List.all_eq_true.mp h b hb)

/-! ## The parser -/

def isControl (byte : UInt8) : Bool := byte < 0x20 && byte != '\t'.toUInt8 || byte == 0x7f

def hyphen : UInt8 := '-'.toUInt8

/-- The bytes at fixed offsets are not those of a traceparent. -/
def framingRejected (bytes : Bytes) : Result Bool :=
  shortOr (.ok (bytes.length < 55)) <|
  shortOr (.ok (bytes.any isControl)) <|
  shortOr (do return (← index bytes 2) != hyphen) <|
  shortOr (do return (← index bytes 35) != hyphen) <|
  shortOr (do return (← index bytes 52) != hyphen) <|
  shortOr (do return !isLowerHex (← slice bytes 0 2)) <|
  shortOr (do return !isLowerHex (← slice bytes 3 35)) <|
  shortOr (do return !isLowerHex (← slice bytes 36 52)) <|
  shortOr (do return !isLowerHex (← slice bytes 53 55)) <|
  shortOr (do return (← slice bytes 0 2) == asBytes "ff") <|
  shortOr (do return (← slice bytes 3 35).all (· == '0'.toUInt8)) <|
  do return (← slice bytes 36 52).all (· == '0'.toUInt8)

/-- Version 00 ends with the flags; a later version may go on after a hyphen. -/
def suffixRejected (bytes : Bytes) : Result Bool := do
  if (← slice bytes 0 2) == asBytes "00" then
    return bytes.length != 55
  else
    shortAnd (.ok (bytes.length > 55)) do return (← index bytes 55) != hyphen

def parseTraceparentWithLevel (bytes : Bytes) (level : TraceContextLevel) :
    Result (Option TraceContext) := do
  if ← framingRejected bytes then return none
  else if ← suffixRejected bytes then return none
  else
    let version := decodeHexByte (← index bytes 0) (← index bytes 1)
    let flags := decodeHexByte (← index bytes 53) (← index bytes 54)
    let traceId ← slice bytes 3 35
    let parentId ← slice bytes 36 52
    match fromUtf8 traceId, fromUtf8 parentId with
    | some traceId, some parentId =>
      return some (.new version traceId parentId flags level bytes)
    | _, _ => return none

/-! ## The layout of fifty-five bytes -/

/-- Any fifty-five bytes, by the offsets the parser reads them at. -/
structure Layout where
  version : Bytes
  traceId : Bytes
  parentId : Bytes
  flags : Bytes
  suffix : Bytes
  sep₁ : UInt8
  sep₂ : UInt8
  sep₃ : UInt8
  version_length : version.length = 2
  traceId_length : traceId.length = 32
  parentId_length : parentId.length = 16
  flags_length : flags.length = 2

namespace Layout

variable (l : Layout)

def bytes : Bytes :=
  l.version ++ l.sep₁ :: (l.traceId ++ l.sep₂ :: (l.parentId ++ l.sep₃ :: (l.flags ++ l.suffix)))

/-- Cut `n` bytes and one more off the front. -/
private theorem cut {n : Nat} (l : Bytes) (h : n < l.length) :
    ∃ front sep rest, front.length = n ∧ l = front ++ sep :: rest :=
  ⟨l.take n, l[n], l.drop (n + 1), by rw [List.length_take]; omega, by
    rw [List.getElem_cons_drop, List.take_append_drop]⟩

theorem exists_of_le {bytes : Bytes} (h : 55 ≤ bytes.length) : ∃ l : Layout, l.bytes = bytes := by
  obtain ⟨version, sep₁, rest₁, hv, rfl⟩ := cut (n := 2) bytes (by omega)
  simp only [List.length_append, List.length_cons, hv] at h
  obtain ⟨traceId, sep₂, rest₂, ht, rfl⟩ := cut (n := 32) rest₁ (by omega)
  simp only [List.length_append, List.length_cons, ht] at h
  obtain ⟨parentId, sep₃, rest₃, hp, rfl⟩ := cut (n := 16) rest₂ (by omega)
  simp only [List.length_append, List.length_cons, hp] at h
  refine ⟨⟨version, traceId, parentId, rest₃.take 2, rest₃.drop 2, sep₁, sep₂, sep₃, hv, ht, hp,
    by rw [List.length_take]; omega⟩, ?_⟩
  simp only [Layout.bytes, List.take_append_drop]

theorem length_eq : l.bytes.length = 55 + l.suffix.length := by
  rw [bytes]
  simp only [List.length_append, List.length_cons, l.version_length, l.traceId_length,
    l.parentId_length, l.flags_length]
  omega

theorem slice_version : slice l.bytes 0 2 = .ok l.version := by
  rw [bytes]
  exact slice_middle (l := []) rfl (by rw [l.version_length])

theorem slice_traceId : slice l.bytes 3 35 = .ok l.traceId := by
  have h := slice_middle (l := l.version ++ [l.sep₁]) (m := l.traceId) (i := 3) (j := 35)
    (r := l.sep₂ :: (l.parentId ++ l.sep₃ :: (l.flags ++ l.suffix)))
    (by simp [l.version_length]) (by rw [l.traceId_length])
  rw [bytes]
  simpa using h

theorem slice_parentId : slice l.bytes 36 52 = .ok l.parentId := by
  have h := slice_middle (l := l.version ++ l.sep₁ :: (l.traceId ++ [l.sep₂])) (m := l.parentId)
    (r := l.sep₃ :: (l.flags ++ l.suffix)) (i := 36) (j := 52)
    (by simp [l.version_length, l.traceId_length]) (by rw [l.parentId_length])
  rw [bytes]
  simpa using h

theorem slice_flags : slice l.bytes 53 55 = .ok l.flags := by
  have h := slice_middle (l := l.version ++ l.sep₁ :: (l.traceId ++ l.sep₂ ::
      (l.parentId ++ [l.sep₃]))) (m := l.flags) (r := l.suffix) (i := 53) (j := 55)
    (by simp [l.version_length, l.traceId_length, l.parentId_length]) (by rw [l.flags_length])
  rw [bytes]
  simpa using h

theorem index_sep₁ : index l.bytes 2 = .ok l.sep₁ := by
  rw [bytes]
  exact index_middle l.version_length

theorem index_sep₂ : index l.bytes 35 = .ok l.sep₂ := by
  have h := index_middle (l := l.version ++ l.sep₁ :: l.traceId) (a := l.sep₂) (i := 35)
    (r := l.parentId ++ l.sep₃ :: (l.flags ++ l.suffix))
    (by simp [l.version_length, l.traceId_length])
  rw [bytes]
  simpa using h

theorem index_sep₃ : index l.bytes 52 = .ok l.sep₃ := by
  have h := index_middle (l := l.version ++ l.sep₁ :: (l.traceId ++ l.sep₂ :: l.parentId))
    (a := l.sep₃) (i := 52) (r := l.flags ++ l.suffix)
    (by simp [l.version_length, l.traceId_length, l.parentId_length])
  rw [bytes]
  simpa using h

theorem index_suffix {c : UInt8} {cs : Bytes} (h : l.suffix = c :: cs) :
    index l.bytes 55 = .ok c := by
  have hi := index_middle (l := l.version ++ l.sep₁ :: (l.traceId ++ l.sep₂ ::
      (l.parentId ++ l.sep₃ :: l.flags))) (a := c) (i := 55) (r := cs)
    (by simp [l.version_length, l.traceId_length, l.parentId_length, l.flags_length])
  rw [bytes, h]
  simpa using hi

/-- The two digits of a two-byte field are the bytes at its offsets. -/
theorem index_pair {a b : UInt8} (h : l.version = [a, b]) :
    index l.bytes 0 = .ok a ∧ index l.bytes 1 = .ok b := by
  rw [bytes, h]
  exact ⟨rfl, rfl⟩

theorem index_flags {a b : UInt8} (h : l.flags = [a, b]) :
    index l.bytes 53 = .ok a ∧ index l.bytes 54 = .ok b := by
  have ha := index_middle (l := l.version ++ l.sep₁ :: (l.traceId ++ l.sep₂ ::
      (l.parentId ++ [l.sep₃]))) (a := a) (i := 53) (r := b :: l.suffix)
    (by simp [l.version_length, l.traceId_length, l.parentId_length])
  have hb := index_middle (l := l.version ++ l.sep₁ :: (l.traceId ++ l.sep₂ ::
      (l.parentId ++ [l.sep₃, a]))) (a := b) (i := 54) (r := l.suffix)
    (by simp [l.version_length, l.traceId_length, l.parentId_length])
  rw [bytes, h]
  exact ⟨by simpa using ha, by simpa using hb⟩

end Layout

/-! ## The grammar -/

structure TraceparentGrammar (bytes V T P F S : Bytes) : Prop where
  bytes_eq : bytes = V ++ hyphen :: (T ++ hyphen :: (P ++ hyphen :: (F ++ S)))
  version : V.length = 2 ∧ isLowerHex V = true ∧ V ≠ asBytes "ff"
  traceId : T.length = 32 ∧ isLowerHex T = true ∧ ∃ b ∈ T, b ≠ '0'.toUInt8
  parentId : P.length = 16 ∧ isLowerHex P = true ∧ ∃ b ∈ P, b ≠ '0'.toUInt8
  flags : F.length = 2 ∧ isLowerHex F = true
  suffix : S = [] ∨ V ≠ asBytes "00" ∧ S.head? = some hyphen
  noControl : ∀ b ∈ bytes, b ≠ 0x7f ∧ (b < 0x20 → b = '\t'.toUInt8)

theorem isControl_eq_false_iff (b : UInt8) :
    isControl b = false ↔ b ≠ 0x7f ∧ (b < 0x20 → b = '\t'.toUInt8) := by
  simp only [isControl, Bool.or_eq_false_iff, Bool.and_eq_false_iff, decide_eq_false_iff_not,
    bne_eq_false_iff_eq, beq_eq_false_iff_ne]
  tauto

namespace Layout

variable (l : Layout)

/-- The conditions of `framingRejected` on the parts. -/
theorem framingRejected_eq : framingRejected l.bytes =
    .ok (l.bytes.any isControl || l.sep₁ != hyphen || l.sep₂ != hyphen || l.sep₃ != hyphen ||
      !isLowerHex l.version || !isLowerHex l.traceId || !isLowerHex l.parentId ||
      !isLowerHex l.flags || l.version == asBytes "ff" || l.traceId.all (· == '0'.toUInt8) ||
      l.parentId.all (· == '0'.toUInt8)) := by
  have hlen : ¬ l.bytes.length < 55 := by rw [l.length_eq]; omega
  simp only [framingRejected, hlen, l.index_sep₁, l.index_sep₂, l.index_sep₃, l.slice_version,
    l.slice_traceId, l.slice_parentId, l.slice_flags, ok_bind, pure_eq_ok, shortOr_ok,
    decide_false, Bool.false_or, Bool.or_assoc]

theorem suffixRejected_eq : suffixRejected l.bytes =
    .ok (if l.version == asBytes "00" then !l.suffix.isEmpty
      else l.suffix.head?.any (· != hyphen)) := by
  rw [suffixRejected, l.slice_version, ok_bind]
  split
  · rw [l.length_eq]
    cases l.suffix <;> simp
  · cases hs : l.suffix with
    | nil => simp [l.length_eq, hs]
    | cons c cs => simp [l.length_eq, hs, l.index_suffix hs]

/-- With hyphens between the parts the separators are hyphens. -/
theorem separators_of_bytes_eq (h : l.bytes = l.version ++ hyphen :: (l.traceId ++ hyphen ::
    (l.parentId ++ hyphen :: (l.flags ++ l.suffix)))) :
    l.sep₁ = hyphen ∧ l.sep₂ = hyphen ∧ l.sep₃ = hyphen := by
  rw [bytes] at h
  obtain ⟨h₁, h⟩ := List.cons.inj (List.append_cancel_left h)
  obtain ⟨h₂, h⟩ := List.cons.inj (List.append_cancel_left h)
  exact ⟨h₁, h₂, (List.cons.inj (List.append_cancel_left h)).1⟩

/-- The first fifty-five bytes are all but the suffix. -/
theorem take_bytes (h : l.bytes = l.version ++ hyphen :: (l.traceId ++ hyphen ::
    (l.parentId ++ hyphen :: (l.flags ++ l.suffix)))) :
    l.bytes.take 55 = l.version ++ hyphen :: (l.traceId ++ hyphen ::
      (l.parentId ++ hyphen :: l.flags)) := by
  have happ : l.bytes = (l.version ++ hyphen :: (l.traceId ++ hyphen ::
      (l.parentId ++ hyphen :: l.flags))) ++ l.suffix := by
    rw [h]; simp
  rw [happ]
  exact List.take_left' (by simp [l.version_length, l.traceId_length, l.parentId_length,
    l.flags_length])

/-- Neither check rejects the parts exactly when they are those of the grammar. -/
theorem accepted_iff : (framingRejected l.bytes = .ok false ∧ suffixRejected l.bytes = .ok false) ↔
    TraceparentGrammar l.bytes l.version l.traceId l.parentId l.flags l.suffix := by
  have hall : ∀ b : Bytes, b.all (· == '0'.toUInt8) = false ↔ ∃ c ∈ b, c ≠ '0'.toUInt8 := by
    intro b
    simp [List.all_eq_false]
  have hsuffix : (if l.version == asBytes "00" then !l.suffix.isEmpty
      else l.suffix.head?.any (· != hyphen)) = false ↔
      l.suffix = [] ∨ l.version ≠ asBytes "00" ∧ l.suffix.head? = some hyphen := by
    by_cases hv : l.version = asBytes "00" <;> cases l.suffix <;> simp [hv]
  have hcontrol : l.bytes.any isControl = false ↔
      ∀ b ∈ l.bytes, b ≠ 0x7f ∧ (b < 0x20 → b = '\t'.toUInt8) := by
    simp only [List.any_eq_false, Bool.not_eq_true, isControl_eq_false_iff]
  rw [l.framingRejected_eq, l.suffixRejected_eq]
  simp only [Except.ok.injEq, Bool.or_eq_false_iff, bne_eq_false_iff_eq, Bool.not_eq_false',
    beq_eq_false_iff_ne, hall, hsuffix, hcontrol]
  constructor
  · rintro ⟨⟨⟨⟨⟨⟨⟨⟨⟨⟨⟨hc, h₁⟩, h₂⟩, h₃⟩, hv⟩, ht⟩, hp⟩, hf⟩, hff⟩, ht0⟩, hp0⟩, hs⟩
    exact ⟨by rw [bytes, h₁, h₂, h₃], ⟨l.version_length, hv, hff⟩, ⟨l.traceId_length, ht, ht0⟩,
      ⟨l.parentId_length, hp, hp0⟩, ⟨l.flags_length, hf⟩, hs, hc⟩
  · rintro ⟨hb, ⟨-, hv, hff⟩, ⟨-, ht, ht0⟩, ⟨-, hp, hp0⟩, ⟨-, hf⟩, hs, hc⟩
    obtain ⟨h₁, h₂, h₃⟩ := l.separators_of_bytes_eq hb
    exact ⟨⟨⟨⟨⟨⟨⟨⟨⟨⟨⟨hc, h₁⟩, h₂⟩, h₃⟩, hv⟩, ht⟩, hp⟩, hf⟩, hff⟩, ht0⟩, hp0⟩, hs⟩

end Layout

/-! ## What the parser returns -/

/-- The trace context the parser builds from the parts of a value. -/
structure Decodes (trace : TraceContext) (level : TraceContextLevel) (bytes V T P F : Bytes) :
    Prop where
  version : asBytes (lowerHex02 trace.version) = V
  traceId : asBytes trace.traceId = T
  parentId : asBytes trace.parentId = P
  flags : asBytes (lowerHex02 trace.flags) = F
  level : trace.level = level
  traceparent : trace.traceparent = bytes
  tracestate : trace.tracestate = none

theorem exists_pair {b : Bytes} (h : b.length = 2 ∧ isLowerHex b = true) :
    ∃ hi lo, b = [hi, lo] ∧ isLowerHexDigit hi = true ∧ isLowerHexDigit lo = true := by
  obtain ⟨hi, lo, rfl⟩ := List.length_eq_two.mp h.1
  exact ⟨hi, lo, rfl, List.all_eq_true.mp h.2 hi (by simp), List.all_eq_true.mp h.2 lo (by simp)⟩

namespace Layout

variable (l : Layout)

theorem parse_of_grammar (level : TraceContextLevel)
    (g : TraceparentGrammar l.bytes l.version l.traceId l.parentId l.flags l.suffix) :
    ∃ trace, parseTraceparentWithLevel l.bytes level = .ok (some trace) ∧
      Decodes trace level l.bytes l.version l.traceId l.parentId l.flags := by
  obtain ⟨hframing, hsuffix⟩ := l.accepted_iff.mpr g
  obtain ⟨v₁, v₂, hv, hv₁, hv₂⟩ := exists_pair ⟨g.version.1, g.version.2.1⟩
  obtain ⟨f₁, f₂, hf, hf₁, hf₂⟩ := exists_pair g.flags
  obtain ⟨traceId, ht⟩ := fromUtf8_isLowerHex g.traceId.2.1
  obtain ⟨parentId, hp⟩ := fromUtf8_isLowerHex g.parentId.2.1
  refine ⟨.new (decodeHexByte v₁ v₂) traceId parentId (decodeHexByte f₁ f₂) level l.bytes, ?_, ?_⟩
  · simp only [parseTraceparentWithLevel, hframing, hsuffix, ok_bind, Bool.false_eq_true,
      ↓reduceIte, (l.index_pair hv).1, (l.index_pair hv).2, (l.index_flags hf).1,
      (l.index_flags hf).2, l.slice_traceId, l.slice_parentId, ht, hp, pure_eq_ok]
  · refine ⟨?_, (fromUtf8_eq_some_iff _ _).mp ht, (fromUtf8_eq_some_iff _ _).mp hp, ?_, rfl, rfl,
      rfl⟩
    · rw [hv]; exact lowerHex02_decodeHexByte hv₁ hv₂
    · rw [hf]; exact lowerHex02_decodeHexByte hf₁ hf₂

theorem parse_of_not_grammar (level : TraceContextLevel)
    (h : ¬ TraceparentGrammar l.bytes l.version l.traceId l.parentId l.flags l.suffix) :
    parseTraceparentWithLevel l.bytes level = .ok none := by
  rw [← l.accepted_iff] at h
  obtain ⟨framing, hframing⟩ : ∃ r, framingRejected l.bytes = .ok r := ⟨_, l.framingRejected_eq⟩
  obtain ⟨suffix, hsuffix⟩ : ∃ r, suffixRejected l.bytes = .ok r := ⟨_, l.suffixRejected_eq⟩
  simp only [hframing, hsuffix, Except.ok.injEq, not_and, Bool.not_eq_false] at h
  simp only [parseTraceparentWithLevel, hframing, hsuffix, ok_bind, pure_eq_ok]
  cases framing with
  | true => rfl
  | false => rw [h rfl]; rfl

end Layout

/-- Whatever parts a value is cut into under the grammar, they are those at the
parser's offsets. -/
theorem TraceparentGrammar.layout_eq {l : Layout} {V T P F S : Bytes}
    (g : TraceparentGrammar l.bytes V T P F S) :
    V = l.version ∧ T = l.traceId ∧ P = l.parentId ∧ F = l.flags ∧ S = l.suffix := by
  have h := g.bytes_eq
  rw [Layout.bytes] at h
  obtain ⟨hV, h⟩ := List.append_inj h (by rw [l.version_length, g.version.1])
  obtain ⟨hT, h⟩ := List.append_inj (List.cons.inj h).2 (by rw [l.traceId_length, g.traceId.1])
  obtain ⟨hP, h⟩ := List.append_inj (List.cons.inj h).2 (by rw [l.parentId_length, g.parentId.1])
  obtain ⟨hF, hS⟩ := List.append_inj (List.cons.inj h).2 (by rw [l.flags_length, g.flags.1])
  exact ⟨hV.symm, hT.symm, hP.symm, hF.symm, hS.symm⟩

theorem parse_of_short {bytes : Bytes} (level : TraceContextLevel) (h : bytes.length < 55) :
    parseTraceparentWithLevel bytes level = .ok none := by
  simp only [parseTraceparentWithLevel, framingRejected, h, decide_true, shortOr_true, ok_bind]
  rfl

theorem TraceparentGrammar.le_length {bytes V T P F S : Bytes}
    (g : TraceparentGrammar bytes V T P F S) : 55 ≤ bytes.length := by
  rw [g.bytes_eq]
  simp only [List.length_append, List.length_cons, g.version.1, g.traceId.1, g.parentId.1,
    g.flags.1]
  omega

/-- Every value is cut at the parser's offsets and accepted, or refused. -/
theorem parse_cases (bytes : Bytes) (level : TraceContextLevel) :
    (∃ l : Layout, l.bytes = bytes ∧
      TraceparentGrammar l.bytes l.version l.traceId l.parentId l.flags l.suffix ∧
      ∃ trace, parseTraceparentWithLevel bytes level = .ok (some trace) ∧
        Decodes trace level bytes l.version l.traceId l.parentId l.flags) ∨
    ((¬ ∃ V T P F S, TraceparentGrammar bytes V T P F S) ∧
      parseTraceparentWithLevel bytes level = .ok none) := by
  by_cases hlen : bytes.length < 55
  · exact Or.inr ⟨fun ⟨_, _, _, _, _, g⟩ => absurd g.le_length (by omega),
      parse_of_short level hlen⟩
  · obtain ⟨l, rfl⟩ := Layout.exists_of_le (Nat.le_of_not_lt hlen)
    by_cases g : TraceparentGrammar l.bytes l.version l.traceId l.parentId l.flags l.suffix
    · exact Or.inl ⟨l, rfl, g, l.parse_of_grammar level g⟩
    · refine Or.inr ⟨?_, l.parse_of_not_grammar level g⟩
      rintro ⟨V, T, P, F, S, g'⟩
      obtain ⟨rfl, rfl, rfl, rfl, rfl⟩ := g'.layout_eq
      exact g g'

theorem TraceparentGrammar.parse {bytes V T P F S : Bytes} (g : TraceparentGrammar bytes V T P F S)
    (level : TraceContextLevel) :
    ∃ trace, parseTraceparentWithLevel bytes level = .ok (some trace) ∧
      Decodes trace level bytes V T P F := by
  rcases parse_cases bytes level with ⟨l, rfl, -, trace, hparse, d⟩ | ⟨hno, -⟩
  · obtain ⟨rfl, rfl, rfl, rfl, rfl⟩ := g.layout_eq
    exact ⟨trace, hparse, d⟩
  · exact absurd ⟨V, T, P, F, S, g⟩ hno

theorem lowerHex02_eq_zero_iff : ∀ b : UInt8, asBytes (lowerHex02 b) = asBytes "00" ↔ b = 0 :=
  forall_byte (by decide +kernel)

theorem flag_bits : ∀ b : UInt8,
    (b &&& 1 == 1) = b.toNat.testBit 0 ∧ (b &&& 2 == 2) = b.toNat.testBit 1 :=
  forall_byte (by decide +kernel)

theorem Decodes.traceIdRandom {trace : TraceContext} {level : TraceContextLevel}
    {bytes V T P F : Bytes} (d : Decodes trace level bytes V T P F) :
    trace.traceIdRandom =
      if level = .level2 ∧ V = asBytes "00" then some (trace.flags.toNat.testBit 1) else none := by
  have hv : V = asBytes "00" ↔ trace.version = 0 := by
    rw [← d.version]
    exact lowerHex02_eq_zero_iff trace.version
  simp only [hv, ← d.level, ← (flag_bits trace.flags).2]
  unfold TraceContext.traceIdRandom
  split
  · rename_i hl hz
    rw [if_pos ⟨hl, hz⟩]
  · rename_i h
    rw [if_neg fun hc => h hc.1 hc.2]

/-- **The parser accepts exactly its grammar and re-encodes to what it read.**
It never indexes out of range, however short its input. -/
theorem parseTraceparentWithLevel_grammar (bytes : Bytes) (level : TraceContextLevel) :
    ∃ result, parseTraceparentWithLevel bytes level = .ok result ∧
      (result.isSome = true ↔ ∃ V T P F S, TraceparentGrammar bytes V T P F S) ∧
      ∀ trace, result = some trace → ∀ V T P F S, TraceparentGrammar bytes V T P F S →
        asBytes trace.traceId = T ∧ asBytes trace.parentId = P ∧
        asBytes (lowerHex02 trace.version) = V ∧ asBytes (lowerHex02 trace.flags) = F ∧
        asBytes (lowerHex02 trace.version) ++ hyphen :: (asBytes trace.traceId ++ hyphen ::
          (asBytes trace.parentId ++ hyphen :: asBytes (lowerHex02 trace.flags))) =
            bytes.take 55 ∧
        trace.traceparent = bytes ∧
        trace.sampled = trace.flags.toNat.testBit 0 ∧
        trace.traceIdRandom =
          if level = .level2 ∧ V = asBytes "00" then some (trace.flags.toNat.testBit 1)
          else none := by
  rcases parse_cases bytes level with ⟨l, rfl, g, trace, hparse, d⟩ | ⟨hno, hparse⟩
  · refine ⟨some trace, hparse, by simpa using ⟨_, _, _, _, _, g⟩, ?_⟩
    rintro _ ⟨⟩ V T P F S g'
    obtain ⟨rfl, rfl, rfl, rfl, rfl⟩ := g'.layout_eq
    refine ⟨d.traceId, d.parentId, d.version, d.flags, ?_, d.traceparent,
      (flag_bits trace.flags).1, d.traceIdRandom⟩
    rw [d.version, d.traceId, d.parentId, d.flags, l.take_bytes g.bytes_eq]
  · exact ⟨none, hparse, by simpa using hno, by simp⟩

/-! ## What the first fifty-five bytes say -/

/-- What an accepted trace context keeps of its traceparent. -/
structure TraceContext.Encodes (trace : TraceContext) (level : TraceContextLevel) : Prop where
  level : trace.level = level
  front : trace.traceparent.take 55 = asBytes (lowerHex02 trace.version) ++ hyphen ::
    (asBytes trace.traceId ++ hyphen :: (asBytes trace.parentId ++ hyphen ::
      asBytes (lowerHex02 trace.flags)))
  traceId_length : (asBytes trace.traceId).length = 32
  parentId_length : (asBytes trace.parentId).length = 16

theorem encodes_of_parse {bytes : Bytes} {level : TraceContextLevel} {trace : TraceContext}
    (h : parseTraceparentWithLevel bytes level = .ok (some trace)) : trace.Encodes level := by
  rcases parse_cases bytes level with ⟨l, rfl, g, trace', hparse, d⟩ | ⟨-, hparse⟩
  · cases hparse.symm.trans h
    refine ⟨d.level, ?_, by rw [d.traceId, l.traceId_length], by rw [d.parentId, l.parentId_length]⟩
    rw [d.version, d.traceId, d.parentId, d.flags, d.traceparent, l.take_bytes g.bytes_eq]
  · cases hparse.symm.trans h

theorem lowerHex02_length : ∀ b : UInt8, (asBytes (lowerHex02 b)).length = 2 :=
  forall_byte (by decide +kernel)

theorem lowerHex02_injective {b b' : UInt8} (h : asBytes (lowerHex02 b) = asBytes (lowerHex02 b')) :
    b = b' := by
  have hinverse : ∀ b : UInt8, decodeHexByte ((asBytes (lowerHex02 b)).getD 0 0)
      ((asBytes (lowerHex02 b)).getD 1 0) = b := forall_byte (by decide +kernel)
  rw [← hinverse b, h, hinverse b']

/-- **Two traceparents that agree there give the same identifiers and flags.** -/
theorem TraceContext.Encodes.ext {trace trace' : TraceContext} {level : TraceContextLevel}
    (h : trace.Encodes level) (h' : trace'.Encodes level)
    (hfront : trace.traceparent.take 55 = trace'.traceparent.take 55) :
    trace.version = trace'.version ∧ trace.traceId = trace'.traceId ∧
      trace.parentId = trace'.parentId ∧ trace.flags = trace'.flags ∧
      trace.level = trace'.level := by
  rw [h.front, h'.front] at hfront
  obtain ⟨hversion, hrest⟩ := List.append_inj hfront (by rw [lowerHex02_length, lowerHex02_length])
  obtain ⟨htraceId, hrest⟩ := List.append_inj (List.cons.inj hrest).2
    (by rw [h.traceId_length, h'.traceId_length])
  obtain ⟨hparentId, hrest⟩ := List.append_inj (List.cons.inj hrest).2
    (by rw [h.parentId_length, h'.parentId_length])
  exact ⟨lowerHex02_injective hversion, asBytes_injective htraceId, asBytes_injective hparentId,
    lowerHex02_injective (List.cons.inj hrest).2, h.level.trans h'.level.symm⟩

end AxumObservability
