import AxumObservability.TraceContext

/-!
# The tracestate header

The list parser of `tracestate`, over the bytes of its texts, and the grammar
of either trace context level.

* `isValidTracestateKey_iff`, `isValidTracestateValue_iff`: the two member
  parts;
* `acceptMembers_iff`: the member loop accepts the members of the grammar with
  distinct keys;
* `parseTracestateWithLevel_iff`: what the parser returns, and when.
-/

namespace AxumObservability

open Library.Text

/-! ## The parser -/

def isAsciiLowercase (byte : UInt8) : Bool := 'a'.toUInt8 ≤ byte && byte ≤ 'z'.toUInt8

def isAsciiDigit (byte : UInt8) : Bool := '0'.toUInt8 ≤ byte && byte ≤ '9'.toUInt8

def isKeyChar (byte : UInt8) : Bool :=
  isAsciiLowercase byte || isAsciiDigit byte || byte == '_'.toUInt8 || byte == '-'.toUInt8 ||
    byte == '*'.toUInt8 || byte == '/'.toUInt8

def atSign : UInt8 := '@'.toUInt8

def equalsSign : UInt8 := '='.toUInt8

def comma : UInt8 := ','.toUInt8

def isLevelTwoKeyChar (byte : UInt8) : Bool := isKeyChar byte || byte == atSign

def isValidLevelOneKey (key : Bytes) : Bool :=
  match splitOnce atSign key with
  | some (tenant, system) =>
    !tenant.isEmpty && tenant.length ≤ 241 &&
      tenant.head?.any (fun b => isAsciiLowercase b || isAsciiDigit b) && tenant.all isKeyChar &&
      !system.isEmpty && system.length ≤ 14 && system.head?.any isAsciiLowercase &&
      system.all isKeyChar && !system.contains atSign
  | none => key.head?.any isAsciiLowercase && key.all isKeyChar

def isValidTracestateKey (key : Bytes) (level : TraceContextLevel) : Bool :=
  if key.isEmpty || key.length > 256 || !key.all (· < 128) then false
  else match level with
    | .level1 => isValidLevelOneKey key
    | .level2 =>
      key.head?.any (fun b => isAsciiLowercase b || isAsciiDigit b) && key.all isLevelTwoKeyChar

def isValidTracestateValue (value : Bytes) : Bool :=
  !value.isEmpty && value.length ≤ 256 && value.getLast? != some ' '.toUInt8 &&
    value.all fun byte => 0x20 ≤ byte && byte ≤ 0x7e && !(byte == comma || byte == equalsSign)

/-- The loop over the members, with the keys it has seen. -/
def acceptMembers (level : TraceContextLevel) : List Bytes → List Bytes → Bool
  | [], _ => true
  | member :: members, seen =>
    if member.isEmpty then acceptMembers level members seen
    else match splitOnce equalsSign member with
      | none => false
      | some (key, value) =>
        if value.contains equalsSign || !isValidTracestateKey key level ||
            !isValidTracestateValue value || seen.contains key then false
        else acceptMembers level members (key :: seen)

def parseTracestateWithLevel (values : List String) (level : TraceContextLevel) : Option String :=
  if values.isEmpty then none
  else
    let combined := joinWith comma (values.map asBytes)
    let members := (combined.splitOn comma).map (trim isEdgeBlank)
    if members.length > 32 then none
    else if acceptMembers level members [] then fromUtf8 (joinWith comma members)
    else none

/-! ## The grammar -/

/-- A tracestate key: at level 1 a simple key or a tenant and a system, at
level 2 a flat key that may hold at signs. -/
inductive TracestateKey : TraceContextLevel → Bytes → Prop where
  | simple (c : UInt8) (rest : Bytes) (first : isAsciiLowercase c = true)
      (length : rest.length ≤ 255) (chars : ∀ b ∈ rest, isKeyChar b = true) :
      TracestateKey .level1 (c :: rest)
  | multiTenant (t : UInt8) (tenant : Bytes) (s : UInt8) (system : Bytes)
      (first : isAsciiLowercase t = true ∨ isAsciiDigit t = true)
      (tenantLength : tenant.length ≤ 240) (tenantChars : ∀ b ∈ tenant, isKeyChar b = true)
      (systemFirst : isAsciiLowercase s = true) (systemLength : system.length ≤ 13)
      (systemChars : ∀ b ∈ system, isKeyChar b = true) :
      TracestateKey .level1 (t :: tenant ++ atSign :: s :: system)
  | flat (c : UInt8) (rest : Bytes) (first : isAsciiLowercase c = true ∨ isAsciiDigit c = true)
      (length : rest.length ≤ 255) (chars : ∀ b ∈ rest, isKeyChar b = true ∨ b = atSign) :
      TracestateKey .level2 (c :: rest)

structure TracestateValue (value : Bytes) : Prop where
  length : 1 ≤ value.length ∧ value.length ≤ 256
  chars : ∀ b ∈ value, 0x20 ≤ b ∧ b ≤ 0x7e ∧ b ≠ comma ∧ b ≠ equalsSign
  last : value.getLast? ≠ some ' '.toUInt8

/-- Trimmed members: at most 32, and all but the empty ones are entries with
distinct keys. -/
def TracestateMembers (level : TraceContextLevel) (members : List Bytes) : Prop :=
  members.length ≤ 32 ∧ ∃ entries : List (Bytes × Bytes),
    members.filter (fun m => !m.isEmpty) = entries.map (fun e => e.1 ++ equalsSign :: e.2) ∧
    (∀ e ∈ entries, TracestateKey level e.1 ∧ TracestateValue e.2) ∧
    (entries.map Prod.fst).Nodup

/-! ## Keys and values -/

theorem isKeyChar_of_isAsciiLowercase {b : UInt8} (h : isAsciiLowercase b = true) :
    isKeyChar b = true := by
  simp [isKeyChar, h]

theorem isKeyChar_of_first {b : UInt8}
    (h : isAsciiLowercase b = true ∨ isAsciiDigit b = true) : isKeyChar b = true := by
  rcases h with h | h <;> simp [isKeyChar, h]

theorem isKeyChar_spec : ∀ b : UInt8, isKeyChar b = true →
    b < 128 ∧ b ≠ atSign ∧ b ≠ equalsSign :=
  forall_byte (by decide +kernel)

/-- The first byte of a part and the rest of it. -/
theorem head_any_and_all {p q : UInt8 → Bool} {l : Bytes} :
    (l.head?.any p = true ∧ l.all q = true) ↔
      ∃ c rest, l = c :: rest ∧ p c = true ∧ q c = true ∧ ∀ b ∈ rest, q b = true := by
  cases l with
  | nil => simp
  | cons c rest => simp [List.all_eq_true]

theorem isValidLevelOneKey_simple {key : Bytes} (h : atSign ∉ key) :
    isValidLevelOneKey key = true ↔ ∃ c rest, key = c :: rest ∧ isAsciiLowercase c = true ∧
      ∀ b ∈ rest, isKeyChar b = true := by
  rw [isValidLevelOneKey, (splitOnce_eq_none_iff atSign key).mpr h, Bool.and_eq_true,
    head_any_and_all]
  refine exists₂_congr fun c rest => and_congr_right fun _ => and_congr_right fun hc => ?_
  exact and_iff_right (isKeyChar_of_isAsciiLowercase hc)

theorem isValidLevelOneKey_multiTenant {tenant system : Bytes} (h : atSign ∉ tenant) :
    isValidLevelOneKey (tenant ++ atSign :: system) = true ↔
      (∃ t rest, tenant = t :: rest ∧ (isAsciiLowercase t = true ∨ isAsciiDigit t = true) ∧
        rest.length ≤ 240 ∧ ∀ b ∈ rest, isKeyChar b = true) ∧
      ∃ s rest, system = s :: rest ∧ isAsciiLowercase s = true ∧ rest.length ≤ 13 ∧
        ∀ b ∈ rest, isKeyChar b = true := by
  rw [isValidLevelOneKey, splitOnce_append_cons atSign tenant system h]
  have hat : ∀ l : Bytes, (∀ b ∈ l, isKeyChar b = true) → atSign ∉ l := fun l hl hb =>
    (isKeyChar_spec _ (hl _ hb)).2.1 rfl
  cases tenant with
  | nil => simp
  | cons t ts =>
    cases system with
    | nil => simp
    | cons s ss =>
      simp only [List.isEmpty_cons, Bool.not_false, Bool.true_and, Bool.and_true, List.length_cons,
        List.head?_cons, Option.any_some, List.all_cons, Bool.and_eq_true, decide_eq_true_eq,
        Bool.or_eq_true, List.all_eq_true, List.contains_eq_mem, Bool.not_eq_true',
        decide_eq_false_iff_not, List.cons.injEq]
      constructor
      · rintro ⟨⟨⟨⟨⟨⟨hlen, ht⟩, -, hts⟩, hslen⟩, hs⟩, -, hss⟩, -⟩
        exact ⟨⟨t, ts, ⟨rfl, rfl⟩, ht, by omega, hts⟩, s, ss, ⟨rfl, rfl⟩, hs, by omega, hss⟩
      · rintro ⟨⟨_, _, ⟨rfl, rfl⟩, ht, hlen, hts⟩, _, _, ⟨rfl, rfl⟩, hs, hslen, hss⟩
        have hsc := isKeyChar_of_isAsciiLowercase hs
        exact ⟨⟨⟨⟨⟨⟨by omega, ht⟩, isKeyChar_of_first ht, hts⟩, by omega⟩, hs⟩, hsc, hss⟩,
          hat _ (List.forall_mem_cons.mpr ⟨hsc, hss⟩)⟩

/-- What the length and ASCII checks before the grammars ask for. -/
def KeyBounds (key : Bytes) : Prop :=
  key ≠ [] ∧ key.length ≤ 256 ∧ ∀ b ∈ key, b < 128

theorem isValidTracestateKey_eq_true_iff (key : Bytes) (level : TraceContextLevel) :
    isValidTracestateKey key level = true ↔ KeyBounds key ∧ match level with
      | .level1 => isValidLevelOneKey key = true
      | .level2 => (key.head?.any fun b => isAsciiLowercase b || isAsciiDigit b) = true ∧
          key.all isLevelTwoKeyChar = true := by
  have hb : (key.isEmpty || decide (key.length > 256) || !key.all (· < 128)) = false ↔
      KeyBounds key := by
    simp [KeyBounds, and_assoc]
  rw [← hb]
  unfold isValidTracestateKey
  cases key.isEmpty || decide (key.length > 256) || !key.all (· < 128) with
  | true => simp
  | false => cases level <;> simp

theorem isValidTracestateKey_levelOne_iff (key : Bytes) :
    isValidTracestateKey key .level1 = true ↔ TracestateKey .level1 key := by
  rw [isValidTracestateKey_eq_true_iff]
  have hascii : ∀ l : Bytes, (∀ b ∈ l, isKeyChar b = true) → ∀ b ∈ l, b < 128 := fun l hl b hb =>
    (isKeyChar_spec b (hl b hb)).1
  constructor
  · rintro ⟨⟨-, hlen, -⟩, hkey⟩
    by_cases hat : atSign ∈ key
    · obtain ⟨tenant, system, rfl, htenant⟩ := List.eq_append_cons_of_mem hat
      obtain ⟨⟨t, ts, rfl, ht, htlen, hts⟩, s, ss, rfl, hs, hslen, hss⟩ :=
        (isValidLevelOneKey_multiTenant htenant).mp hkey
      exact .multiTenant t ts s ss ht htlen hts hs hslen hss
    · obtain ⟨c, rest, rfl, hc, hrest⟩ := (isValidLevelOneKey_simple hat).mp hkey
      rw [List.length_cons] at hlen
      exact .simple c rest hc (by omega) hrest
  · rintro (⟨c, rest, hc, hlen, hrest⟩ | ⟨t, ts, s, ss, ht, htlen, hts, hs, hslen, hss⟩)
    · have hall : ∀ b ∈ c :: rest, isKeyChar b = true :=
        List.forall_mem_cons.mpr ⟨isKeyChar_of_isAsciiLowercase hc, hrest⟩
      have hat : atSign ∉ c :: rest := fun h => (isKeyChar_spec _ (hall _ h)).2.1 rfl
      exact ⟨⟨by simp, by rw [List.length_cons]; omega, hascii _ hall⟩,
        (isValidLevelOneKey_simple hat).mpr ⟨c, rest, rfl, hc, hrest⟩⟩
    · have htall : ∀ b ∈ t :: ts, isKeyChar b = true :=
        List.forall_mem_cons.mpr ⟨isKeyChar_of_first ht, hts⟩
      have hsall : ∀ b ∈ s :: ss, isKeyChar b = true :=
        List.forall_mem_cons.mpr ⟨isKeyChar_of_isAsciiLowercase hs, hss⟩
      have hat : atSign ∉ t :: ts := fun h => (isKeyChar_spec _ (htall _ h)).2.1 rfl
      refine ⟨⟨by simp, ?_, fun b hb => ?_⟩, (isValidLevelOneKey_multiTenant hat).mpr
        ⟨⟨t, ts, rfl, ht, htlen, hts⟩, s, ss, rfl, hs, hslen, hss⟩⟩
      · simp only [List.length_append, List.length_cons]
        omega
      · rcases List.mem_append.mp hb with hb | hb
        · exact hascii _ htall b hb
        · rcases List.mem_cons.mp hb with rfl | hb
          · decide
          · exact hascii _ hsall b hb

theorem isValidTracestateKey_levelTwo_iff (key : Bytes) :
    isValidTracestateKey key .level2 = true ↔ TracestateKey .level2 key := by
  have hchar : ∀ b, isLevelTwoKeyChar b = true ↔ isKeyChar b = true ∨ b = atSign := by
    simp [isLevelTwoKeyChar]
  have hascii : ∀ b, isLevelTwoKeyChar b = true → b < 128 := by
    intro b hb
    rcases (hchar b).mp hb with hb | rfl
    · exact (isKeyChar_spec b hb).1
    · decide
  rw [isValidTracestateKey_eq_true_iff]
  simp only [head_any_and_all]
  constructor
  · rintro ⟨⟨-, hlen, -⟩, c, rest, rfl, hc, -, hrest⟩
    rw [List.length_cons] at hlen
    exact .flat c rest (by simpa using hc) (by omega) fun b hb => (hchar b).mp (hrest b hb)
  · intro h
    cases h with
    | flat c rest hc hlen hrest =>
      have hc' : isLevelTwoKeyChar c = true := (hchar c).mpr (Or.inl (isKeyChar_of_first hc))
      have hrest' : ∀ b ∈ rest, isLevelTwoKeyChar b = true := fun b hb =>
        (hchar b).mpr (hrest b hb)
      have hall : ∀ b ∈ c :: rest, isLevelTwoKeyChar b = true :=
        List.forall_mem_cons.mpr ⟨hc', hrest'⟩
      exact ⟨⟨by simp, by rw [List.length_cons]; omega, fun b hb => hascii b (hall b hb)⟩,
        c, rest, rfl, by simpa using hc, hc', hrest'⟩

theorem isValidTracestateKey_iff (key : Bytes) (level : TraceContextLevel) :
    isValidTracestateKey key level = true ↔ TracestateKey level key := by
  cases level with
  | level1 => exact isValidTracestateKey_levelOne_iff key
  | level2 => exact isValidTracestateKey_levelTwo_iff key

theorem isValidTracestateValue_iff (value : Bytes) :
    isValidTracestateValue value = true ↔ TracestateValue value := by
  have hpos : (!value.isEmpty) = true ↔ 1 ≤ value.length := by
    cases value <;> simp
  simp only [isValidTracestateValue, Bool.and_eq_true, hpos, decide_eq_true_eq, bne_iff_ne,
    List.all_eq_true, Bool.not_eq_true', Bool.or_eq_false_iff, beq_eq_false_iff_ne]
  constructor
  · rintro ⟨⟨⟨h1, h2⟩, hlast⟩, hall⟩
    exact ⟨⟨h1, h2⟩, fun b hb => ⟨(hall b hb).1.1, (hall b hb).1.2, (hall b hb).2.1,
      (hall b hb).2.2⟩, hlast⟩
  · rintro ⟨⟨h1, h2⟩, hall, hlast⟩
    exact ⟨⟨⟨h1, h2⟩, hlast⟩, fun b hb => ⟨⟨(hall b hb).1, (hall b hb).2.1⟩, (hall b hb).2.2⟩⟩

/-! ## The member loop -/

theorem TracestateKey.not_mem_equalsSign {level : TraceContextLevel} {key : Bytes}
    (h : TracestateKey level key) : equalsSign ∉ key := by
  have hchars : ∀ l : Bytes, (∀ b ∈ l, isKeyChar b = true) → equalsSign ∉ l := fun l hl hb =>
    (isKeyChar_spec _ (hl _ hb)).2.2 rfl
  cases h with
  | simple c rest hc _ hrest =>
    exact hchars _ (List.forall_mem_cons.mpr ⟨isKeyChar_of_isAsciiLowercase hc, hrest⟩)
  | multiTenant t ts s ss ht _ hts hs _ hss =>
    have ht' := hchars _ (List.forall_mem_cons.mpr ⟨isKeyChar_of_first ht, hts⟩)
    have hs' := hchars _ (List.forall_mem_cons.mpr ⟨isKeyChar_of_isAsciiLowercase hs, hss⟩)
    intro hmem
    rcases List.mem_append.mp hmem with h | h
    · exact ht' h
    · rcases List.mem_cons.mp h with h | h
      · exact absurd h (by decide)
      · exact hs' h
  | flat c rest hc _ hrest =>
    intro hmem
    rcases List.mem_cons.mp hmem with rfl | h
    · exact (isKeyChar_spec _ (isKeyChar_of_first hc)).2.2 rfl
    · rcases hrest _ h with h | h
      · exact (isKeyChar_spec _ h).2.2 rfl
      · exact absurd h (by decide)

/-- The checks on one nonempty member. -/
theorem acceptMembers_cons {level : TraceContextLevel} {member : Bytes} (members seen : List Bytes)
    (hne : member ≠ []) : acceptMembers level (member :: members) seen = true ↔
      ∃ key value, member = key ++ equalsSign :: value ∧ TracestateKey level key ∧
        TracestateValue value ∧ key ∉ seen ∧ acceptMembers level members (key :: seen) = true := by
  have hempty : member.isEmpty = false := by simpa using hne
  rw [acceptMembers, hempty]
  cases hs : splitOnce equalsSign member with
  | none =>
    simp only [Bool.false_eq_true, ↓reduceIte, false_iff, not_exists, not_and]
    rintro key value rfl
    exact absurd (by simp) ((splitOnce_eq_none_iff _ _).mp hs)
  | some p =>
    obtain ⟨key, value⟩ := p
    obtain ⟨hmember, hkey⟩ := (splitOnce_eq_some_iff _ _ _ _).mp hs
    have hvalue : TracestateValue value → value.contains equalsSign = false := fun h => by
      simpa using fun hb => (h.chars _ hb).2.2.2 rfl
    simp only [Bool.false_eq_true, ↓reduceIte, Bool.or_eq_true, Bool.not_eq_true']
    constructor
    · intro h
      split at h
      · cases h
      · rename_i hchecks
        simp only [not_or, Bool.not_eq_false, isValidTracestateKey_iff, isValidTracestateValue_iff,
          List.contains_eq_mem, decide_eq_true_eq] at hchecks
        obtain ⟨⟨⟨-, hk⟩, hv⟩, hseen⟩ := hchecks
        exact ⟨key, value, hmember, hk, hv, hseen, h⟩
    · rintro ⟨key', value', hmember', hk, hv, hseen, hrest⟩
      have hsplit := splitOnce_append_cons equalsSign key' value' hk.not_mem_equalsSign
      rw [← hmember', hs] at hsplit
      obtain ⟨rfl, rfl⟩ := Prod.mk.inj (Option.some.inj hsplit)
      rw [if_neg]
      · exact hrest
      · simp only [not_or, Bool.not_eq_false, isValidTracestateKey_iff, isValidTracestateValue_iff,
          List.contains_eq_mem, decide_eq_true_eq]
        refine ⟨⟨⟨?_, hk⟩, hv⟩, hseen⟩
        simpa using hvalue hv

/-- **The member loop.**  By induction on the members: it accepts them when the
nonempty ones are entries whose keys are new and distinct. -/
theorem acceptMembers_iff (level : TraceContextLevel) (members seen : List Bytes) :
    acceptMembers level members seen = true ↔ ∃ entries : List (Bytes × Bytes),
      members.filter (fun m => !m.isEmpty) = entries.map (fun e => e.1 ++ equalsSign :: e.2) ∧
      (∀ e ∈ entries, TracestateKey level e.1 ∧ TracestateValue e.2) ∧
      (entries.map Prod.fst).Nodup ∧ ∀ e ∈ entries, e.1 ∉ seen := by
  induction members generalizing seen with
  | nil =>
    simp only [acceptMembers, List.filter_nil, true_iff]
    exact ⟨[], rfl, by simp, List.nodup_nil, by simp⟩
  | cons member members ih =>
    by_cases hne : member = []
    · subst hne
      simpa [acceptMembers] using ih seen
    · have hfilter : (member :: members).filter (fun m => !m.isEmpty) =
          member :: members.filter (fun m => !m.isEmpty) := by
        rw [List.filter_cons_of_pos (by simpa using hne)]
      rw [acceptMembers_cons members seen hne, hfilter]
      constructor
      · rintro ⟨key, value, rfl, hk, hv, hseen, hrest⟩
        obtain ⟨entries, hmap, hvalid, hnodup, hnew⟩ := (ih _).mp hrest
        refine ⟨(key, value) :: entries, by rw [hmap]; rfl,
          List.forall_mem_cons.mpr ⟨⟨hk, hv⟩, hvalid⟩, ?_, ?_⟩
        · refine List.nodup_cons.mpr ⟨fun hmem => ?_, hnodup⟩
          obtain ⟨e, he, rfl⟩ := List.mem_map.mp hmem
          exact hnew e he (by simp)
        · exact List.forall_mem_cons.mpr ⟨hseen, fun e he h => hnew e he (by simp [h])⟩
      · rintro ⟨entries, hmap, hvalid, hnodup, hnew⟩
        cases entries with
        | nil => cases hmap
        | cons e entries =>
          obtain ⟨hm, hmap⟩ := List.cons.inj hmap
          obtain ⟨he, hvalid⟩ := List.forall_mem_cons.mp hvalid
          obtain ⟨hefresh, hnew⟩ := List.forall_mem_cons.mp hnew
          obtain ⟨hkey, hnodup⟩ := List.nodup_cons.mp hnodup
          refine ⟨e.1, e.2, hm, he.1, he.2, hefresh, (ih _).mpr ⟨entries, hmap, hvalid, hnodup,
            fun e' he' h => ?_⟩⟩
          rcases List.mem_cons.mp h with h | h
          · exact hkey (List.mem_map.mpr ⟨e', he', h⟩)
          · exact hnew e' he' h

theorem acceptMembers_nil_iff (level : TraceContextLevel) (members : List Bytes) :
    acceptMembers level members [] = true ↔ ∃ entries : List (Bytes × Bytes),
      members.filter (fun m => !m.isEmpty) = entries.map (fun e => e.1 ++ equalsSign :: e.2) ∧
      (∀ e ∈ entries, TracestateKey level e.1 ∧ TracestateValue e.2) ∧
      (entries.map Prod.fst).Nodup := by
  rw [acceptMembers_iff]
  refine exists_congr fun entries => and_congr_right fun _ => and_congr_right fun _ => ?_
  exact and_iff_left fun e _ => List.not_mem_nil

/-! ## The whole header -/

/-- The members of header lines in wire order: split at commas and trimmed. -/
def wireMembers (lines : List Bytes) : List Bytes :=
  (lines.flatMap (List.splitOn comma)).map (trim isEdgeBlank)

theorem TracestateKey.ascii {level : TraceContextLevel} {key : Bytes}
    (h : TracestateKey level key) : ∀ b ∈ key, b < 128 :=
  ((isValidTracestateKey_eq_true_iff key level).mp
    ((isValidTracestateKey_iff key level).mpr h)).1.2.2

/-- Bytes of the grammar are ASCII. -/
theorem TracestateMembers.ascii {level : TraceContextLevel} {members : List Bytes}
    (h : TracestateMembers level members) : ∀ m ∈ members, ∀ b ∈ m, b < 128 := by
  obtain ⟨-, entries, hmap, hvalid, -⟩ := h
  intro m hm b hb
  have hm' : m ∈ members.filter (fun m => !m.isEmpty) :=
    List.mem_filter.mpr ⟨hm, by simpa using List.ne_nil_of_mem hb⟩
  rw [hmap] at hm'
  obtain ⟨e, he, rfl⟩ := List.mem_map.mp hm'
  rcases List.mem_append.mp hb with hb | hb
  · exact (hvalid e he).1.ascii b hb
  · rcases List.mem_cons.mp hb with rfl | hb
    · decide
    · exact UInt8.lt_of_le_of_lt ((hvalid e he).2.chars b hb).2.1 (by decide)

theorem TracestateMembers.joined_ascii {level : TraceContextLevel} {members : List Bytes}
    (h : TracestateMembers level members) : ∀ b ∈ joinWith comma members, b < 128 := by
  intro b hb
  rcases eq_or_mem_of_mem_joinWith hb with rfl | ⟨m, hm, hb⟩
  · decide
  · exact h.ascii m hm b hb

theorem parseTracestateWithLevel_iff (values : List String) (level : TraceContextLevel)
    (text : String) :
    parseTracestateWithLevel values level = some text ↔
      values ≠ [] ∧ TracestateMembers level (wireMembers (values.map asBytes)) ∧
        asBytes text = joinWith comma (wireMembers (values.map asBytes)) := by
  by_cases hne : values = []
  · subst hne
    simp [parseTracestateWithLevel]
  · have hempty : values.isEmpty = false := by simpa using hne
    have hsplit : ((joinWith comma (values.map asBytes)).splitOn comma).map (trim isEdgeBlank) =
        wireMembers (values.map asBytes) := by
      rw [splitOn_joinWith comma _ (by simpa using hne), wireMembers]
    simp only [parseTracestateWithLevel, hempty, hsplit]
    generalize wireMembers (values.map asBytes) = members
    rw [TracestateMembers, ← acceptMembers_nil_iff, if_neg (by simp)]
    by_cases hlen : members.length ≤ 32
    · rw [if_neg (by omega)]
      cases acceptMembers level members [] with
      | true => simp [hne, hlen, fromUtf8_eq_some_iff]
      | false => simp
    · simp [hlen, Nat.lt_of_not_le hlen]

end AxumObservability
