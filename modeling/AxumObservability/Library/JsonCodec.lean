import AxumObservability.Library.Json

/-!
# A JSON encoder, and a decoder with a recursion limit

The compact text of a JSON value, and a decoder for compact texts that refuses
a document whose containers nest too deep.

* `decode_encode`: the decoder returns the encoded value exactly when the value
  nests less than the limit, and refuses it otherwise;
* `encode_no_control`: an encoded text holds no control character, a line feed
  in particular.
-/

namespace Library.Json

/-! ## Encoding -/

def hexChar (d : Nat) : Char := Nat.digitChar d

/-- The short escape of a character, where it has one. -/
def shortEscape (c : Char) : Option Char :=
  if c = '"' then some '"'
  else if c = '\\' then some '\\'
  else if c = '\x08' then some 'b'
  else if c = '\x0c' then some 'f'
  else if c = '\n' then some 'n'
  else if c = '\r' then some 'r'
  else if c = '\t' then some 't'
  else none

def escapeChar (c : Char) : List Char :=
  match shortEscape c with
  | some e => ['\\', e]
  | none =>
    if c.toNat < 32 then ['\\', 'u', '0', '0', hexChar (c.toNat / 16), hexChar (c.toNat % 16)]
    else [c]

def encodeString (s : String) : List Char := '"' :: s.toList.flatMap escapeChar ++ ['"']

def Number.literal : Number → List Char
  | .posInt n => Nat.toDigits 10 n
  | .negInt n => '-' :: Nat.toDigits 10 (n + 1)
  | .float l => l.chars

mutual
def encodeValue : Value → List Char
  | .null => ['n', 'u', 'l', 'l']
  | .bool true => ['t', 'r', 'u', 'e']
  | .bool false => ['f', 'a', 'l', 's', 'e']
  | .number n => n.literal
  | .string s => encodeString s
  | .array [] => ['[', ']']
  | .array (v :: vs) => '[' :: encodeValue v ++ encodeElements vs
  | .object [] => ['{', '}']
  | .object ((k, v) :: ms) => '{' :: encodeString k ++ ':' :: encodeValue v ++ encodeMembers ms

/-- The elements after the first, and the closing bracket. -/
def encodeElements : List Value → List Char
  | [] => [']']
  | v :: vs => ',' :: encodeValue v ++ encodeElements vs

def encodeMembers : List (String × Value) → List Char
  | [] => ['}']
  | (k, v) :: ms => ',' :: encodeString k ++ ':' :: encodeValue v ++ encodeMembers ms
end

def encode (v : Value) : String := String.ofList (encodeValue v)

/-! ## Decoding -/

def hexValue (c : Char) : Option Nat :=
  if c.isDigit then some (c.toNat - 48)
  else if 'a' ≤ c ∧ c ≤ 'f' then some (c.toNat - 87)
  else if 'A' ≤ c ∧ c ≤ 'F' then some (c.toNat - 55)
  else none

def unescape (c : Char) : Option Char :=
  if c = '"' ∨ c = '\\' ∨ c = '/' then some c
  else if c = 'b' then some '\x08'
  else if c = 'f' then some '\x0c'
  else if c = 'n' then some '\n'
  else if c = 'r' then some '\r'
  else if c = 't' then some '\t'
  else none

def decodeUnicode (a b c d : Char) : Option Char := do
  let code := 4096 * (← hexValue a) + 256 * (← hexValue b) + 16 * (← hexValue c) + (← hexValue d)
  if code.isValidChar then some (Char.ofNat code) else none

/-- The characters of a string up to its closing quote, and the rest. -/
def decodeString : List Char → Option (List Char × List Char)
  | [] => none
  | '\\' :: 'u' :: a :: b :: c :: d :: cs => do
    let x ← decodeUnicode a b c d
    let (xs, rest) ← decodeString cs
    some (x :: xs, rest)
  | '\\' :: c :: cs => do
    let x ← unescape c
    let (xs, rest) ← decodeString cs
    some (x :: xs, rest)
  | c :: cs =>
    if c = '"' then some ([], cs)
    else if c = '\\' ∨ c.toNat < 32 then none
    else do
      let (xs, rest) ← decodeString cs
      some (c :: xs, rest)

def Number.ofLiteral (cs : List Char) : Option Number :=
  if h : isFloatLiteral cs = true then some (.float ⟨cs, h⟩)
  else if isIntLiteral cs then some (.posInt (Nat.ofDigitChars 10 cs 0))
  else match cs with
    | '-' :: ds =>
      if isIntLiteral ds then some (.negInt (Nat.ofDigitChars 10 ds 0 - 1)) else none
    | _ => none

/-- `decodeString` after the opening quote. -/
def decodeKey : List Char → Option (String × List Char)
  | '"' :: cs => (decodeString cs).map fun p => (String.ofList p.1, p.2)
  | _ => none

/-- Read a fixed text. -/
def expectText (text : List Char) (v : Value) (cs : List Char) : Option (Value × List Char) :=
  if text.isPrefixOf cs then some (v, cs.drop text.length) else none

mutual
/-- Decode one value, with at most `remaining - 1` containers around any part
of it. The fuel bounds the recursion. -/
def decodeValue : Nat → Nat → List Char → Option (Value × List Char)
  | 0, _, _ => none
  | _, _, [] => none
  | fuel + 1, remaining, c :: cs =>
    if c = 'n' then expectText ['n', 'u', 'l', 'l'] .null (c :: cs)
    else if c = 't' then expectText ['t', 'r', 'u', 'e'] (.bool true) (c :: cs)
    else if c = 'f' then expectText ['f', 'a', 'l', 's', 'e'] (.bool false) (c :: cs)
    else if c = '"' then (decodeString cs).map fun p => (.string (String.ofList p.1), p.2)
    else if c = '[' then
      if remaining ≤ 1 then none
      else if cs.head? = some ']' then some (.array [], cs.tail)
      else do
        let (v, cs) ← decodeValue fuel (remaining - 1) cs
        let (vs, cs) ← decodeElements fuel (remaining - 1) cs
        some (.array (v :: vs), cs)
    else if c = '{' then
      if remaining ≤ 1 then none
      else if cs.head? = some '}' then some (.object [], cs.tail)
      else do
        let (m, cs) ← decodeMember fuel (remaining - 1) cs
        let (ms, cs) ← decodeMembers fuel (remaining - 1) cs
        some (.object (m :: ms), cs)
    else do
      let n ← Number.ofLiteral ((c :: cs).takeWhile isNumberChar)
      some (.number n, (c :: cs).dropWhile isNumberChar)

def decodeElements : Nat → Nat → List Char → Option (List Value × List Char)
  | 0, _, _ => none
  | _, _, [] => none
  | fuel + 1, remaining, c :: cs =>
    if c = ']' then some ([], cs)
    else if c = ',' then do
      let (v, cs) ← decodeValue fuel remaining cs
      let (vs, cs) ← decodeElements fuel remaining cs
      some (v :: vs, cs)
    else none

def decodeMember : Nat → Nat → List Char → Option ((String × Value) × List Char)
  | 0, _, _ => none
  | fuel + 1, remaining, cs => do
    let (k, cs) ← decodeKey cs
    if cs.head? = some ':' then do
      let (v, cs) ← decodeValue fuel remaining cs.tail
      some ((k, v), cs)
    else none

def decodeMembers : Nat → Nat → List Char → Option (List (String × Value) × List Char)
  | 0, _, _ => none
  | _, _, [] => none
  | fuel + 1, remaining, c :: cs =>
    if c = '}' then some ([], cs)
    else if c = ',' then do
      let (m, cs) ← decodeMember fuel remaining cs
      let (ms, cs) ← decodeMembers fuel remaining cs
      some (m :: ms, cs)
    else none
end

/-- Decode a whole document under a recursion limit. -/
def decode (limit : Nat) (text : String) : Option Value :=
  match decodeValue text.toList.length limit text.toList with
  | some (v, []) => some v
  | _ => none

/-! ## Strings -/

theorem decodeString_plain {c : Char} (cs : List Char) (hq : c ≠ '"') (hb : c ≠ '\\')
    (h : ¬ c.toNat < 32) :
    decodeString (c :: cs) = (decodeString cs).map fun p => (c :: p.1, p.2) := by
  rw [decodeString]
  · simp only [hq, hb, h, or_self, ↓reduceIte]
    cases decodeString cs <;> rfl
  · rintro a b d e rest rfl; exact absurd rfl hb
  · rintro e rest rfl; exact absurd rfl hb

theorem decodeString_short {c e : Char} (cs : List Char) (hu : e ≠ 'u')
    (h : unescape e = some c) :
    decodeString ('\\' :: e :: cs) = (decodeString cs).map fun p => (c :: p.1, p.2) := by
  rw [decodeString]
  · rw [h]
    cases decodeString cs <;> rfl
  · rintro a b d f rest rfl; exact absurd rfl hu

theorem unescape_shortEscape {c e : Char} (h : shortEscape c = some e) :
    e ≠ 'u' ∧ unescape e = some c := by
  unfold shortEscape at h
  split_ifs at h with h1 h2 h3 h4 h5 h6 h7 <;> cases h <;> subst_vars <;> decide

theorem hexValue_hexChar : ∀ d < 16, hexValue (hexChar d) = some d := by decide

theorem decodeUnicode_hexChar (c : Char) (h : c.toNat < 32) :
    decodeUnicode '0' '0' (hexChar (c.toNat / 16)) (hexChar (c.toNat % 16)) = some c := by
  have h0 : hexValue '0' = some 0 := by decide
  have hcode : 4096 * 0 + 256 * 0 + 16 * (c.toNat / 16) + c.toNat % 16 = c.toNat := by omega
  have hvalid : c.toNat.isValidChar := Or.inl (by omega)
  simp only [decodeUnicode, h0, hexValue_hexChar _ (show c.toNat / 16 < 16 by omega),
    hexValue_hexChar _ (show c.toNat % 16 < 16 by omega), Option.bind_eq_bind, Option.bind_some,
    hcode, if_pos hvalid]
  rw [Char.ofNat_toNat]

theorem decodeString_escapeChar (c : Char) (cs : List Char) :
    decodeString (escapeChar c ++ cs) = (decodeString cs).map fun p => (c :: p.1, p.2) := by
  unfold escapeChar
  cases hs : shortEscape c with
  | some e =>
    obtain ⟨hu, he⟩ := unescape_shortEscape hs
    exact decodeString_short cs hu he
  | none =>
    by_cases hc : c.toNat < 32
    · simp only [hc, ↓reduceIte, List.cons_append, List.nil_append]
      rw [decodeString, decodeUnicode_hexChar c hc]
      cases decodeString cs <;> rfl
    · simp only [hc, ↓reduceIte, List.cons_append, List.nil_append]
      have hq : c ≠ '"' := by rintro rfl; exact absurd hs (by decide)
      have hb : c ≠ '\\' := by rintro rfl; exact absurd hs (by decide)
      exact decodeString_plain cs hq hb hc

theorem decodeString_escape (xs rest : List Char) :
    decodeString (xs.flatMap escapeChar ++ '"' :: rest) = some (xs, rest) := by
  induction xs with
  | nil =>
    simp only [List.flatMap_nil, List.nil_append]
    rw [decodeString]
    · rfl
    all_goals simp
  | cons x xs ih => rw [List.flatMap_cons, List.append_assoc, decodeString_escapeChar, ih]; rfl

theorem decodeKey_encodeString (s : String) (rest : List Char) :
    decodeKey (encodeString s ++ rest) = some (s, rest) := by
  simp [encodeString, decodeKey, decodeString_escape]

/-! ## Numbers -/

theorem isDigit_isNumberChar {c : Char} (h : c.isDigit = true) : isNumberChar c = true := by
  simp [isNumberChar, h]

theorem toDigits_isDigit (n : Nat) : ∀ c ∈ Nat.toDigits 10 n, c.isDigit = true :=
  fun _ => Nat.isDigit_of_mem_toDigits (by decide) (by decide)

theorem toDigits_head_ne_zero (n : Nat) (h : 0 < n) : (Nat.toDigits 10 n).head? ≠ some '0' := by
  induction n using Nat.strongRecOn with
  | _ n ih =>
    by_cases hn : n < 10
    · rw [Nat.toDigits_of_lt_base hn]
      have : ∀ d < 10, 0 < d → Nat.digitChar d ≠ '0' := by decide
      simpa using this n hn h
    · rw [Nat.toDigits_of_base_le (by decide) (by omega), List.head?_append_of_ne_nil _
        Nat.toDigits_ne_nil]
      exact ih (n / 10) (by omega) (by omega)

theorem isIntLiteral_toDigits (n : Nat) : isIntLiteral (Nat.toDigits 10 n) = true := by
  by_cases hn : n = 0
  · subst hn; rfl
  · have hz := toDigits_head_ne_zero n (by omega)
    have hd := toDigits_isDigit n
    cases ht : Nat.toDigits 10 n with
    | nil => exact absurd ht Nat.toDigits_ne_nil
    | cons c cs =>
      rw [ht] at hz hd
      have hc : c ≠ '0' := by simpa using hz
      rw [isIntLiteral]
      · simpa [hc] using hd
      · rintro rfl; exact absurd rfl hc

/-- Digits alone, with or without a sign, are not a float literal. -/
theorem isFractional_dropWhile_digits {ds : List Char} (h : ∀ c ∈ ds, c.isDigit = true) :
    isFractional (ds.dropWhile Char.isDigit) = false := by
  rw [List.dropWhile_eq_nil_iff.mpr h]
  rfl

theorem ofLiteral_posInt (n : Nat) : Number.ofLiteral (Nat.toDigits 10 n) = some (.posInt n) := by
  have hd := toDigits_isDigit n
  have hf : isFloatLiteral (Nat.toDigits 10 n) = false := by
    have hhead : (Nat.toDigits 10 n).head? ≠ some '-' := fun h =>
      absurd (hd '-' (List.mem_of_mem_head? h)) (by decide)
    have hne : (Nat.toDigits 10 n == ['-', '0']) = false := by
      refine beq_eq_false_iff_ne.mpr fun e => hhead (by rw [e]; rfl)
    simp only [isFloatLiteral, hhead, ↓reduceIte, hne, isFractional_dropWhile_digits hd,
      Bool.and_false, Bool.or_self]
  simp [Number.ofLiteral, hf, isIntLiteral_toDigits, Nat.ofDigitChars_ten_toDigits]

theorem ofLiteral_negInt (n : Nat) :
    Number.ofLiteral ('-' :: Nat.toDigits 10 (n + 1)) = some (.negInt n) := by
  have hd := toDigits_isDigit (n + 1)
  have hne : ('-' :: Nat.toDigits 10 (n + 1) == ['-', '0']) = false := by
    refine beq_eq_false_iff_ne.mpr fun e => toDigits_head_ne_zero (n + 1) (by omega) ?_
    rw [List.cons_inj_right] at e
    rw [e]; rfl
  have hf : isFloatLiteral ('-' :: Nat.toDigits 10 (n + 1)) = false := by
    simp only [isFloatLiteral, List.head?_cons, ↓reduceIte, List.tail_cons, hne,
      isFractional_dropWhile_digits hd, Bool.and_false, Bool.or_self]
  have hi : isIntLiteral ('-' :: Nat.toDigits 10 (n + 1)) = false := by
    rw [isIntLiteral]
    · rfl
    · rintro ⟨⟩
  simp [Number.ofLiteral, hf, hi, isIntLiteral_toDigits, Nat.ofDigitChars_ten_toDigits]

theorem ofLiteral_literal (n : Number) : Number.ofLiteral n.literal = some n := by
  cases n with
  | posInt n => exact ofLiteral_posInt n
  | negInt n => exact ofLiteral_negInt n
  | float l => simp [Number.ofLiteral, Number.literal, l.wellFormed]

theorem literal_isNumberChar (n : Number) : ∀ c ∈ n.literal, isNumberChar c = true := by
  intro c hc
  cases n with
  | posInt n => exact isDigit_isNumberChar (toDigits_isDigit n c hc)
  | negInt n =>
    rcases List.mem_cons.mp hc with rfl | hc
    · rfl
    · exact isDigit_isNumberChar (toDigits_isDigit _ c hc)
  | float l =>
    have h := l.wellFormed
    rw [isFloatLiteral, Bool.and_eq_true] at h
    exact List.all_eq_true.mp h.1 c hc

theorem literal_ne_nil (n : Number) : n.literal ≠ [] := by
  intro h
  have hn := ofLiteral_literal n
  rw [h] at hn
  exact absurd hn (by simp [Number.ofLiteral, isFloatLiteral, isIntLiteral, isFractional,
    isExponent])

/-- What follows a value never continues a number. -/
def NoNumberHead (rest : List Char) : Prop := ∀ c ∈ rest.head?, isNumberChar c = false

theorem takeWhile_literal (n : Number) {rest : List Char} (h : NoNumberHead rest) :
    (n.literal ++ rest).takeWhile isNumberChar = n.literal ∧
      (n.literal ++ rest).dropWhile isNumberChar = rest := by
  have hn := literal_isNumberChar n
  rw [List.takeWhile_append_of_pos hn, List.dropWhile_append_of_pos hn]
  cases rest with
  | nil => simp
  | cons c cs => simp [h c (by simp)]

/-! ## Round trip -/

mutual
/-- Decoder calls one inside the other that reading back a value takes. -/
def fuelFor : Value → Nat
  | .array (v :: vs) => 1 + fuelFor v + fuelForElements vs
  | .object ((_, v) :: ms) => 2 + fuelFor v + fuelForMembers ms
  | _ => 1

def fuelForElements : List Value → Nat
  | [] => 1
  | v :: vs => 1 + fuelFor v + fuelForElements vs

def fuelForMembers : List (String × Value) → Nat
  | [] => 1
  | (_, v) :: ms => 2 + fuelFor v + fuelForMembers ms
end

theorem fuelFor_pos (v : Value) : 0 < fuelFor v := by
  cases v with
  | array vs =>
    cases vs with
    | nil => simp [fuelFor]
    | cons v vs => simp only [fuelFor]; omega
  | object ms =>
    cases ms with
    | nil => simp [fuelFor]
    | cons m ms => simp only [fuelFor]; omega
  | _ => simp [fuelFor]

theorem encodeValue_cons (v : Value) :
    ∃ c cs, encodeValue v = c :: cs ∧ c ≠ ']' := by
  cases v with
  | null => exact ⟨_, _, rfl, by decide⟩
  | bool b => cases b <;> exact ⟨_, _, rfl, by decide⟩
  | number n =>
    obtain ⟨c, cs, h⟩ := List.exists_cons_of_ne_nil (literal_ne_nil n)
    refine ⟨c, cs, h, ?_⟩
    have hc := literal_isNumberChar n c (by rw [h]; simp)
    rintro rfl
    exact absurd hc (by decide)
  | string s => exact ⟨_, _, rfl, by decide⟩
  | array vs => cases vs <;> exact ⟨_, _, rfl, by decide⟩
  | object ms => cases ms <;> exact ⟨_, _, rfl, by decide⟩

theorem encodeElements_noNumberHead (vs : List Value) (rest : List Char) :
    NoNumberHead (encodeElements vs ++ rest) := by
  cases vs <;> simp [encodeElements, NoNumberHead, isNumberChar]

theorem encodeMembers_noNumberHead (ms : List (String × Value)) (rest : List Char) :
    NoNumberHead (encodeMembers ms ++ rest) := by
  cases ms <;> simp [encodeMembers, NoNumberHead, isNumberChar]

theorem decodeValue_number (fuel remaining : Nat) (n : Number) {rest : List Char}
    (h : NoNumberHead rest) :
    decodeValue (fuel + 1) remaining (n.literal ++ rest) = some (.number n, rest) := by
  obtain ⟨ht, hd⟩ := takeWhile_literal n h
  obtain ⟨c, cs, hl⟩ := List.exists_cons_of_ne_nil (literal_ne_nil n)
  have hc := literal_isNumberChar n c (by rw [hl]; simp)
  have hsep : ∀ x : Char, isNumberChar x = false → c ≠ x := by
    rintro x hx rfl
    rw [hc] at hx
    cases hx
  rw [hl, List.cons_append] at ht hd ⊢
  simp only [decodeValue, hsep 'n' (by decide), hsep 't' (by decide), hsep 'f' (by decide),
    hsep '"' (by decide), hsep '[' (by decide), hsep '\x7b' (by decide), ↓reduceIte, ht, hd]
  rw [← hl, ofLiteral_literal]
  rfl

theorem decodeMember_encode (fuel remaining : Nat) (k : String) (v : Value) (rest : List Char)
    (hv : decodeValue fuel remaining (encodeValue v ++ rest) =
      if v.depth < remaining then some (v, rest) else none) :
    decodeMember (fuel + 1) remaining (encodeString k ++ ':' :: encodeValue v ++ rest) =
      if v.depth < remaining then some ((k, v), rest) else none := by
  rw [decodeMember, List.append_assoc, decodeKey_encodeString]
  simp only [Option.bind_eq_bind, Option.bind_some, List.cons_append, List.head?_cons, ↓reduceIte,
    List.tail_cons, hv]
  split <;> rfl

mutual
/-- **Decoding inverts encoding below the limit.**  By recursion on the value:
the decoder succeeds on a container exactly when it succeeds on every part. -/
theorem decodeValue_encode : ∀ (v : Value) (fuel remaining : Nat) (rest : List Char),
    fuelFor v ≤ fuel → 0 < remaining → NoNumberHead rest →
      decodeValue fuel remaining (encodeValue v ++ rest) =
        if v.depth < remaining then some (v, rest) else none
  | v, 0, _, _, h, _, _ => absurd (fuelFor_pos v) (by omega)
  | .null, fuel + 1, remaining, rest, _, hr, _ => by
    simp [encodeValue, decodeValue, expectText, Value.depth, hr]
  | .bool true, fuel + 1, remaining, rest, _, hr, _ => by
    simp [encodeValue, decodeValue, expectText, Value.depth, hr]
  | .bool false, fuel + 1, remaining, rest, _, hr, _ => by
    simp [encodeValue, decodeValue, expectText, Value.depth, hr]
  | .number n, fuel + 1, remaining, rest, _, hr, hrest => by
    rw [encodeValue, decodeValue_number fuel remaining n hrest, if_pos (by simpa [Value.depth])]
  | .string s, fuel + 1, remaining, rest, _, hr, _ => by
    simp [encodeValue, encodeString, decodeValue, decodeString_escape, Value.depth, hr]
  | .array [], fuel + 1, remaining, rest, _, hr, _ => by
    simp only [encodeValue, decodeValue, List.cons_append, List.nil_append, Char.reduceEq,
      ↓reduceIte, List.head?_cons, List.tail_cons]
    by_cases hlimit : remaining ≤ 1
    · rw [if_pos hlimit, if_neg (by simp only [Value.depth, depthElements]; omega)]
    · rw [if_neg hlimit, if_pos (by simp only [Value.depth, depthElements]; omega)]
  | .array (v :: vs), fuel + 1, remaining, rest, h, hr, _ => by
    simp only [fuelFor] at h
    obtain ⟨c, cs, hc, hne⟩ := encodeValue_cons v
    have hhead : (encodeValue v ++ (encodeElements vs ++ rest)).head? ≠ some ']' := by
      rw [hc]; simpa using hne
    simp only [encodeValue, decodeValue, List.cons_append, List.append_assoc, Char.reduceEq,
      ↓reduceIte, hhead]
    have hdepth : (Value.array (v :: vs)).depth = 1 + max v.depth (depthElements vs) := by
      simp only [Value.depth, depthElements]
    by_cases hlimit : remaining ≤ 1
    · rw [if_pos hlimit, if_neg (by omega)]
    · rw [if_neg hlimit, decodeValue_encode v fuel (remaining - 1) _ (by omega) (by omega)
        (encodeElements_noNumberHead vs rest)]
      by_cases hv : v.depth < remaining - 1
      · rw [if_pos hv]
        simp only [Option.bind_eq_bind, Option.bind_some]
        rw [decodeElements_encode vs fuel (remaining - 1) rest (by omega) (by omega)]
        by_cases hvs : depthElements vs < remaining - 1
        · rw [if_pos hvs, if_pos (by omega)]; rfl
        · rw [if_neg hvs, if_neg (by omega)]; rfl
      · rw [if_neg hv, if_neg (by omega)]; rfl
  | .object [], fuel + 1, remaining, rest, _, hr, _ => by
    simp only [encodeValue, decodeValue, List.cons_append, List.nil_append, Char.reduceEq,
      ↓reduceIte, List.head?_cons, List.tail_cons]
    by_cases hlimit : remaining ≤ 1
    · rw [if_pos hlimit, if_neg (by simp only [Value.depth, depthMembers]; omega)]
    · rw [if_neg hlimit, if_pos (by simp only [Value.depth, depthMembers]; omega)]
  | .object ((k, v) :: ms), fuel + 1, remaining, rest, h, hr, _ => by
    simp only [fuelFor] at h
    obtain ⟨fuel, rfl⟩ : ∃ f, fuel = f + 1 := ⟨fuel - 1, by omega⟩
    have hhead : (encodeString k ++ ':' :: encodeValue v ++
        (encodeMembers ms ++ rest)).head? ≠ some '\x7d' := by
      simp [encodeString]
    have hm := decodeMember_encode fuel (remaining - 1) k v (encodeMembers ms ++ rest)
    have happ : encodeValue (.object ((k, v) :: ms)) ++ rest =
        '\x7b' :: (encodeString k ++ ':' :: encodeValue v ++ (encodeMembers ms ++ rest)) := by
      simp [encodeValue]
    rw [happ]
    simp only [decodeValue, Char.reduceEq, ↓reduceIte, hhead]
    have hdepth : (Value.object ((k, v) :: ms)).depth = 1 + max v.depth (depthMembers ms) := by
      simp only [Value.depth, depthMembers]
    by_cases hlimit : remaining ≤ 1
    · rw [if_pos hlimit, if_neg (by omega)]
    · rw [if_neg hlimit, hm (decodeValue_encode v fuel (remaining - 1) _ (by omega) (by omega)
        (encodeMembers_noNumberHead ms rest))]
      by_cases hv : v.depth < remaining - 1
      · rw [if_pos hv]
        simp only [Option.bind_eq_bind, Option.bind_some]
        rw [decodeMembers_encode ms (fuel + 1) (remaining - 1) rest (by omega) (by omega)]
        by_cases hms : depthMembers ms < remaining - 1
        · rw [if_pos hms, if_pos (by omega)]; rfl
        · rw [if_neg hms, if_neg (by omega)]; rfl
      · rw [if_neg hv, if_neg (by omega)]; rfl

theorem decodeElements_encode : ∀ (vs : List Value) (fuel remaining : Nat) (rest : List Char),
    fuelForElements vs ≤ fuel → 0 < remaining →
      decodeElements fuel remaining (encodeElements vs ++ rest) =
        if depthElements vs < remaining then some (vs, rest) else none
  | vs, 0, _, _, h, _ => by
    cases vs <;> simp [fuelForElements] at h
  | [], fuel + 1, remaining, rest, _, hr => by
    simp [encodeElements, decodeElements, depthElements, hr]
  | v :: vs, fuel + 1, remaining, rest, h, hr => by
    simp only [fuelForElements] at h
    simp only [encodeElements, decodeElements, List.cons_append, List.append_assoc,
      Char.reduceEq, ↓reduceIte]
    have hdepth : depthElements (v :: vs) = max v.depth (depthElements vs) := by
      simp only [depthElements]
    rw [decodeValue_encode v fuel remaining _ (by omega) hr (encodeElements_noNumberHead vs rest)]
    by_cases hv : v.depth < remaining
    · rw [if_pos hv]
      simp only [Option.bind_eq_bind, Option.bind_some]
      rw [decodeElements_encode vs fuel remaining rest (by omega) hr]
      by_cases hvs : depthElements vs < remaining
      · rw [if_pos hvs, if_pos (by omega)]; rfl
      · rw [if_neg hvs, if_neg (by omega)]; rfl
    · rw [if_neg hv, if_neg (by omega)]; rfl

theorem decodeMembers_encode : ∀ (ms : List (String × Value)) (fuel remaining : Nat)
    (rest : List Char), fuelForMembers ms ≤ fuel → 0 < remaining →
      decodeMembers fuel remaining (encodeMembers ms ++ rest) =
        if depthMembers ms < remaining then some (ms, rest) else none
  | ms, 0, _, _, h, _ => by
    cases ms <;> simp [fuelForMembers] at h
  | [], fuel + 1, remaining, rest, _, hr => by
    simp [encodeMembers, decodeMembers, depthMembers, hr]
  | (k, v) :: ms, fuel + 1, remaining, rest, h, hr => by
    simp only [fuelForMembers] at h
    obtain ⟨fuel, rfl⟩ : ∃ f, fuel = f + 1 := ⟨fuel - 1, by omega⟩
    have hm := decodeMember_encode fuel remaining k v (encodeMembers ms ++ rest)
    have happ : encodeMembers ((k, v) :: ms) ++ rest =
        ',' :: (encodeString k ++ ':' :: encodeValue v ++ (encodeMembers ms ++ rest)) := by
      simp [encodeMembers]
    rw [happ]
    simp only [decodeMembers, Char.reduceEq, ↓reduceIte]
    have hdepth : depthMembers ((k, v) :: ms) = max v.depth (depthMembers ms) := by
      simp only [depthMembers]
    rw [hm (decodeValue_encode v fuel remaining _ (by omega) hr
      (encodeMembers_noNumberHead ms rest))]
    by_cases hv : v.depth < remaining
    · rw [if_pos hv]
      simp only [Option.bind_eq_bind, Option.bind_some]
      rw [decodeMembers_encode ms (fuel + 1) remaining rest (by omega) hr]
      by_cases hms : depthMembers ms < remaining
      · rw [if_pos hms, if_pos (by omega)]; rfl
      · rw [if_neg hms, if_neg (by omega)]; rfl
    · rw [if_neg hv, if_neg (by omega)]; rfl
end

mutual
theorem fuelFor_le_length : ∀ v : Value, fuelFor v ≤ (encodeValue v).length
  | .null | .bool true | .bool false => by simp [fuelFor, encodeValue]
  | .number n => by
    have := List.length_pos_of_ne_nil (literal_ne_nil n)
    simp only [fuelFor, encodeValue]
    omega
  | .string s => by simp [fuelFor, encodeValue, encodeString]
  | .array [] | .object [] => by simp [fuelFor, encodeValue]
  | .array (v :: vs) => by
    have := fuelFor_le_length v
    have := fuelForElements_le_length vs
    simp only [fuelFor, encodeValue, List.length_cons, List.length_append]
    omega
  | .object ((k, v) :: ms) => by
    have := fuelFor_le_length v
    have := fuelForMembers_le_length ms
    simp only [fuelFor, encodeValue, List.length_cons, List.length_append]
    omega

theorem fuelForElements_le_length :
    ∀ vs : List Value, fuelForElements vs ≤ (encodeElements vs).length
  | [] => by simp [fuelForElements, encodeElements]
  | v :: vs => by
    have := fuelFor_le_length v
    have := fuelForElements_le_length vs
    simp only [fuelForElements, encodeElements, List.length_cons, List.length_append]
    omega

theorem fuelForMembers_le_length :
    ∀ ms : List (String × Value), fuelForMembers ms ≤ (encodeMembers ms).length
  | [] => by simp [fuelForMembers, encodeMembers]
  | (k, v) :: ms => by
    have := fuelFor_le_length v
    have := fuelForMembers_le_length ms
    simp only [fuelForMembers, encodeMembers, List.length_cons, List.length_append]
    omega
end

/-- **The hop.**  A document comes back exactly when it nests below the limit,
and is refused otherwise. -/
theorem decode_encode (limit : Nat) (hl : 0 < limit) (v : Value) :
    decode limit (encode v) = if v.depth < limit then some v else none := by
  have h := decodeValue_encode v (encodeValue v).length limit [] (fuelFor_le_length v) hl
    (by simp [NoNumberHead])
  rw [List.append_nil] at h
  rw [decode, encode, String.toList_ofList, h]
  by_cases hv : v.depth < limit
  · simp only [if_pos hv]
  · simp only [if_neg hv]

/-! ## Encoded texts are single lines -/

/-- No character below the space. -/
def NoControl (cs : List Char) : Prop := ∀ c ∈ cs, 32 ≤ c.toNat

theorem noControl_append {xs ys : List Char} (hx : NoControl xs) (hy : NoControl ys) :
    NoControl (xs ++ ys) := fun c hc =>
  (List.mem_append.mp hc).elim (hx c) (hy c)

theorem noControl_cons {x : Char} {xs : List Char} (hx : 32 ≤ x.toNat) (hxs : NoControl xs) :
    NoControl (x :: xs) := fun c hc => by
  rcases List.mem_cons.mp hc with rfl | hc
  · exact hx
  · exact hxs c hc

theorem hexChar_noControl : ∀ d < 16, 32 ≤ (hexChar d).toNat := by decide

theorem shortEscape_noControl {c e : Char} (h : shortEscape c = some e) : 32 ≤ e.toNat := by
  unfold shortEscape at h
  split_ifs at h <;> cases h <;> decide

theorem escapeChar_noControl (c : Char) : NoControl (escapeChar c) := by
  unfold escapeChar
  cases hs : shortEscape c with
  | some e =>
    intro x hx
    rcases List.mem_pair.mp hx with rfl | rfl
    · decide
    · exact shortEscape_noControl hs
  | none =>
    by_cases hc : c.toNat < 32
    · have h1 := hexChar_noControl (c.toNat / 16) (by omega)
      have h2 := hexChar_noControl (c.toNat % 16) (by omega)
      intro x hx
      simp only [hc, ↓reduceIte, List.mem_cons, List.not_mem_nil, or_false] at hx
      rcases hx with rfl | rfl | rfl | rfl | rfl | rfl <;> first | assumption | decide
    · intro x hx
      simp only [hc, ↓reduceIte, List.mem_singleton] at hx
      subst hx
      omega

theorem encodeString_noControl (s : String) : NoControl (encodeString s) := by
  refine noControl_append (noControl_cons (by decide) fun x hx => ?_)
    (noControl_cons (by decide) ?_)
  · obtain ⟨c, _, hc⟩ := List.mem_flatMap.mp hx
    exact escapeChar_noControl c x hc
  · exact fun x hx => absurd hx List.not_mem_nil

theorem isNumberChar_noControl {c : Char} (h : isNumberChar c = true) : 32 ≤ c.toNat := by
  simp only [isNumberChar, Char.isDigit, Bool.or_eq_true, Bool.and_eq_true, decide_eq_true_eq,
    beq_iff_eq] at h
  rcases h with ((((⟨h, -⟩ | rfl) | rfl) | rfl) | rfl) | rfl
  · exact le_trans (by decide) h
  all_goals decide

mutual
/-- **An encoded text holds no control character.**  In particular no line
feed, so a text followed by one is one line. -/
theorem encodeValue_noControl : ∀ v : Value, NoControl (encodeValue v)
  | .null | .bool true | .bool false => by simp [NoControl, encodeValue]
  | .number n => fun c hc => isNumberChar_noControl (literal_isNumberChar n c hc)
  | .string s => encodeString_noControl s
  | .array [] | .object [] => by simp [NoControl, encodeValue]
  | .array (v :: vs) =>
    noControl_cons (by decide) (noControl_append (encodeValue_noControl v)
      (encodeElements_noControl vs))
  | .object ((k, v) :: ms) => by
    rw [encodeValue]
    exact noControl_append (noControl_append (noControl_cons (by decide) (encodeString_noControl k))
      (noControl_cons (by decide) (encodeValue_noControl v))) (encodeMembers_noControl ms)

theorem encodeElements_noControl : ∀ vs : List Value, NoControl (encodeElements vs)
  | [] => by simp [NoControl, encodeElements]
  | v :: vs =>
    noControl_cons (by decide) (noControl_append (encodeValue_noControl v)
      (encodeElements_noControl vs))

theorem encodeMembers_noControl : ∀ ms : List (String × Value), NoControl (encodeMembers ms)
  | [] => by simp [NoControl, encodeMembers]
  | (k, v) :: ms => by
    rw [encodeMembers]
    exact noControl_append (noControl_append (noControl_cons (by decide) (encodeString_noControl k))
      (noControl_cons (by decide) (encodeValue_noControl v))) (encodeMembers_noControl ms)
end

theorem encode_no_control (v : Value) : ∀ c ∈ (encode v).toList, 32 ≤ c.toNat := by
  rw [encode, String.toList_ofList]
  exact encodeValue_noControl v

end Library.Json
