import AxumObservability.Library.FieldMap

/-!
# JSON values

JSON trees as a decoder returns them: numbers keep the class they were written
in, an object is the list of its members. The maps that programs read and
write are ordered maps (`Object`), turned into a tree and back by
`Object.toValue` and `Value.asObject`.

* `depth_toValue_le_iff`: how deep a tree nests its containers, as a bound on
  the values of its members;
* `asObject_mapNumbers`: rewriting the numbers of an object rewrites those of
  its members;
* `mapMembers_ofOptions`: rewriting the numbers of a record rewrites those of
  its present fields;
* `depth_mapNumbers`: it does not change how deep the tree nests.
-/

namespace Library.Json

open Std Library.FieldMap

/-! ## Numbers -/

def isNumberChar (c : Char) : Bool :=
  c.isDigit || c == '-' || c == '+' || c == '.' || c == 'e' || c == 'E'

/-- Decimal digits with no leading zero. -/
def isIntLiteral : List Char → Bool
  | [] => false
  | ['0'] => true
  | c :: cs => c != '0' && (c :: cs).all Char.isDigit

def isExponent : List Char → Bool
  | c :: '+' :: ds | c :: '-' :: ds => (c == 'e' || c == 'E') && !ds.isEmpty && ds.all Char.isDigit
  | c :: ds => (c == 'e' || c == 'E') && !ds.isEmpty && ds.all Char.isDigit
  | [] => false

/-- The part of a number after its integer digits, with a fraction, an exponent
or both. -/
def isFractional : List Char → Bool
  | '.' :: cs =>
    let digits := cs.takeWhile Char.isDigit
    let rest := cs.dropWhile Char.isDigit
    !digits.isEmpty && (rest.isEmpty || isExponent rest)
  | cs => isExponent cs

/-- A number literal that is not an integer literal. A negative zero is one:
it only exists as a float. -/
def isFloatLiteral (cs : List Char) : Bool :=
  let body := if cs.head? = some '-' then cs.tail else cs
  cs.all isNumberChar && (cs == ['-', '0'] ||
    isIntLiteral (body.takeWhile Char.isDigit) && isFractional (body.dropWhile Char.isDigit))

/-- A finite float, by the text it is written with. -/
structure FloatLiteral where
  chars : List Char
  wellFormed : isFloatLiteral chars = true
  deriving DecidableEq

/-- A number, by its class: a nonnegative integer, the negative integer
`-(n + 1)`, or a float. -/
inductive Number where
  | posInt (n : Nat)
  | negInt (n : Nat)
  | float (literal : FloatLiteral)
  deriving DecidableEq

/-- The integers that 64 bits hold. -/
def Number.fits : Number → Prop
  | .posInt n => n < 2 ^ 64
  | .negInt n => n < 2 ^ 63
  | .float _ => False

/-! ## Values -/

inductive Value where
  | null
  | bool (b : Bool)
  | number (n : Number)
  | string (s : String)
  | array (elements : List Value)
  | object (members : List (String × Value))

abbrev Object := ExtTreeMap String Value

def Object.toValue (o : Object) : Value := .object o.toList

def Value.isNull : Value → Bool
  | .null => true
  | _ => false

def Value.asStr : Value → Option String
  | .string s => some s
  | _ => none

/-- The members of an object; of two with one name the later counts. -/
def Value.asObject : Value → Option Object
  | .object members => some (ExtTreeMap.ofList members)
  | _ => none

/-! ## Nesting depth -/

mutual
/-- How many containers the deepest part of a value lies in. -/
def Value.depth : Value → Nat
  | .array elements => 1 + depthElements elements
  | .object members => 1 + depthMembers members
  | _ => 0

def depthElements : List Value → Nat
  | [] => 0
  | v :: vs => max v.depth (depthElements vs)

def depthMembers : List (String × Value) → Nat
  | [] => 0
  | (_, v) :: ms => max v.depth (depthMembers ms)
end

theorem depthMembers_le_iff (ms : List (String × Value)) (d : Nat) :
    depthMembers ms ≤ d ↔ ∀ k v, (k, v) ∈ ms → v.depth ≤ d := by
  induction ms with
  | nil => simp [depthMembers]
  | cons m ms ih =>
    obtain ⟨k, v⟩ := m
    rw [depthMembers, Nat.max_le, ih]
    constructor
    · rintro ⟨hv, hms⟩ k' v' h
      rcases List.mem_cons.mp h with e | h
      · cases e; exact hv
      · exact hms k' v' h
    · exact fun h => ⟨h k v (by simp), fun k' v' h' => h k' v' (List.mem_cons_of_mem _ h')⟩

theorem depth_toValue_le_iff (o : Object) (d : Nat) :
    o.toValue.depth ≤ d + 1 ↔ ∀ (k : String) (v : Value), o[k]? = some v → v.depth ≤ d := by
  rw [Object.toValue, Value.depth, Nat.add_comm, Nat.add_le_add_iff_right, depthMembers_le_iff]
  simp only [ExtTreeMap.mem_toList_iff_getElem?_eq_some]

/-- `n` arrays, one inside the other. -/
def nestedArray : Nat → Value
  | 0 => .null
  | n + 1 => .array [nestedArray n]

theorem depth_nestedArray (n : Nat) : (nestedArray n).depth = n := by
  induction n with
  | zero => rfl
  | succ n ih => simp [nestedArray, Value.depth, depthElements, ih, Nat.add_comm]

/-! ## Rewriting the numbers -/

mutual
/-- The same tree with every number rewritten. -/
def Value.mapNumbers (f : Number → Number) : Value → Value
  | .number n => .number (f n)
  | .array elements => .array (mapElements f elements)
  | .object members => .object (mapMembers f members)
  | .null => .null
  | .bool b => .bool b
  | .string s => .string s

def mapElements (f : Number → Number) : List Value → List Value
  | [] => []
  | v :: vs => v.mapNumbers f :: mapElements f vs

def mapMembers (f : Number → Number) : List (String × Value) → List (String × Value)
  | [] => []
  | (k, v) :: ms => (k, v.mapNumbers f) :: mapMembers f ms
end

theorem mapMembers_eq (f : Number → Number) (ms : List (String × Value)) :
    mapMembers f ms = ms.map fun m => (m.1, m.2.mapNumbers f) := by
  induction ms with
  | nil => rfl
  | cons m ms ih => rw [mapMembers, ih, List.map_cons]

theorem mapMembers_ofOptions (f : Number → Number) (fields : List (String × Option Value)) :
    mapMembers f (ofOptions fields) =
      ofOptions (fields.map fun m => (m.1, m.2.map (Value.mapNumbers f))) := by
  rw [mapMembers_eq]
  induction fields with
  | nil => rfl
  | cons m fields ih =>
    obtain ⟨k, o⟩ := m
    cases o with
    | none => simpa [ofOptions] using ih
    | some v => simpa [ofOptions] using ih

theorem isNull_mapNumbers (f : Number → Number) (v : Value) :
    (v.mapNumbers f).isNull = v.isNull := by
  cases v <;> rfl

/-- The map of an object whose numbers were rewritten. -/
theorem asObject_mapNumbers (f : Number → Number) (o : Object) (key : String) :
    ((o.toValue.mapNumbers f).asObject.bind fun fields => fields[key]?) =
      o[key]?.map (Value.mapNumbers f) := by
  have hn : ((o.toList.map fun m => (m.1, m.2.mapNumbers f)).map Prod.fst).Nodup := by
    rw [List.map_map]
    exact toList_nodup o
  rw [Object.toValue, Value.mapNumbers, mapMembers_eq, Value.asObject, Option.bind_some,
    getElem?_ofList hn, lookup_map, lookup_toList]

mutual
theorem mapNumbers_id : ∀ v : Value, v.mapNumbers id = v
  | .null => rfl
  | .bool _ => rfl
  | .number _ => rfl
  | .string _ => rfl
  | .array vs => by rw [Value.mapNumbers, mapElements_id vs]
  | .object ms => by rw [Value.mapNumbers, mapMembers_id ms]

theorem mapElements_id : ∀ vs : List Value, mapElements id vs = vs
  | [] => rfl
  | v :: vs => by rw [mapElements, mapNumbers_id v, mapElements_id vs]

theorem mapMembers_id : ∀ ms : List (String × Value), mapMembers id ms = ms
  | [] => rfl
  | (k, v) :: ms => by rw [mapMembers, mapNumbers_id v, mapMembers_id ms]
end

mutual
theorem depth_mapNumbers (f : Number → Number) : ∀ v : Value, (v.mapNumbers f).depth = v.depth
  | .null => rfl
  | .bool _ => rfl
  | .number _ => by simp [Value.mapNumbers, Value.depth]
  | .string _ => rfl
  | .array vs => by
    rw [Value.mapNumbers, Value.depth, Value.depth, depthElements_mapElements f vs]
  | .object ms => by
    rw [Value.mapNumbers, Value.depth, Value.depth, depthMembers_mapMembers f ms]

theorem depthElements_mapElements (f : Number → Number) :
    ∀ vs : List Value, depthElements (mapElements f vs) = depthElements vs
  | [] => rfl
  | v :: vs => by
    rw [mapElements, depthElements, depthElements, depth_mapNumbers f v,
      depthElements_mapElements f vs]

theorem depthMembers_mapMembers (f : Number → Number) :
    ∀ ms : List (String × Value), depthMembers (mapMembers f ms) = depthMembers ms
  | [] => rfl
  | (k, v) :: ms => by
    rw [mapMembers, depthMembers, depthMembers, depth_mapNumbers f v,
      depthMembers_mapMembers f ms]
end

/-! ## Values that may be absent -/

/-- The value, where there is one, nests no deeper than `d`. -/
def NestsWithin (d : Nat) (o : Option Value) : Prop := ∀ v ∈ o, v.depth ≤ d

theorem NestsWithin.none (d : Nat) : NestsWithin d none := nofun

theorem NestsWithin.some {d : Nat} {v : Value} (h : v.depth ≤ d) : NestsWithin d (some v) := by
  rintro _ ⟨⟩
  exact h

theorem NestsWithin.mono {d d' : Nat} {o : Option Value} (h : NestsWithin d o) (hd : d ≤ d') :
    NestsWithin d' o :=
  fun v hv => (h v hv).trans hd

theorem NestsWithin.or {d : Nat} {o o' : Option Value} (h : NestsWithin d o)
    (h' : NestsWithin d o') : NestsWithin d (o.or o') := by
  cases o with
  | none => exact h'
  | some v => exact h

theorem NestsWithin.map {d : Nat} {o : Option Value} (h : NestsWithin d o)
    (f : Number → Number) : NestsWithin d (o.map (Value.mapNumbers f)) := by
  rintro _ hv
  obtain ⟨v, rfl, rfl⟩ := Option.map_eq_some_iff.mp hv
  rw [depth_mapNumbers]
  exact h v rfl

/-- An object nests one deeper than its members. -/
theorem NestsWithin.toValue {d : Nat} {o : Object} (h : ∀ key : String, NestsWithin d o[key]?) :
    o.toValue.depth ≤ d + 1 :=
  (depth_toValue_le_iff o d).mpr fun key v hv => h key v hv

end Library.Json
