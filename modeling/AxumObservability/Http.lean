import AxumObservability.Context

/-!
# Requests, responses and header maps

The parts of an HTTP exchange the middleware reads or writes. Header maps and
header values belong to another package: `Headers` lists the operations used of
them and their documented laws, and `HeaderList` is a map that obeys these.

* `fromStr_requestId`: every request identifier converts to a header value with
  its own bytes.
-/

namespace AxumObservability

open Library.Panics Library.Text

/-! ## Header maps -/

/-- A header name in its canonical lowercase form. -/
abbrev HeaderName := String

def isVisibleAscii (byte : UInt8) : Bool := byte ≥ 0x20 && byte < 0x7f || byte == '\t'.toUInt8

/-- Header maps `M` over header values `V`, with the laws the middleware relies
on. -/
class Headers (M : Type) (V : outParam Type) where
  getAll : M → HeaderName → List V
  insert : M → HeaderName → V → M
  valueBytes : V → Bytes
  fromStr : String → Option V
  toStr : V → Option String
  getAll_insert : ∀ (m : M) (name other : HeaderName) (value : V),
    getAll (insert m name value) other = if other = name then [value] else getAll m other
  valueBytes_field : ∀ (value : V), ∀ b ∈ valueBytes value, isFieldByte b = true
  fromStr_of_field : ∀ s : String, (∀ b ∈ asBytes s, isFieldByte b = true) →
    ∃ value, fromStr s = some value ∧ valueBytes value = asBytes s
  toStr_eq : ∀ value : V, toStr value =
    if (valueBytes value).all isVisibleAscii then fromUtf8 (valueBytes value) else none

section

variable {M V : Type} [Headers M V]

/-- Field content is a header value of the same bytes. -/
theorem FieldContent.fromStr (M : Type) {V : Type} [Headers M V] {value : String}
    (h : FieldContent value) : ∃ headerValue : V, Headers.fromStr M value = some headerValue ∧
      Headers.valueBytes M headerValue = asBytes value :=
  Headers.fromStr_of_field value fun b hb => (isFieldByte_iff b).mpr (h.bytes b hb)

/-- **No identifier is refused as a header value.** -/
theorem fromStr_requestId (M : Type) {V : Type} [Headers M V] (id : RequestId) :
    ∃ value : V, Headers.fromStr M id.asStr = some value ∧
      Headers.valueBytes M value = asBytes id.asStr :=
  id.fieldContent.fromStr M

theorem expect_fromStr_requestId (M : Type) {V : Type} [Headers M V] (id : RequestId) :
    ∃ value : V, expect (Headers.fromStr M id.asStr)
        "validated request ID is always a header value" = .ok value ∧
      Headers.valueBytes M value = asBytes id.asStr := by
  obtain ⟨value, hvalue, hbytes⟩ := fromStr_requestId M id
  exact ⟨value, by rw [hvalue]; rfl, hbytes⟩

theorem toStr_eq_some_iff (value : V) (s : String) :
    Headers.toStr M value = some s ↔
      (∀ b ∈ Headers.valueBytes M value, b < 128) ∧ asBytes s = Headers.valueBytes M value := by
  have hascii : (Headers.valueBytes M value).all isVisibleAscii = true ↔
      ∀ b ∈ Headers.valueBytes M value, b < 128 := by
    rw [List.all_eq_true]
    have hbyte : ∀ b : UInt8, isFieldByte b = true → (isVisibleAscii b = true ↔ b < 128) :=
      forall_byte (by decide +kernel)
    exact forall₂_congr fun b hb => hbyte b (Headers.valueBytes_field value b hb)
  rw [Headers.toStr_eq, ← hascii]
  split
  · rename_i h
    simp [h, fromUtf8_eq_some_iff]
  · rename_i h
    simp [h]

end

/-! ### A header map as a list of lines -/

/-- A field value: any bytes the wire format allows in one. -/
structure HeaderLine where
  bytes : Bytes
  field : ∀ b ∈ bytes, isFieldByte b = true

abbrev HeaderList := List (HeaderName × HeaderLine)

namespace HeaderList

def getAll (m : HeaderList) (name : HeaderName) : List HeaderLine :=
  (m.filter fun line => line.1 = name).map Prod.snd

def insert (m : HeaderList) (name : HeaderName) (value : HeaderLine) : HeaderList :=
  m.filter (fun line => line.1 ≠ name) ++ [(name, value)]

def fromStr (s : String) : Option HeaderLine :=
  if h : (asBytes s).all isFieldByte = true then some ⟨asBytes s, List.all_eq_true.mp h⟩ else none

def toStr (value : HeaderLine) : Option String :=
  if value.bytes.all isVisibleAscii then fromUtf8 value.bytes else none

theorem getAll_insert (m : HeaderList) (name other : HeaderName) (value : HeaderLine) :
    getAll (insert m name value) other = if other = name then [value] else getAll m other := by
  by_cases h : other = name
  · subst h
    simp [getAll, insert, List.filter_append, List.filter_filter]
  · have hf : ∀ line : HeaderName × HeaderLine,
        (decide (line.1 = other) && !decide (line.1 = name)) = decide (line.1 = other) := by
      intro line
      by_cases hl : line.1 = other <;> simp [hl, h]
    simp [getAll, insert, List.filter_append, List.filter_filter, hf, h, Ne.symm h]

instance : Headers HeaderList HeaderLine where
  getAll := getAll
  insert := insert
  valueBytes := HeaderLine.bytes
  fromStr := fromStr
  toStr := toStr
  getAll_insert := getAll_insert
  valueBytes_field := HeaderLine.field
  fromStr_of_field := fun s h => ⟨⟨asBytes s, h⟩, dif_pos (List.all_eq_true.mpr h), rfl⟩
  toStr_eq := fun _ => rfl

end HeaderList

/-! ## Requests and responses -/

structure StatusCode where
  code : Nat
  valid : 100 ≤ code ∧ code < 1000
  deriving DecidableEq

namespace StatusCode

def asU16 (status : StatusCode) : Nat := status.code

def isServerError (status : StatusCode) : Bool := 500 ≤ status.code && status.code < 600

def isClientError (status : StatusCode) : Bool := 400 ≤ status.code && status.code < 500

end StatusCode

inductive Version where
  | http09
  | http10
  | http11
  | http2
  | http3
  deriving DecidableEq

structure Uri where
  scheme : Option String
  authority : Option String
  path : String
  query : Option String

/-- A socket peer, with its address in text form. -/
structure SocketAddr where
  ip : String
  port : Nat

/-- Typed extensions: the types the middleware looks up or installs, and all
others as one value of type `X`. -/
structure Extensions (X : Type) where
  matchedPath : Option String
  operationId : Option OperationId
  connectInfo : Option SocketAddr
  requestContext : Option RequestContext
  others : X

structure Request (M X B : Type) where
  method : String
  uri : Uri
  version : Version
  headers : M
  extensions : Extensions X
  body : B

/-- A response head. The body is what the rest of a run polls. -/
structure Response (M X : Type) where
  status : StatusCode
  version : Version
  headers : M
  extensions : Extensions X

/-! ## Extracting the context -/

end AxumObservability
