import AxumObservability.Library.Decimal
import AxumObservability.RequestId
import AxumObservability.Tracing

/-!
# The JSON layer

From a tracing event and the spans around it to one line of the log: the
visitor, the fields kept for a request span, the terminal record merged into an
event, the provider projections, and the write.

* `addProviderTraceFields_spec`: the provider projection never slices out of
  range, and what it inserts;
* `getElem?_mergeAccessRecord`: what a merged terminal record writes;
* `formatEvent_spec`: the value at every key of a line, by the stage it comes
  from.
-/

namespace AxumObservability

open Std Library.Decimal Library.FieldMap Library.Json Library.Panics Library.Text

abbrev Map := Object

inductive FieldConvention where
  | generic
  | gcp
  | aws
  | azure
  deriving DecidableEq

/-! ## The visitor -/

def FieldValue.toJson : FieldValue → Value
  | .f64 (some literal) => .number (.float literal)
  | .f64 none => .null
  | .i64 n => .number (if n < 0 then .negInt (-n - 1).toNat else .posInt n.toNat)
  | .u64 n => .number (.posInt n)
  | .bool b => .bool b
  | .str s => .string s
  | .error display => .string display
  | .debug text => .string text

/-- The visitor's map after the recorded fields. -/
def recordFields (fields : Fields) : Map :=
  fields.foldl
    (fun m field => match field.2 with
      | some value => m.insert field.1 value.toJson
      | none => m)
    ∅

theorem recordFields_eq (fields : Fields) : recordFields fields =
    .ofList (ofOptions (fields.map fun f => (f.1, f.2.map FieldValue.toJson))) := by
  rw [ExtTreeMap.ofList_eq_foldl, recordFields]
  generalize (∅ : Map) = m
  induction fields generalizing m with
  | nil => rfl
  | cons f fields ih =>
    obtain ⟨name, value⟩ := f
    cases value with
    | none => exact ih m
    | some value => exact ih _

/-! ## Spans -/

def requestTarget : String := "axum_observability::request"

def accessTarget : String := "axum_observability::access"

def middlewareModule : String := "axum_observability::middleware"

/-- A span of the registry with the extension the layer keeps in it. -/
structure SpanData where
  metadata : Metadata
  requestSpanFields : Option Map

def onNewSpan (attributes : Attributes) : SpanData :=
  let metadata := attributes.metadata
  ⟨metadata,
    if metadata.target ≠ requestTarget ∨ metadata.modulePath ≠ some middlewareModule ∨
        metadata.name ≠ "request" then none
    else some (recordFields attributes.fields)⟩

/-- Values recorded on a span later: the layer takes no notice. -/
def SpanData.onRecord (span : SpanData) (_values : Fields) : SpanData := span

/-- The fields of the package spans of a scope, the outermost first. -/
def requestFields (scope : List SpanData) : Map :=
  scope.foldl
    (fun m span => match span.requestSpanFields with
      | some fields => insertWhere (fun _ _ => true) m fields
      | none => m)
    ∅

/-- An inner package span overrides the ones around it. -/
theorem getElem?_requestFields_concat (scope : List SpanData) (span : SpanData) (key : String) :
    (requestFields (scope ++ [span]))[key]? =
      (span.requestSpanFields.bind fun fields => fields[key]?).or (requestFields scope)[key]? := by
  rw [requestFields, List.foldl_append, List.foldl_cons, List.foldl_nil]
  cases span.requestSpanFields with
  | none => rfl
  | some fields =>
    rw [getElem?_insertWhere, filter_const]
    rfl

/-- No span of a scope is a request span of the package. -/
def WithoutRequestSpans (scope : List SpanData) : Prop :=
  ∀ span ∈ scope, span.requestSpanFields = none

theorem requestFields_of_none {scope : List SpanData} (h : WithoutRequestSpans scope) :
    requestFields scope = ∅ := by
  unfold requestFields
  generalize (∅ : Map) = m
  induction scope with
  | nil => rfl
  | cons span scope ih =>
    rw [List.foldl_cons, h span List.mem_cons_self]
    exact ih fun s hs => h s (List.mem_cons_of_mem _ hs)

/-! ## Reserved names -/

def isRequestField (key : String) : Bool :=
  key ∈ ["request_id", "correlation_id", "trace_id", "parent_id", "trace_flags", "trace_sampled",
    "trace_id_random"]

theorem requestField_cases {key : String} (h : isRequestField key = true) :
    key = "request_id" ∨ key = "correlation_id" ∨ key = "trace_id" ∨ key = "parent_id" ∨
      key = "trace_flags" ∨ key = "trace_sampled" ∨ key = "trace_id_random" := by
  simpa [isRequestField] using h

def isEventReserved (key : String) (convention : FieldConvention) : Bool :=
  isRequestField key || key ∈ ["timestamp", "target", "obs.record"] ||
    match convention with
    | .generic => key == "level"
    | .gcp => key ∈ ["severity", "logging.googleapis.com/trace",
        "logging.googleapis.com/trace_sampled"]
    | .aws => key ∈ ["level", "xray_trace_id"]
    | .azure => key ∈ ["level", "operation_Id", "operation_ParentId"]

def isAccessReserved (key : String) (convention : FieldConvention) : Bool :=
  isEventReserved key convention ||
    key ∈ ["message", "method", "path", "path_template", "operation_id", "status", "duration_ms",
      "peer_ip", "user_agent", "terminal_reason", "error"] ||
    convention == .gcp && key == "httpRequest"

/-! ## The terminal record -/

def padZeros (width n : Nat) : String := String.ofList (padded width n)

def formatGcpDuration (seconds nanos : Nat) : String :=
  if nanos = 0 then padZeros 0 seconds ++ "s"
  else if nanos % 1000000 = 0 then
    padZeros 0 seconds ++ "." ++ padZeros 3 (nanos / 1000000) ++ "s"
  else if nanos % 1000 = 0 then padZeros 0 seconds ++ "." ++ padZeros 6 (nanos / 1000) ++ "s"
  else padZeros 0 seconds ++ "." ++ padZeros 9 nanos ++ "s"

def maxMillisecondsExclusive : Nat := 315576000001000

def asU64 : Number → Option Nat
  | .posInt n => if n < 2 ^ 64 then some n else none
  | _ => none

def gcpLatency (float : FloatArithmetic) : Value → Option String
  | .number n =>
    match asU64 n with
    | some milliseconds =>
      if milliseconds ≥ maxMillisecondsExclusive then none
      else some (formatGcpDuration (milliseconds / 1000) (milliseconds % 1000 * 1000000))
    | none =>
      let milliseconds := float.ofNumber n
      if float.rangeContains (float.ofNat 0) (float.ofNat maxMillisecondsExclusive) milliseconds then
        (float.tryFromSecsF64 (float.div milliseconds (float.ofNat 1000))).map fun duration =>
          formatGcpDuration duration.asSecs duration.subsecNanos
      else none
  | _ => none

def copyAs (source destination : Map) (sourceKey destinationKey : String) : Map :=
  match source[sourceKey]? with
  | some value => destination.insert destinationKey value
  | none => destination

def httpRequest (float : FloatArithmetic) (output : Map) : Map :=
  let http := copyAs output ∅ "method" "requestMethod"
  let http := copyAs output http "path" "requestUrl"
  let http := copyAs output http "status" "status"
  let http := copyAs output http "peer_ip" "remoteIp"
  let http := copyAs output http "user_agent" "userAgent"
  match output["duration_ms"]?.bind (gcpLatency float) with
  | some latency => http.insert "latency" (.string latency)
  | none => http

/-- The record, the message and the enrichment, before the request object is
derived from them. -/
def mergeRecordFields (output record : Map) (convention : FieldConvention) : Map :=
  let enrichment := record["enrichment"]?
  let record := record.erase "enrichment"
  let output := insertWhere (fun _ value => !value.isNull) output record
  let output := output.insert "message" (.string "request completed")
  match enrichment.bind Value.asObject with
  | some fields => insertWhere (fun key _ => !isAccessReserved key convention) output fields
  | none => output

def mergeAccessRecord (float : FloatArithmetic) (output record : Map)
    (convention : FieldConvention) : Map :=
  let output := mergeRecordFields output record convention
  if convention = .gcp then output.insert "httpRequest" (httpRequest float output).toValue
  else output

/-! ## Provider fields -/

/-- Part of a text by byte offsets, which must lie between characters. -/
def strSlice (s : String) (lo hi : Nat) : Result String := do
  expect (fromUtf8 (← slice (asBytes s) lo hi)) "byte index is not a char boundary"

def validatedTraceId (output : Map) : Option String := do
  let traceId ← (← output["trace_id"]?).asStr
  let bytes := asBytes traceId
  if bytes.length == 32 && bytes.all isLowerHexDigit && bytes.any (· != '0'.toUInt8) then
    some traceId
  else none

def xrayTraceId (traceId : String) : Result String := do
  return "1-" ++ (← strSlice traceId 0 8) ++ "-" ++ (← strSlice traceId 8 (asBytes traceId).length)

def addProviderTraceFields (output : Map) (convention : FieldConvention) : Result Map :=
  match validatedTraceId output with
  | none => return output
  | some traceId =>
    match convention with
    | .generic => return output
    | .gcp =>
      let output := output.insert "logging.googleapis.com/trace" (.string traceId)
      match output["trace_sampled"]? with
      | some sampled => return output.insert "logging.googleapis.com/trace_sampled" sampled
      | none => return output
    | .aws => do
      return output.insert "xray_trace_id" (.string (← xrayTraceId traceId))
    | .azure =>
      let output := output.insert "operation_Id" (.string traceId)
      match output["parent_id"]? with
      | some parentId => return output.insert "operation_ParentId" parentId
      | none => return output

/-! ## Events -/

inductive InternalFailure where
  | timestamp
  | serialization
  | write (kind : String)
  deriving DecidableEq

def internalDiagnostic (enabled : Bool) (failure : InternalFailure) : Option String :=
  if enabled then
    some (match failure with
      | .timestamp => "axum-observability: JSON event dropped; stage=timestamp\n"
      | .serialization => "axum-observability: JSON event dropped; stage=serialization\n"
      | .write kind => "axum-observability: JSON event dropped; stage=write; kind=" ++ kind ++ "\n")
  else none

def levelName (level : Level) (convention : FieldConvention) : String :=
  if convention ≠ .gcp then level.asStr
  else match level with
    | .trace | .debug => "DEBUG"
    | .info => "INFO"
    | .warn => "WARNING"
    | .error => "ERROR"

def levelKey (convention : FieldConvention) : String :=
  if convention = .gcp then "severity" else "level"

/-- An event of the package's own terminal callsites. -/
def trustedAccessCallsite (metadata : Metadata) : Bool :=
  metadata.target == accessTarget && metadata.modulePath == some middlewareModule

def accessRecordOf (serde : SerdeJson) (metadata : Metadata) (fields : Map) : Option Value :=
  if trustedAccessCallsite metadata then
    ((fields["obs.record"]?).bind Value.asStr).bind serde.fromStr
  else none

/-- The visitor's map once the serialized record has been taken out of it. -/
def eventFields (metadata : Metadata) (fields : Map) : Map :=
  if trustedAccessCallsite metadata then fields.erase "obs.record" else fields

/-- The package fields every line has. -/
def envelope (convention : FieldConvention) (timestamp : String) (metadata : Metadata)
    (output : Map) : Map :=
  ((output.insert "timestamp" (.string timestamp)).insert "target" (.string metadata.target)).insert
    (levelKey convention) (.string (levelName metadata.level convention))

/-- Everything of a line but the provider fields. -/
def portableFields (serde : SerdeJson) (float : FloatArithmetic) (convention : FieldConvention)
    (timestamp : String) (scope : List SpanData) (event : Event) : Map :=
  let fields := recordFields event.fields
  let accessRecord := accessRecordOf serde event.metadata fields
  let output := insertWhere (fun key _ => !isEventReserved key convention) ∅
    (eventFields event.metadata fields)
  let output := envelope convention timestamp event.metadata output
  let output := match accessRecord.bind Value.asObject with
    | some record => mergeAccessRecord float output record convention
    | none => output
  insertWhere (fun key _ => isRequestField key) output (requestFields scope)

/-- The object written for an event. -/
def formatEvent (serde : SerdeJson) (float : FloatArithmetic) (convention : FieldConvention)
    (timestamp : String) (scope : List SpanData) (event : Event) : Result Map :=
  addProviderTraceFields (portableFields serde float convention timestamp scope event) convention

/-! ## Writing -/

/-- How a writer that returns has taken one buffer: whole, or failing after some of it. A
panic of the writer leaves the layer for the code that emits the event. -/
inductive WriteOutcome where
  | ok
  | error (kind : String) (accepted : Nat)

/-- What has come out of the layer: the sink's bytes and the diagnostics. -/
structure LogOutput where
  sink : Bytes
  diagnostics : List String

/-- Events are numbered, so that a writer may take one line in two ways. -/
abbrev Writer := Nat → LogOutput → Metadata → Bytes → WriteOutcome

structure JsonLayer where
  writer : Writer
  fieldConvention : FieldConvention
  logInternalErrors : Bool

def JsonLayer.fromConvention (writer : Writer) (fieldConvention : FieldConvention) : JsonLayer :=
  ⟨writer, fieldConvention, true⟩

/-- A writer that takes every line. -/
def Writer.whole : Writer := fun _ _ _ _ => .ok

def JsonLayer.reportInternalFailure (layer : JsonLayer) (failure : InternalFailure)
    (out : LogOutput) : LogOutput :=
  match internalDiagnostic layer.logInternalErrors failure with
  | some diagnostic => { out with diagnostics := out.diagnostics ++ [diagnostic] }
  | none => out

def lineFeed : UInt8 := '\n'.toUInt8

/-- The bytes for one event: its object and a line feed. -/
def serializeLine (serde : SerdeJson) (output : Map) : Except InternalFailure Bytes :=
  match serde.toVec output.toValue with
  | some line => .ok (line ++ [lineFeed])
  | none => .error .serialization

def JsonLayer.writeLine (layer : JsonLayer) (number : Nat) (metadata : Metadata) (line : Bytes)
    (out : LogOutput) : LogOutput :=
  match layer.writer number out metadata line with
  | .ok => { out with sink := out.sink ++ line }
  | .error kind accepted =>
    layer.reportInternalFailure (.write kind) { out with sink := out.sink ++ line.take accepted }

def JsonLayer.onEvent (serde : SerdeJson) (float : FloatArithmetic) (layer : JsonLayer)
    (number : Nat) (timestamp : Except InternalFailure String) (scope : List SpanData)
    (event : Event) (out : LogOutput) : Result LogOutput :=
  match timestamp with
  | .error failure => return layer.reportInternalFailure failure out
  | .ok timestamp => do
    let output ← formatEvent serde float layer.fieldConvention timestamp scope event
    match serializeLine serde output with
    | .ok line => return layer.writeLine number event.metadata line out
    | .error failure => return layer.reportInternalFailure failure out

/-! ## The provider projection -/

theorem slice_ascii {s : String} {i j : Nat} (h : ∀ b ∈ asBytes s, b < 128) (hij : i ≤ j)
    (hj : j ≤ (asBytes s).length) :
    ∃ t, strSlice s i j = .ok t ∧ asBytes t = ((asBytes s).drop i).take (j - i) := by
  obtain ⟨t, ht⟩ := fromUtf8_ascii (((asBytes s).drop i).take (j - i)) fun b hb =>
    h b (List.mem_of_mem_drop (List.mem_of_mem_take hb))
  refine ⟨t, ?_, (fromUtf8_eq_some_iff _ _).mp ht⟩
  rw [strSlice, slice_of_le hij hj, ok_bind, ht]
  rfl

/-- What the validation of a trace identifier has established. -/
structure ValidTraceId (traceId : String) : Prop where
  length : (asBytes traceId).length = 32
  lowerHex : ∀ b ∈ asBytes traceId, isLowerHexDigit b = true
  nonzero : ∃ b ∈ asBytes traceId, b ≠ '0'.toUInt8

theorem validatedTraceId_eq_some_iff (output : Map) (traceId : String) :
    validatedTraceId output = some traceId ↔
      output["trace_id"]? = some (.string traceId) ∧ ValidTraceId traceId := by
  have hstr : ∀ v : Value, v.asStr = some traceId ↔ v = .string traceId := by
    intro v
    cases v <;> simp [Value.asStr]
  simp only [validatedTraceId, Option.bind_eq_bind, Option.bind_eq_some_iff]
  constructor
  · rintro ⟨v, hv, t, ht, hvalid⟩
    split at hvalid
    · rename_i hcond
      cases hvalid
      simp only [Bool.and_eq_true, beq_iff_eq, List.all_eq_true, List.any_eq_true, bne_iff_ne]
        at hcond
      exact ⟨by rw [hv, (hstr v).mp ht], hcond.1.1, hcond.1.2, hcond.2⟩
    · cases hvalid
  · rintro ⟨hv, hvalid⟩
    refine ⟨_, hv, traceId, rfl, if_pos ?_⟩
    simp only [Bool.and_eq_true, beq_iff_eq, List.all_eq_true, List.any_eq_true, bne_iff_ne]
    exact ⟨⟨hvalid.length, hvalid.lowerHex⟩, hvalid.nonzero⟩

theorem exists_xrayTraceId {traceId : String} (h : ValidTraceId traceId) :
    ∃ s, xrayTraceId traceId = .ok s := by
  have hascii : ∀ b ∈ asBytes traceId, b < 128 := by
    intro b hb
    exact isLowerHexDigit_ascii b (h.lowerHex b hb)
  obtain ⟨front, hfront, -⟩ := slice_ascii (i := 0) (j := 8) hascii (by omega)
    (by rw [h.length]; omega)
  obtain ⟨back, hback, -⟩ := slice_ascii (i := 8) (j := (asBytes traceId).length) hascii
    (by rw [h.length]; omega) le_rfl
  exact ⟨_, by rw [xrayTraceId, hfront, ok_bind, hback]; rfl⟩

/-- What the provider projection writes under a name. -/
def providerField (convention : FieldConvention) (output : Map) (key : String) : Option Value :=
  match validatedTraceId output with
  | none => none
  | some traceId =>
    match convention with
    | .generic => none
    | .gcp =>
      if "logging.googleapis.com/trace_sampled" = key then output["trace_sampled"]?
      else if "logging.googleapis.com/trace" = key then some (.string traceId)
      else none
    | .aws =>
      if "xray_trace_id" = key then (xrayTraceId traceId).toOption.map .string else none
    | .azure =>
      if "operation_ParentId" = key then output["parent_id"]?
      else if "operation_Id" = key then some (.string traceId)
      else none

/-- The names of the provider projection. -/
def providerNames : FieldConvention → List String
  | .generic => []
  | .gcp => ["logging.googleapis.com/trace", "logging.googleapis.com/trace_sampled"]
  | .aws => ["xray_trace_id"]
  | .azure => ["operation_Id", "operation_ParentId"]

theorem providerField_of_not_mem {convention : FieldConvention} {key : String}
    (h : key ∉ providerNames convention) (m : Map) : providerField convention m key = none := by
  unfold providerField
  cases validatedTraceId m with
  | none => rfl
  | some traceId =>
    cases convention <;>
      simp only [providerNames, List.mem_cons, List.not_mem_nil, or_false, not_or,
        eq_comm (a := key)] at h <;>
      simp [h]

/-- An alias for the trace identifier, and one for another field where there is one. -/
theorem getElem?_aliases (output : Map) {first second : String} (source : String)
    (hsource : first ≠ source) (hsecond : first ≠ second) (v : Value) (key : String) :
    (match (output.insert first v)[source]? with
      | some w => (output.insert first v).insert second w
      | none => output.insert first v)[key]? =
      (if second = key then output[source]? else if first = key then some v else none).or
        output[key]? := by
  rw [getElem?_insert_eq, if_neg hsource]
  cases hs : output[source]? with
  | none =>
    rw [getElem?_insert_eq]
    by_cases h : second = key
    · subst h
      rw [if_neg hsecond, if_pos rfl, Option.none_or]
    · rw [if_neg h]
      split <;> rfl
  | some w =>
    rw [getElem?_insert_eq, getElem?_insert_eq]
    split
    · rfl
    · split <;> rfl

/-- **The provider projection never panics**, on any map whatever. -/
theorem addProviderTraceFields_spec (output : Map) (convention : FieldConvention) :
    ∃ m, addProviderTraceFields output convention = .ok m ∧
      ∀ key : String, m[key]? = (providerField convention output key).or output[key]? := by
  unfold addProviderTraceFields providerField
  cases hid : validatedTraceId output with
  | none => exact ⟨output, rfl, fun key => by simp⟩
  | some traceId =>
    have hvalid := ((validatedTraceId_eq_some_iff output traceId).mp hid).2
    cases convention with
    | generic => exact ⟨output, rfl, fun key => by simp⟩
    | gcp =>
      refine ⟨_, ?_, getElem?_aliases output "trace_sampled" (by decide) (by decide)
        (.string traceId)⟩
      dsimp only
      split <;> rfl
    | aws =>
      obtain ⟨s, hs⟩ := exists_xrayTraceId hvalid
      refine ⟨output.insert "xray_trace_id" (.string s), by simp only [hs, ok_bind]; rfl,
        fun key => ?_⟩
      rw [getElem?_insert_eq]
      simp only [hs, Except.toOption]
      split <;> rfl
    | azure =>
      refine ⟨_, ?_, getElem?_aliases output "parent_id" (by decide) (by decide)
        (.string traceId)⟩
      dsimp only
      split <;> rfl

/-! ## The stages of a line -/

/-- What the envelope writes under a name. -/
def envelopeField (convention : FieldConvention) (timestamp : String) (metadata : Metadata)
    (key : String) : Option Value :=
  if levelKey convention = key then some (.string (levelName metadata.level convention))
  else if "target" = key then some (.string metadata.target)
  else if "timestamp" = key then some (.string timestamp)
  else none

/-- The names of the envelope. -/
def envelopeNames (convention : FieldConvention) : List String :=
  ["timestamp", "target", levelKey convention]

theorem envelopeField_of_not_mem {convention : FieldConvention} {key : String}
    (h : key ∉ envelopeNames convention) (timestamp : String) (metadata : Metadata) :
    envelopeField convention timestamp metadata key = none := by
  simp only [envelopeNames, List.mem_cons, List.not_mem_nil, or_false, not_or,
    eq_comm (a := key)] at h
  simp [envelopeField, h]

theorem getElem?_envelope (convention : FieldConvention) (timestamp : String)
    (metadata : Metadata) (output : Map) (key : String) :
    (envelope convention timestamp metadata output)[key]? =
      (envelopeField convention timestamp metadata key).or output[key]? := by
  rw [envelope, getElem?_insert_eq, getElem?_insert_eq, getElem?_insert_eq, envelopeField]
  split
  · rfl
  · split
    · rfl
    · split <;> rfl

theorem getElem?_copyAs (source destination : Map) (sourceKey destinationKey key : String) :
    (copyAs source destination sourceKey destinationKey)[key]? =
      (if destinationKey = key then source[sourceKey]? else none).or destination[key]? := by
  unfold copyAs
  cases hs : source[sourceKey]? with
  | none => simp
  | some value =>
    rw [getElem?_insert_eq]
    split <;> rfl

/-- The members of the request object, by the output field each is read from. -/
def httpRequestField (float : FloatArithmetic) (output : Map) (key : String) : Option Value :=
  if "latency" = key then (output["duration_ms"]?.bind (gcpLatency float)).map .string
  else if "userAgent" = key then output["user_agent"]?
  else if "remoteIp" = key then output["peer_ip"]?
  else if "status" = key then output["status"]?
  else if "requestUrl" = key then output["path"]?
  else if "requestMethod" = key then output["method"]?
  else none

theorem getElem?_httpRequest (float : FloatArithmetic) (output : Map) (key : String) :
    (httpRequest float output)[key]? = httpRequestField float output key := by
  by_cases hkey : key ∈ ["latency", "userAgent", "remoteIp", "status", "requestUrl",
      "requestMethod"]
  · simp only [List.mem_cons, List.not_mem_nil, or_false] at hkey
    cases hl : output["duration_ms"]?.bind (gcpLatency float) <;>
      rcases hkey with rfl | rfl | rfl | rfl | rfl | rfl <;>
      simp [httpRequest, httpRequestField, getElem?_copyAs, getElem?_insert_eq, hl]
  · simp only [List.mem_cons, List.not_mem_nil, or_false, not_or, eq_comm (a := key)] at hkey
    cases hl : output["duration_ms"]?.bind (gcpLatency float) <;>
      simp [httpRequest, httpRequestField, getElem?_copyAs, getElem?_insert_eq, hl, hkey]

/-- The request object reads six names of the output. -/
theorem httpRequest_congr (float : FloatArithmetic) {m m' : Map}
    (h : ∀ key ∈ ["method", "path", "status", "peer_ip", "user_agent", "duration_ms"],
      m[key]? = m'[key]?) : httpRequest float m = httpRequest float m' := by
  simp only [httpRequest, copyAs, h "method" (by simp), h "path" (by simp), h "status" (by simp),
    h "peer_ip" (by simp), h "user_agent" (by simp), h "duration_ms" (by simp)]

/-- What the enrichment of a record writes under a name. -/
def enrichmentField (convention : FieldConvention) (record : Map) (key : String) : Option Value :=
  if isAccessReserved key convention then none
  else (record["enrichment"]?.bind Value.asObject).bind fun fields => fields[key]?

/-- What the record itself writes under a name. -/
def recordField (record : Map) (key : String) : Option Value :=
  if "message" = key then some (.string "request completed")
  else if "enrichment" = key then none
  else record[key]?.filter fun value => !value.isNull

theorem getElem?_mergeRecordFields (output record : Map) (convention : FieldConvention)
    (key : String) : (mergeRecordFields output record convention)[key]? =
      (enrichmentField convention record key).or
        ((recordField record key).or output[key]?) := by
  have hrecord : ((insertWhere (fun _ value => !value.isNull) output
      (record.erase "enrichment")).insert "message" (.string "request completed"))[key]? =
      (recordField record key).or output[key]? := by
    rw [getElem?_insert_eq, getElem?_insertWhere, getElem?_erase_eq, recordField]
    split
    · rfl
    · split <;> rfl
  simp only [mergeRecordFields, enrichmentField]
  cases record["enrichment"]?.bind Value.asObject with
  | none =>
    simp only [Option.bind_none, ite_self, Option.none_or]
    exact hrecord
  | some fields =>
    simp only [getElem?_insertWhere, hrecord, filter_const, Option.bind_some]
    cases isAccessReserved key convention <;> rfl

theorem getElem?_mergeAccessRecord (float : FloatArithmetic) (output record : Map)
    (convention : FieldConvention) (key : String) :
    (mergeAccessRecord float output record convention)[key]? =
      if convention = .gcp ∧ "httpRequest" = key then
        some (httpRequest float (mergeRecordFields output record convention)).toValue
      else (mergeRecordFields output record convention)[key]? := by
  simp only [mergeAccessRecord]
  by_cases hgcp : convention = .gcp
  · simp only [hgcp, ↓reduceIte, true_and, getElem?_insert_eq]
  · simp only [hgcp, ↓reduceIte, false_and]

/-- What the spans of a scope write under a name. -/
def requestField (scope : List SpanData) (key : String) : Option Value :=
  if isRequestField key then (requestFields scope)[key]? else none

/-- What the event itself writes under a name. -/
def eventField (convention : FieldConvention) (event : Event) (key : String) : Option Value :=
  if isEventReserved key convention then none else (recordFields event.fields)[key]?

theorem getElem?_eventFields (convention : FieldConvention) (event : Event) (key : String) :
    (insertWhere (fun key _ => !isEventReserved key convention) ∅
      (eventFields event.metadata (recordFields event.fields)))[key]? =
        eventField convention event key := by
  rw [getElem?_insertWhere, filter_const, ExtTreeMap.getElem?_empty, Option.or_none, eventField]
  cases hr : isEventReserved key convention with
  | true => rfl
  | false =>
    have hkey : "obs.record" ≠ key := by
      rintro rfl
      simp [isEventReserved] at hr
    simp only [Bool.not_false, ↓reduceIte, Bool.false_eq_true, eventFields]
    split
    · rw [getElem?_erase_eq, if_neg hkey]
    · rfl

section Stages

variable (serde : SerdeJson) (float : FloatArithmetic) (convention : FieldConvention)
  (timestamp : String) (scope : List SpanData) (event : Event)

/-- **An event without a terminal record**, before the provider fields: the
spans, the envelope and the event's own fields, in this order. -/
theorem getElem?_portableFields_of_none
    (h : accessRecordOf serde event.metadata (recordFields event.fields) = none) (key : String) :
    (portableFields serde float convention timestamp scope event)[key]? =
      (requestField scope key).or ((envelopeField convention timestamp event.metadata key).or
        (eventField convention event key)) := by
  simp only [portableFields, h, Option.bind_none]
  rw [getElem?_insertWhere, getElem?_envelope, getElem?_eventFields, filter_const, requestField]

/-- **A terminal event**, before the provider fields. -/
theorem getElem?_portableFields_of_record {record : Map} {value : Value}
    (h : accessRecordOf serde event.metadata (recordFields event.fields) = some value)
    (hrecord : value.asObject = some record) (key : String) :
    (portableFields serde float convention timestamp scope event)[key]? =
      (requestField scope key).or
        (mergeAccessRecord float (envelope convention timestamp event.metadata
          (insertWhere (fun key _ => !isEventReserved key convention) ∅
            (eventFields event.metadata (recordFields event.fields)))) record convention)[key]? := by
  simp only [portableFields, h, Option.bind_some, hrecord, getElem?_insertWhere, filter_const,
    requestField]

/-- **A whole line**, by the stages before and in the provider projection. -/
theorem formatEvent_spec : ∃ m, formatEvent serde float convention timestamp scope event = .ok m ∧
    ∀ key : String, m[key]? =
      (providerField convention (portableFields serde float convention timestamp scope event)
        key).or (portableFields serde float convention timestamp scope event)[key]? :=
  addProviderTraceFields_spec _ convention

variable {serde float convention timestamp scope event}

theorem getElem?_formatEvent {m : Map}
    (hm : formatEvent serde float convention timestamp scope event = .ok m) (key : String) :
    m[key]? =
      (providerField convention (portableFields serde float convention timestamp scope event)
        key).or (portableFields serde float convention timestamp scope event)[key]? := by
  obtain ⟨m', hm', hspec⟩ := formatEvent_spec serde float convention timestamp scope event
  cases hm.symm.trans hm'
  exact hspec key

end Stages

/-- The provider projection reads three names of the map. -/
theorem providerField_congr (convention : FieldConvention) {m m' : Map}
    (h : ∀ key : String, isRequestField key = true → m[key]? = m'[key]?) (key : String) :
    providerField convention m key = providerField convention m' key := by
  have hid : validatedTraceId m = validatedTraceId m' := by
    simp only [validatedTraceId, h "trace_id" (by decide)]
  rw [providerField, providerField, hid, h "trace_sampled" (by decide), h "parent_id" (by decide)]

/-- Lines agree at a name where the maps before the provider projection do, and these
agree at the correlation names. -/
theorem formatEvent_agree {serde : SerdeJson} {float : FloatArithmetic}
    {convention : FieldConvention} {timestamp : String} {scope scope' : List SpanData}
    {event event' : Event} {m m' : Map}
    (hm : formatEvent serde float convention timestamp scope event = .ok m)
    (hm' : formatEvent serde float convention timestamp scope' event' = .ok m')
    (hrequest : ∀ key : String, isRequestField key = true →
      (portableFields serde float convention timestamp scope event)[key]? =
        (portableFields serde float convention timestamp scope' event')[key]?) {key : String}
    (hkey : (portableFields serde float convention timestamp scope event)[key]? =
      (portableFields serde float convention timestamp scope' event')[key]?) :
    m[key]? = m'[key]? := by
  rw [getElem?_formatEvent hm, getElem?_formatEvent hm', hkey,
    providerField_congr convention hrequest]

theorem isEventReserved_of_isRequestField {key : String} (convention : FieldConvention)
    (h : isRequestField key = true) : isEventReserved key convention = true := by
  simp [isEventReserved, h]

/-- The provider projection and the envelope write reserved names only. -/
theorem isEventReserved_of_mem {convention : FieldConvention} {key : String}
    (h : key ∈ providerNames convention ∨ key ∈ envelopeNames convention) :
    isEventReserved key convention = true := by
  have hnames : ∀ key ∈ providerNames convention ++ envelopeNames convention,
      isEventReserved key convention = true := by
    cases convention <;> decide
  exact hnames key (List.mem_append.mpr h)

theorem providerField_of_not_reserved {convention : FieldConvention} {key : String}
    (h : isEventReserved key convention = false) (m : Map) :
    providerField convention m key = none :=
  providerField_of_not_mem (fun hmem => by
    rw [isEventReserved_of_mem (Or.inl hmem)] at h
    cases h) m

theorem envelopeField_of_not_reserved {convention : FieldConvention} {key : String}
    (h : isEventReserved key convention = false) (timestamp : String) (metadata : Metadata) :
    envelopeField convention timestamp metadata key = none :=
  envelopeField_of_not_mem
    (fun hmem => by rw [isEventReserved_of_mem (Or.inr hmem)] at h; cases h) timestamp metadata

theorem requestField_of_not_reserved {convention : FieldConvention} {key : String}
    (h : isEventReserved key convention = false) (scope : List SpanData) :
    requestField scope key = none := by
  rw [requestField, if_neg]
  intro hr
  rw [isEventReserved_of_isRequestField convention hr] at h
  cases h

/-! ## The written line -/

/-- The object of an event's line and the bytes it is written as. -/
structure WritesLine (serde : SerdeJson) (float : FloatArithmetic) (layer : JsonLayer)
    (timestamp : String) (scope : List SpanData) (event : Event) (m : Map) (line : Bytes) :
    Prop where
  object : formatEvent serde float layer.fieldConvention timestamp scope event = .ok m
  bytes : serializeLine serde m = .ok line
  written : ∀ number out, layer.onEvent serde float number (.ok timestamp) scope event out =
    .ok (layer.writeLine number event.metadata line out)

theorem exists_serializeLine (serde : SerdeJson) (m : Map) :
    ∃ line, serializeLine serde m = .ok line := by
  obtain ⟨text, htext⟩ := serde.exists_toString m.toValue
  exact ⟨asBytes text ++ [lineFeed], by simp [serializeLine, SerdeJson.toVec, htext]⟩

theorem writesLine_of_formatEvent {serde : SerdeJson} {float : FloatArithmetic}
    (layer : JsonLayer) {timestamp : String} {scope : List SpanData} {event : Event} {m : Map}
    (h : formatEvent serde float layer.fieldConvention timestamp scope event = .ok m) :
    ∃ line, WritesLine serde float layer timestamp scope event m line := by
  obtain ⟨line, hline⟩ := exists_serializeLine serde m
  refine ⟨line, h, hline, fun number out => ?_⟩
  simp only [JsonLayer.onEvent, h, ok_bind, hline, pure_eq_ok]

/-- **Every event has a line.** -/
theorem exists_writesLine (serde : SerdeJson) (float : FloatArithmetic) (layer : JsonLayer)
    (timestamp : String) (scope : List SpanData) (event : Event) :
    ∃ m line, WritesLine serde float layer timestamp scope event m line := by
  obtain ⟨m, hm, -⟩ := formatEvent_spec serde float layer.fieldConvention timestamp scope event
  exact ⟨m, writesLine_of_formatEvent layer hm⟩

/-- **The layer never panics**: with a timestamp it writes a line, without one
it reports the failure. -/
theorem exists_onEvent (serde : SerdeJson) (float : FloatArithmetic) (layer : JsonLayer)
    (number : Nat) (timestamp : Except InternalFailure String) (scope : List SpanData)
    (event : Event) (out : LogOutput) :
    ∃ out', layer.onEvent serde float number timestamp scope event out = .ok out' := by
  cases timestamp with
  | error failure => exact ⟨_, rfl⟩
  | ok timestamp =>
    obtain ⟨m, line, hline⟩ := exists_writesLine serde float layer timestamp scope event
    exact ⟨_, hline.written number out⟩

end AxumObservability
