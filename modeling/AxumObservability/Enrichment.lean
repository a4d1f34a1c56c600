import AxumObservability.Correlation

/-!
# The enrichment of a terminal record

An enricher adds any names and any values to a terminal record. They share one
document with the package's own fields, and one line with all that is derived
from these.

* `formatEvent_enrichment`: what a decoded enrichment can and cannot do to the
  terminal line;
* `finish_record_iff`: how deep an enrichment may nest before the record is lost
  on its way through the event.
-/

namespace AxumObservability

open Std Library.FieldMap Library.Json Library.Panics Library.Text

/-! ## The scope of a record -/

/-- Every package span of a scope is the one of the record's own request. -/
def AccessRecord.OwnScope (record : AccessRecord) (scope : List SpanLife) : Prop :=
  ∀ attributes ∈ packageSpans scope, ∃ context : RequestContext,
    attributes = requestAttributes context ∧
      record.correlationFields = context.correlationFields

/-- In its own scope the spans show nothing that the record does not. -/
theorem AccessRecord.OwnScope.requestField_eq {record : AccessRecord} {scope : List SpanLife}
    (h : record.OwnScope scope) (read : Number → Number) (key : String) :
    requestField (scope.map SpanLife.data) key = none ∨
      requestField (scope.map SpanLife.data) key = record.ownField read key := by
  rw [requestField]
  by_cases hkey : isRequestField key = true
  swap
  · exact Or.inl (if_neg hkey)
  rw [if_pos hkey, requestFields_data]
  rw [OwnScope] at h
  generalize packageSpans scope = spans at h
  induction spans using List.reverseRecOn with
  | nil => exact Or.inl (by simp [requestFields])
  | append_singleton spans attributes ih =>
    obtain ⟨context, rfl, hrecord⟩ := h attributes (by simp)
    have hown := ownField_of_correlationFields hrecord read hkey
    rw [List.map_append, List.map_singleton]
    change (requestFields (_ ++ [requestSpanData context]))[key]? = none ∨
      (requestFields (_ ++ [requestSpanData context]))[key]? = _
    rw [getElem?_requestFields_own]
    cases hfield : context.correlationField key with
    | some v => exact Or.inr (by rw [hown, hfield]; rfl)
    | none =>
      rw [Option.none_or]
      exact ih fun a ha => h a (List.mem_append_left _ ha)

/-! ## The line of a decoded record -/

/-- The names of a record's own fields. -/
def ownNames : List String :=
  ["request_id", "correlation_id", "trace_id", "parent_id", "trace_flags", "trace_sampled",
    "trace_id_random", "method", "path", "path_template", "operation_id", "status",
    "duration_ms", "peer_ip", "user_agent", "terminal_reason"]

theorem ownNames_spec (convention : FieldConvention) : ∀ key ∈ ownNames,
    isAccessReserved key convention = true ∧ "message" ≠ key ∧ "httpRequest" ≠ key ∧
      key ∉ providerNames convention ∧ key ∉ envelopeNames convention := by
  cases convention <;> decide

theorem providerNames_spec (convention : FieldConvention) : ∀ key ∈ providerNames convention,
    isAccessReserved key convention = true ∧ key ∉ ownNames ∧ "message" ≠ key ∧
      "httpRequest" ≠ key ∧ key ∉ envelopeNames convention := by
  cases convention <;> decide

theorem mem_ownNames {record : AccessRecord} {key : String} {o : Option Value}
    (h : (key, o) ∈ record.ownFields) : key ∈ ownNames :=
  List.mem_map_of_mem (f := Prod.fst) h

section

variable {serde : SerdeJson} {float : FloatArithmetic} {convention : FieldConvention}
  {timestamp : String} {scope : List SpanData} {level : Level} {text : String}
  {record : AccessRecord} {read : Number → Number} {m : Map}

/-- Under its own names a line shows the spans, then the record that was read
back. -/
theorem getElem?_line_own
    (hdecode : serde.fromStr text = some (record.toValue.mapNumbers read))
    (hm : formatEvent serde float convention timestamp scope
      (accessEvent level text) = .ok m) {key : String} (hkey : key ∈ ownNames) :
    m[key]? = (requestField scope key).or (record.ownField read key) := by
  obtain ⟨haccess, hmessage, hhttp, hprovider, henvelope⟩ := ownNames_spec convention key hkey
  rw [getElem?_formatEvent hm, providerField_of_not_mem hprovider, Option.none_or,
    getElem?_portableFields_decoded serde float convention timestamp _ level hdecode,
    if_neg (fun h => hhttp h.2), if_pos haccess, if_neg hmessage,
    envelopeField_of_not_mem henvelope, Option.none_or, Option.or_none]

/-- What the terminal line cannot have from its own record it has from nowhere. -/
theorem getElem?_portableFields_absent
    (hdecode : serde.fromStr text = some (record.toValue.mapNumbers read)) {key : String}
    (haccess : isAccessReserved key convention = true) (hown : key ∉ ownNames)
    (hmessage : "message" ≠ key) (hhttp : "httpRequest" ≠ key)
    (henvelope : key ∉ envelopeNames convention) :
    (portableFields serde float convention timestamp scope
      (accessEvent level text))[key]? = none := by
  have hnot : ¬ isRequestField key = true := by
    intro h
    refine hown ?_
    rcases requestField_cases h with rfl | rfl | rfl | rfl | rfl | rfl | rfl <;> decide
  have hlookup : record.ownFields.lookup key = none := by
    rw [List.lookup_eq_none_iff]
    rintro ⟨k, o⟩ hmem
    exact bne_iff_ne.mpr fun h => hown (h ▸ mem_ownNames hmem)
  rw [getElem?_portableFields_decoded serde float convention timestamp _ level hdecode,
    requestField, if_neg hnot, if_neg (fun h => hhttp h.2), if_pos haccess, if_neg hmessage,
    envelopeField_of_not_mem henvelope, AccessRecord.ownField, hlookup]
  rfl

/-- Under reserved names a line does not depend on the enrichment. -/
theorem getElem?_line_reserved {text' : String} {record' : AccessRecord} {m' : Map}
    (hrecord : record.ownFields = record'.ownFields)
    (hdecode : serde.fromStr text = some (record.toValue.mapNumbers read))
    (hdecode' : serde.fromStr text' = some (record'.toValue.mapNumbers read))
    (hm : formatEvent serde float convention timestamp scope
      (accessEvent level text) = .ok m)
    (hm' : formatEvent serde float convention timestamp scope
      (accessEvent level text') = .ok m')
    {key : String} (hkey : isAccessReserved key convention = true) : m[key]? = m'[key]? := by
  have hportable : ∀ key : String, isAccessReserved key convention = true →
      (portableFields serde float convention timestamp scope
        (accessEvent level text))[key]? =
      (portableFields serde float convention timestamp scope
        (accessEvent level text'))[key]? := by
    intro key hkey
    rw [getElem?_portableFields_decoded serde float convention timestamp _ level hdecode,
      getElem?_portableFields_decoded serde float convention timestamp _ level hdecode',
      if_pos hkey, if_pos hkey, AccessRecord.ownField, AccessRecord.ownField,
      AccessRecord.ownMap, AccessRecord.ownMap, hrecord]
  refine formatEvent_agree hm hm' (fun k hk => hportable k ?_) (hportable key hkey)
  simp [isAccessReserved, isEventReserved_of_isRequestField convention hk]

/-- Under other names a line shows the enrichment. -/
theorem getElem?_line_enrichment
    (hdecode : serde.fromStr text = some (record.toValue.mapNumbers read))
    (hm : formatEvent serde float convention timestamp scope
      (accessEvent level text) = .ok m)
    {key : String} {v : Value} (hkey : isAccessReserved key convention = false)
    (hv : record.enrichment[key]? = some v) : m[key]? = some (v.mapNumbers read) := by
  have hevent : isEventReserved key convention = false := by
    simp only [isAccessReserved, Bool.or_eq_false_iff] at hkey
    exact hkey.1.1
  have hhttp : ¬ (convention = .gcp ∧ "httpRequest" = key) := by
    rintro ⟨rfl, rfl⟩
    cases hkey
  rw [getElem?_formatEvent hm, providerField_of_not_reserved hevent, Option.none_or,
    getElem?_portableFields_decoded serde float convention timestamp _ level hdecode,
    requestField_of_not_reserved hevent, Option.none_or, if_neg hhttp, hkey, hv]
  rfl

theorem getElem?_line_absent
    (hdecode : serde.fromStr text = some (record.toValue.mapNumbers read))
    (hm : formatEvent serde float convention timestamp scope
      (accessEvent level text) = .ok m) {key : String}
    (haccess : isAccessReserved key convention = true) (hown : key ∉ ownNames)
    (hmessage : "message" ≠ key) (hhttp : "httpRequest" ≠ key)
    (henvelope : key ∉ envelopeNames convention) :
    m[key]? = providerField convention (portableFields serde float convention timestamp
      scope (accessEvent level text)) key := by
  rw [getElem?_formatEvent hm,
    getElem?_portableFields_absent hdecode haccess hown hmessage hhttp henvelope, Option.or_none]

/-- A line without a trace identifier has no provider alias for one. -/
theorem providerField_of_no_trace
    (hscope : requestField scope "trace_id" = none ∨
      requestField scope "trace_id" = record.ownField read "trace_id")
    (hdecode : serde.fromStr text = some (record.toValue.mapNumbers read))
    (htrace : record.traceId = none) (key : String) :
    providerField convention (portableFields serde float convention timestamp
      scope (accessEvent level text)) key = none := by
  have hown : record.ownField read "trace_id" = none :=
    record.ownField_of_mem read (o := none) (by
      simp [AccessRecord.ownFields, AccessRecord.correlationFields, htrace])
  have hid : (portableFields serde float convention timestamp scope
      (accessEvent level text))["trace_id"]? = none := by
    obtain ⟨haccess, hmessage, hhttp, -, henvelope⟩ :=
      ownNames_spec convention "trace_id" (by decide)
    rw [getElem?_portableFields_decoded serde float convention timestamp _ level hdecode,
      if_neg (fun h => hhttp h.2), if_pos haccess, if_neg hmessage,
      envelopeField_of_not_mem henvelope, hown]
    rcases hscope with h | h <;> rw [h]
    · rfl
    · rw [hown]
      rfl
  have hnone : validatedTraceId (portableFields serde float convention timestamp
      scope (accessEvent level text)) = none := by
    rw [validatedTraceId, hid]
    rfl
  rw [providerField, hnone]

/-- The request object is derived from the record. -/
theorem getElem?_line_httpRequest
    (hdecode : serde.fromStr text = some (record.toValue.mapNumbers read))
    (hm : formatEvent serde float .gcp timestamp scope
      (accessEvent level text) = .ok m) :
    m["httpRequest"]? = some (httpRequest float (record.ownMap read)).toValue := by
  rw [getElem?_formatEvent hm, providerField_of_not_mem (by decide), Option.none_or,
    getElem?_portableFields_decoded serde float .gcp timestamp _ level hdecode,
    if_pos ⟨rfl, rfl⟩]
  rfl

end

/-- With its numbers read as they are a record shows its own fields. -/
theorem AccessRecord.ownField_id (record : AccessRecord) {key : String} {o : Option Value}
    (ho : (key, o) ∈ record.ownFields) : record.ownField id key = o := by
  have hid : Value.mapNumbers id = id := funext mapNumbers_id
  rw [record.ownField_of_mem id ho, hid, Option.map_id, id]

/-- The request object has the values of the record. -/
theorem AccessRecord.getElem?_httpRequest_ownMap (record : AccessRecord)
    (float : FloatArithmetic) (source : String) {key : String} {o : Option Value}
    (hkey : httpRequestField float (record.ownMap id) key = (record.ownMap id)[source]?)
    (ho : (source, o) ∈ record.accessFields) :
    (httpRequest float (record.ownMap id))[key]? = o := by
  rw [getElem?_httpRequest, hkey, record.getElem?_ownMap,
    record.ownField_id (List.mem_append_right _ ho)]

/-- **An enrichment neither replaces, suppresses nor introduces a package field,
and is itself kept.**  The terminal lines of a decoded record with its enrichment
and without agree at every reserved name; there the line shows the record, absent
fields included, and the request object is derived from the record alone. Every
other name of the enrichment holds its value. -/
theorem formatEvent_enrichment (serde : SerdeJson) (float : FloatArithmetic) (layer : JsonLayer)
    (timestamp : String) (scope : List SpanLife) (level : Level) (record : AccessRecord)
    (text text₀ : String) (hscope : record.OwnScope scope)
    (hdecode : serde.fromStr text = some record.toValue)
    (hempty : serde.fromStr text₀ = some { record with enrichment := ∅ }.toValue) :
    ∃ m line m₀ line₀,
      WritesLine serde float layer timestamp (scope.map SpanLife.data) (accessEvent level text)
        m line ∧
      WritesLine serde float layer timestamp (scope.map SpanLife.data) (accessEvent level text₀)
        m₀ line₀ ∧
      (∀ key, isAccessReserved key layer.fieldConvention = true → m[key]? = m₀[key]?) ∧
      (∀ key v, isAccessReserved key layer.fieldConvention = false →
        record.enrichment[key]? = some v → m[key]? = some v) ∧
      (∀ key o, (key, o) ∈ record.ownFields → m[key]? = o) ∧
      m["error"]? = none ∧
      (record.traceId = none → ∀ key ∈ providerNames layer.fieldConvention, m[key]? = none) ∧
      (layer.fieldConvention = .gcp → ∃ http : Map, m["httpRequest"]? = some http.toValue ∧
        http["requestMethod"]? = some (.string record.method) ∧
        http["requestUrl"]? = record.path.map .string ∧
        http["status"]? = record.status.map (fun status => .number (.posInt status)) ∧
        http["remoteIp"]? = record.peerIp.map .string ∧
        http["userAgent"]? = record.userAgent.map .string) := by
  replace hdecode : serde.fromStr text = some (record.toValue.mapNumbers id) := by
    rw [mapNumbers_id, hdecode]
  replace hempty : serde.fromStr text₀ =
      some (({ record with enrichment := ∅ } : AccessRecord).toValue.mapNumbers id) := by
    rw [mapNumbers_id, hempty]
  obtain ⟨m, line, hline⟩ := exists_writesLine serde float layer timestamp
    (scope.map SpanLife.data) (accessEvent level text)
  obtain ⟨m₀, line₀, hline₀⟩ := exists_writesLine serde float layer timestamp
    (scope.map SpanLife.data) (accessEvent level text₀)
  have hm := hline.object
  have hm₀ := hline₀.object
  refine ⟨m, line, m₀, line₀, hline, hline₀, fun key hkey => ?_, fun key v hkey hv => ?_,
    fun key o ho => ?_, ?_, fun htrace key hkey => ?_, fun hgcp => ?_⟩
  · have hsame :
        record.ownFields = ({ record with enrichment := ∅ } : AccessRecord).ownFields := rfl
    exact getElem?_line_reserved hsame hdecode hempty hm hm₀ hkey
  · rw [getElem?_line_enrichment hdecode hm hkey hv, mapNumbers_id]
  · rw [getElem?_line_own hdecode hm (mem_ownNames ho)]
    rcases hscope.requestField_eq id key with h | h <;> rw [h, record.ownField_id ho]
    · rw [Option.none_or]
    · rw [Option.or_self]
  · obtain ⟨haccess, hprovider, henvelope⟩ : isAccessReserved "error" layer.fieldConvention = true ∧
        "error" ∉ providerNames layer.fieldConvention ∧
        "error" ∉ envelopeNames layer.fieldConvention := by
      cases layer.fieldConvention <;> decide
    rw [getElem?_line_absent hdecode hm haccess (by decide) (by decide) (by decide) henvelope,
      providerField_of_not_mem hprovider]
  · obtain ⟨haccess, howned, hmessage, hhttp, henvelope⟩ := providerNames_spec _ key hkey
    rw [getElem?_line_absent hdecode hm haccess howned hmessage hhttp henvelope,
      providerField_of_no_trace (hscope.requestField_eq id "trace_id") hdecode htrace]
  · rw [hgcp] at hm
    refine ⟨_, getElem?_line_httpRequest hdecode hm, ?_⟩
    exact ⟨record.getElem?_httpRequest_ownMap float "method" rfl
        (by simp [AccessRecord.accessFields]),
      record.getElem?_httpRequest_ownMap float "path" rfl
        (by simp [AccessRecord.accessFields]),
      record.getElem?_httpRequest_ownMap float "status" rfl
        (by simp [AccessRecord.accessFields]),
      record.getElem?_httpRequest_ownMap float "peer_ip" rfl
        (by simp [AccessRecord.accessFields]),
      record.getElem?_httpRequest_ownMap float "user_agent" rfl
        (by simp [AccessRecord.accessFields])⟩

/-! ### An enrichment with a reserved name -/

def untracedRecord (enrichment : Map) : AccessRecord where
  requestId := "untraced-request"
  correlationId := "untraced-request"
  traceId := none
  parentId := none
  traceFlags := none
  traceSampled := none
  traceIdRandom := none
  method := "GET"
  path := none
  pathTemplate := some "/items/{item_id}"
  operationId := none
  status := none
  durationMs := .integer 3
  peerIp := none
  userAgent := none
  terminalReason := some "response_dropped"
  enrichment := enrichment

def teamEnrichment : Map := (∅ : Map).insert "team" (.string "core") |>.insert "status" .null

theorem depth_teamEnrichment (key : String) (v : Value) (hv : teamEnrichment[key]? = some v) :
    v.depth ≤ 125 := by
  rw [teamEnrichment, getElem?_insert_eq, getElem?_insert_eq, ExtTreeMap.getElem?_empty] at hv
  split at hv
  · cases hv
    simp [Value.depth]
  · split at hv
    · cases hv
      simp [Value.depth]
    · cases hv

theorem reference_fromStr_encode {v : Value} (h : v.depth ≤ 127) :
    SerdeJson.reference.fromStr (encode v) = some v :=
  (decode_encode 128 (by decide) v).trans (if_pos (Nat.lt_succ_of_le h))

theorem formatEvent_enrichment_team :
    ∃ m line, WritesLine .reference .whole genericLayer "2026-01-01T00:00:00Z"
      ([requestSpanLife untracedRequest].map SpanLife.data)
      (accessEvent .error (encode (untracedRecord teamEnrichment).toValue)) m line ∧
      m["team"]? = some (.string "core") ∧ m["status"]? = none ∧
      m["method"]? = some (.string "GET") := by
  have hscope : (untracedRecord teamEnrichment).OwnScope [requestSpanLife untracedRequest] := by
    intro attributes h
    obtain rfl : attributes = requestAttributes untracedRequest := by
      simpa [packageSpans, requestSpanLife, SpanLife.fromPackage, requestAttributes,
        requestMetadata] using h
    exact ⟨untracedRequest, rfl, rfl⟩
  have hdepth :=
    ((untracedRecord teamEnrichment).depth_toValue_le_iff 125).mpr depth_teamEnrichment
  have hempty := (untracedRecord ∅).depth_toValue_le_iff 125 |>.mpr (by simp [untracedRecord])
  obtain ⟨m, line, -, -, hline, -, -, hother, hown, -⟩ := formatEvent_enrichment .reference .whole
    genericLayer "2026-01-01T00:00:00Z" [requestSpanLife untracedRequest] .error
    (untracedRecord teamEnrichment) _ _ hscope (reference_fromStr_encode hdepth)
    (reference_fromStr_encode hempty)
  refine ⟨m, line, hline, hother "team" _ rfl ?_, hown "status" none ?_, hown "method" _ ?_⟩
  · rw [untracedRecord, teamEnrichment, getElem?_insert_eq, getElem?_insert_eq]
    rfl
  · simp [AccessRecord.ownFields, AccessRecord.accessFields, untracedRecord]
  · simp [AccessRecord.ownFields, AccessRecord.accessFields, untracedRecord]

/-! ## The hop through the event -/

/-- A terminal event lies in the span of its own request, whatever is around that;
a subscriber without request spans has none around the event. -/
structure TerminalState.InOwnSpan (state : TerminalState) (platform : Platform)
    (outer scope : List SpanData) : Prop where
  span : state.span = requestSpan platform outer state.requestContext
  disabled : platform.enabled requestMetadata = false → WithoutRequestSpans scope

theorem TerminalState.InOwnSpan.requestField_eq {state : TerminalState} {platform : Platform}
    {outer scope : List SpanData} (h : state.InOwnSpan platform outer scope) {key : String}
    {v : Value} (hv : state.requestContext.correlationField key = some v) :
    requestField (state.span.inScope scope) key = none ∨
      requestField (state.span.inScope scope) key = some v := by
  rw [h.span, requestSpan, requestField]
  by_cases henabled : platform.enabled requestMetadata = true
  · rw [if_pos henabled]
    change (if _ then (requestFields (outer ++ [requestSpanData _]))[key]? else none) = none ∨
      (if _ then (requestFields (outer ++ [requestSpanData _]))[key]? else none) = some v
    rw [getElem?_requestFields_own, hv]
    by_cases hkey : isRequestField key = true
    · exact Or.inr (if_pos hkey)
    · exact Or.inl (if_neg hkey)
  · rw [if_neg henabled]
    change (if _ then (requestFields scope)[key]? else none) = none ∨ _
    rw [requestFields_of_none (h.disabled (by simpa using henabled))]
    exact Or.inl (by simp)

/-- Without its record a terminal line has none of the access fields. -/
theorem getElem?_line_undecoded {serde : SerdeJson} {float : FloatArithmetic}
    {convention : FieldConvention} {timestamp : String} {scope : List SpanData} {level : Level}
    {text : String} {m : Map} (hdecode : serde.fromStr text = none)
    (hm : formatEvent serde float convention timestamp scope (accessEvent level text) = .ok m)
    {key : String} (hkey : key ∈ ownNames) (hrequest : isRequestField key = false) :
    m[key]? = none := by
  obtain ⟨-, hmessage, -, hprovider, henvelope⟩ := ownNames_spec convention key hkey
  rw [getElem?_formatEvent hm, providerField_of_not_mem hprovider,
    getElem?_portableFields_undecoded serde float convention timestamp scope level hdecode,
    envelopeField_of_not_mem henvelope, eventField_accessEvent convention level text key hmessage,
    requestField, hrequest]
  rfl

/-- The line of the event that an armed guard emits. -/
theorem exists_terminalLine (platform : Platform) (state : TerminalState)
    (outcome : TerminalOutcome) (timestamp : String) (w : World)
    (hstatus : outcome = .completed → state.status.isSome = true) :
    ∃ guard w' serialized m line,
      ((⟨some state⟩ : TerminalGuard).finish platform outcome).run w = .ok (guard, w') ∧
      platform.serde.toString (state.terminalRecord outcome w.calls platform.float).toValue =
        some serialized ∧
      w'.emitted = w.emitted ++ [⟨accessEvent (state.level outcome w.calls) serialized,
        state.span.inScope w.scope⟩] ∧
      WritesLine platform.serde platform.float platform.layer timestamp
        (state.span.inScope w.scope) (accessEvent (state.level outcome w.calls) serialized)
        m line := by
  obtain ⟨guard, w', hrun, -, _, ⟨serialized, htext, rfl⟩, hemitted⟩ :=
    TerminalGuard.finish_spec platform outcome
      (show (⟨some state⟩ : TerminalGuard).state = some state from rfl) hstatus w
  obtain ⟨m, line, hline⟩ := exists_writesLine platform.serde platform.float platform.layer
    timestamp (state.span.inScope w.scope) (accessEvent (state.level outcome w.calls) serialized)
  exact ⟨guard, w', serialized, m, line, hrun, htext, hemitted, hline⟩

/-- **The terminal record survives its hop exactly when no value of its enrichment
nests more than 125 containers.**  Otherwise the text in the event cannot be read
back, and the line has none of the access fields. -/
theorem finish_record_iff (platform : Platform) (state : TerminalState)
    (outcome : TerminalOutcome) (timestamp : String) (outer : List SpanData) (w : World)
    (hstatus : outcome = .completed → state.status.isSome = true)
    (hspan : state.InOwnSpan platform outer w.scope) :
    ∃ guard w' emitted m line,
      ((⟨some state⟩ : TerminalGuard).finish platform outcome).run w = .ok (guard, w') ∧
      w'.emitted = w.emitted ++ [emitted] ∧
      WritesLine platform.serde platform.float platform.layer timestamp emitted.scope
        emitted.event m line ∧
      ((∀ key v, (key, some v) ∈
            (state.terminalRecord outcome w.calls platform.float).ownFields →
          m[key]? = some (v.mapNumbers platform.serde.readNumber)) ↔
        ∀ (key : String) (v : Value),
          (state.enrichment (w.calls ++ state.levelCalls outcome ++ [.clock]))[key]? = some v →
            v.depth ≤ 125) := by
  obtain ⟨guard, w', serialized, m, line, hrun, htext, hemitted, hline⟩ :=
    exists_terminalLine platform state outcome timestamp w hstatus
  set record := state.terminalRecord outcome w.calls platform.float with hrecord
  refine ⟨guard, w', _, m, line, hrun, hemitted, hline, ?_⟩
  have hdepth := record.depth_toValue_le_iff 125
  change _ ↔ ∀ (key : String) (v : Value), record.enrichment[key]? = some v → v.depth ≤ 125
  rw [← hdepth]
  have hop := platform.serde.hop _ serialized htext
  by_cases hlt : record.toValue.depth < 128
  · rw [if_pos hlt] at hop
    refine iff_of_true (fun key v hv => ?_) (Nat.le_of_lt_succ hlt)
    have hown := record.ownField_of_mem platform.serde.readNumber hv
    have hrequest : requestField (state.span.inScope w.scope) key = none ∨
        requestField (state.span.inScope w.scope) key =
          some (v.mapNumbers platform.serde.readNumber) := by
      by_cases hkey : isRequestField key = true
      · refine hspan.requestField_eq ?_
        rw [← ownField_of_correlationFields (record_correlationFields state _ _ _ _)
          platform.serde.readNumber hkey]
        exact hown
      · exact Or.inl (if_neg hkey)
    rw [getElem?_line_own hop hline.object (mem_ownNames hv), hown]
    rcases hrequest with h | h <;> rw [h] <;> rfl
  · rw [if_neg hlt] at hop
    refine iff_of_false (fun h => ?_) (by omega)
    have hmethod := h "method" (.string record.method)
      (by simp [AccessRecord.ownFields, AccessRecord.accessFields])
    rw [getElem?_line_undecoded hop hline.object (by decide) rfl] at hmethod
    cases hmethod

/-! ### A dropped response with a deep enrichment -/

def droppedState (enrichment : Map) : TerminalState where
  metadata := ⟨"GET", none, some "/items/{item_id}", none, none, none⟩
  requestContext := untracedRequest
  started := ⟨.zero⟩
  status := none
  config := { ObservabilityConfig.default .reference with enricher := fun _ _ => .ok enrichment }
  span := requestSpan .reference [] untracedRequest

theorem finish_record_team :
    ∃ guard w' emitted m line,
      ((⟨some (droppedState teamEnrichment)⟩ : TerminalGuard).finish .reference
        .responseDropped).run .initial = .ok (guard, w') ∧
      w'.emitted = [emitted] ∧
      WritesLine .reference .whole Platform.reference.layer "2026-01-01T00:00:00Z"
        emitted.scope emitted.event m line ∧ m["method"]? = some (.string "GET") := by
  obtain ⟨guard, w', emitted, m, line, hrun, hemitted, hline, hiff⟩ :=
    finish_record_iff .reference (droppedState teamEnrichment) .responseDropped
      "2026-01-01T00:00:00Z" [] .initial nofun ⟨rfl, nofun⟩
  refine ⟨guard, w', emitted, m, line, hrun, hemitted, hline,
    hiff.mpr depth_teamEnrichment "method" (.string "GET") ?_⟩
  simp [AccessRecord.ownFields, AccessRecord.accessFields, TerminalState.terminalRecord,
    TerminalState.record, droppedState]

def deepEnrichment : Map := (∅ : Map).insert "deep" (nestedArray 126)

theorem exists_deepLine :
    ∃ guard w' emitted m line,
      ((⟨some (droppedState deepEnrichment)⟩ : TerminalGuard).finish .reference
        .responseDropped).run .initial = .ok (guard, w') ∧
      w'.emitted = [emitted] ∧
      WritesLine .reference .whole Platform.reference.layer "2026-01-01T00:00:00Z"
        emitted.scope emitted.event m line ∧
      ∀ key ∈ ownNames, isRequestField key = false → m[key]? = none := by
  obtain ⟨guard, w', serialized, m, line, hrun, htext, hemitted, hline⟩ :=
    exists_terminalLine .reference (droppedState deepEnrichment) .responseDropped
      "2026-01-01T00:00:00Z" .initial nofun
  have hop := SerdeJson.reference.hop _ serialized htext
  rw [if_neg] at hop
  · exact ⟨guard, w', _, m, line, hrun, hemitted, hline, fun key hkey hrequest =>
      getElem?_line_undecoded hop hline.object hkey hrequest⟩
  · intro hlt
    have hdepth := ((droppedState deepEnrichment).terminalRecord
      .responseDropped [] .whole).depth_toValue_le_iff 125 |>.mp (Nat.le_of_lt_succ hlt) "deep"
        (nestedArray 126) (getElem?_insert_eq _ _ _ _ |>.trans (if_pos rfl))
    rw [depth_nestedArray] at hdepth
    omega

/-- **A value of 126 nested arrays takes the access fields with it.** -/
theorem finish_record_deep :
    ∃ guard w' emitted m line,
      ((⟨some (droppedState ((∅ : Map).insert "deep" (nestedArray 126)))⟩ :
        TerminalGuard).finish .reference .responseDropped).run .initial = .ok (guard, w') ∧
      w'.emitted = [emitted] ∧
      WritesLine .reference .whole Platform.reference.layer "2026-01-01T00:00:00Z"
        emitted.scope emitted.event m line ∧
      ("method", some (.string "GET")) ∈ ((droppedState ((∅ : Map).insert "deep"
        (nestedArray 126))).terminalRecord .responseDropped [] .whole).ownFields ∧
      m["method"]? = none ∧ m["duration_ms"]? = none ∧ m["terminal_reason"]? = none := by
  obtain ⟨guard, w', emitted, m, line, hrun, hemitted, hline, hnone⟩ := exists_deepLine
  refine ⟨guard, w', emitted, m, line, hrun, hemitted, hline, ?_, hnone "method" (by decide) rfl,
    hnone "duration_ms" (by decide) rfl, hnone "terminal_reason" (by decide) rfl⟩
  simp [AccessRecord.ownFields, AccessRecord.accessFields, TerminalState.terminalRecord,
    TerminalState.record, droppedState]

end AxumObservability
