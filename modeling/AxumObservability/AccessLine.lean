import AxumObservability.Terminal

/-!
# The line of a terminal event

The terminal record travels through its event as text. What the line of such an
event holds is read off the record and the spans around it.

* `recordFields_requestSpanFields`: a request span shows the correlation fields
  of its context;
* `getElem?_portableFields_decoded`, `getElem?_portableFields_undecoded`: the value
  at every name before the provider projection, with the record read back or lost.
-/

namespace AxumObservability

open Std Library.FieldMap Library.Json Library.Panics Library.Text

/-! ## Correlation fields -/

/-- The correlation fields of a context, with what it lacks left empty. -/
def RequestContext.correlationFields (context : RequestContext) :
    List (String × Option Value) :=
  let trace := context.traceContext
  [("request_id", some (.string context.requestId.asStr)),
    ("correlation_id", some (.string context.correlationId)),
    ("trace_id", trace.map fun trace => .string trace.traceId),
    ("parent_id", trace.map fun trace => .string trace.parentId),
    ("trace_flags", trace.map fun trace => .string (lowerHex02 trace.flags)),
    ("trace_sampled", trace.map fun trace => .bool trace.sampled),
    ("trace_id_random", (trace.bind TraceContext.traceIdRandom).map .bool)]

def RequestContext.correlationField (context : RequestContext) (key : String) : Option Value :=
  (context.correlationFields.lookup key).join

/-- The span of a request with its context's fields. -/
def requestSpanData (context : RequestContext) : SpanData := onNewSpan (requestAttributes context)

theorem recordFields_requestSpanFields (context : RequestContext) :
    recordFields (requestSpanFields context) = .ofList (ofOptions context.correlationFields) := by
  rw [recordFields_eq, requestSpanFields, RequestContext.correlationFields]
  cases context.traceContext with
  | none => rfl
  | some trace => cases htrace : trace.traceIdRandom <;> simp [FieldValue.toJson, htrace]

theorem requestSpanData_requestSpanFields (context : RequestContext) :
    (requestSpanData context).requestSpanFields =
      some (.ofList (ofOptions context.correlationFields)) := by
  rw [← recordFields_requestSpanFields]
  rfl

theorem getElem?_correlationFields (context : RequestContext) (key : String) :
    (ExtTreeMap.ofList (ofOptions context.correlationFields) : Map)[key]? =
      context.correlationField key :=
  getElem?_ofOptions (by simp [RequestContext.correlationFields]) key

/-- Innermost, the span of a request shows its own fields first. -/
theorem getElem?_requestFields_own (scope : List SpanData) (context : RequestContext)
    (key : String) : (requestFields (scope ++ [requestSpanData context]))[key]? =
      (context.correlationField key).or (requestFields scope)[key]? := by
  rw [getElem?_requestFields_concat, requestSpanData_requestSpanFields, Option.bind_some,
    getElem?_correlationFields]

/-! ## The record read back -/

namespace AccessRecord

variable (record : AccessRecord) (read : Number → Number)

/-- The record's own fields, the enrichment left out, as they read back. -/
def ownField (key : String) : Option Value :=
  (record.ownFields.lookup key).join.map (Value.mapNumbers read)

theorem ownField_of_mem {key : String} {o : Option Value} (h : (key, o) ∈ record.ownFields) :
    record.ownField read key = o.map (Value.mapNumbers read) := by
  rw [ownField, lookup_of_mem record.ownFields_nodup h]
  rfl

/-- Own fields hold texts, flags and numbers. -/
theorem ownFields_scalar {key : String} {v : Value} (h : (key, some v) ∈ record.ownFields) :
    v.isNull = false ∧ v.depth = 0 := by
  have hmap : ∀ {α : Type} (o : Option α) (f : α → Value),
      (∀ a, (f a).isNull = false ∧ (f a).depth = 0) → some v = o.map f →
        v.isNull = false ∧ v.depth = 0 := by
    rintro α (_ | a) f hf ⟨⟩
    exact hf a
  simp only [ownFields, correlationFields, accessFields, List.cons_append, List.nil_append,
    List.mem_cons, Prod.mk.injEq, Option.some.injEq, List.not_mem_nil, or_false] at h
  rcases h with ⟨-, rfl⟩ | ⟨-, rfl⟩ | ⟨-, h⟩ | ⟨-, h⟩ | ⟨-, h⟩ | ⟨-, h⟩ | ⟨-, h⟩ | ⟨-, rfl⟩ |
    ⟨-, h⟩ | ⟨-, h⟩ | ⟨-, h⟩ | ⟨-, h⟩ | ⟨-, rfl⟩ | ⟨-, h⟩ | ⟨-, h⟩ | ⟨-, h⟩
  all_goals
    first
    | exact ⟨rfl, by simp [Value.depth]⟩
    | exact hmap _ _ (fun _ => ⟨rfl, by simp [Value.depth]⟩) h

/-- **How deep a record nests** is a matter of its enrichment. -/
theorem depth_toValue_le_iff (d : Nat) : record.toValue.depth ≤ d + 2 ↔
    ∀ (key : String) (v : Value), record.enrichment[key]? = some v → v.depth ≤ d := by
  have hmem : ∀ key v, (key, v) ∈ ofOptions record.fields ↔
      (key, some v) ∈ record.ownFields ∨ (key, v) = ("enrichment", record.enrichment.toValue) := by
    intro key v
    rw [mem_ofOptions, fields, List.mem_append, List.mem_singleton]
    simp
  rw [toValue, Value.depth, Nat.add_comm, Nat.add_le_add_iff_right, depthMembers_le_iff,
    ← Library.Json.depth_toValue_le_iff]
  simp only [hmem]
  constructor
  · exact fun h => h "enrichment" _ (Or.inr rfl)
  · rintro h key v (hown | heq)
    · rw [(record.ownFields_scalar hown).2]
      omega
    · cases heq
      exact h

theorem ownField_not_null (key : String) :
    (record.ownField read key).filter (fun v => !v.isNull) = record.ownField read key := by
  rw [ownField]
  cases hk : (record.ownFields.lookup key).join with
  | none => rfl
  | some v =>
    obtain ⟨before, after, heq, -⟩ := List.lookup_eq_some_iff.mp (Option.join_eq_some_iff.mp hk)
    have hv := (record.ownFields_scalar (show (key, some v) ∈ record.ownFields by rw [heq]; simp)).1
    simp [Option.filter, isNull_mapNumbers, hv]

/-- The record's own fields as a map. -/
def ownMap : Map :=
  .ofList (ofOptions (record.ownFields.map fun f => (f.1, f.2.map (Value.mapNumbers read))))

theorem getElem?_ownMap (key : String) : (record.ownMap read)[key]? = record.ownField read key := by
  have hn : ((record.ownFields.map fun f => (f.1, f.2.map (Value.mapNumbers read))).map
      Prod.fst).Nodup := by
    rw [List.map_map]
    exact record.ownFields_nodup
  rw [ownMap, getElem?_ofOptions hn, lookup_map, ownField]
  cases record.ownFields.lookup key <;> rfl

theorem ownField_enrichment : record.ownField read "enrichment" = none := rfl

theorem getElem?_readBack_of_ne {key : String} (h : key ≠ "enrichment") :
    (record.readBack read)[key]? = record.ownField read key := by
  rw [getElem?_readBack, ownField, fields, List.lookup_append]
  simp [List.lookup_cons, beq_false_of_ne h]

theorem getElem?_readBack_enrichment : (record.readBack read)["enrichment"]? =
    some (record.enrichment.toValue.mapNumbers read) := by
  rw [getElem?_readBack, fields, List.lookup_append]
  rfl

end AccessRecord

/-! ## The event of a record -/

/-- What the record itself writes: its message and its own fields. -/
theorem recordField_readBack (record : AccessRecord) (read : Number → Number) (key : String) :
    recordField (record.readBack read) key =
      if "message" = key then some (.string "request completed")
      else record.ownField read key := by
  rw [recordField]
  split
  · rfl
  · by_cases h : "enrichment" = key
    · subst h
      rw [if_pos rfl, record.ownField_enrichment]
    · rw [if_neg h, record.getElem?_readBack_of_ne read (Ne.symm h), record.ownField_not_null]

theorem enrichmentField_readBack (convention : FieldConvention) (record : AccessRecord)
    (read : Number → Number) (key : String) :
    enrichmentField convention (record.readBack read) key =
      if isAccessReserved key convention then none
      else record.enrichment[key]?.map (Value.mapNumbers read) := by
  rw [enrichmentField, record.getElem?_readBack_enrichment, Option.bind_some, asObject_mapNumbers]

section

variable (serde : SerdeJson) (float : FloatArithmetic) (convention : FieldConvention)
  (timestamp : String) (scope : List SpanData) (level : Level)

theorem recordFields_accessEvent (text key : String) :
    (recordFields (accessEvent level text).fields)[key]? =
      if "obs.record" = key then some (.string text)
      else if "message" = key then some (.string "request completed")
      else none := by
  rw [recordFields_eq, getElem?_ofOptions (by simp [accessEvent])]
  simp only [accessEvent, List.map_cons, List.map_nil, List.lookup_cons, List.lookup_nil]
  by_cases hr : "obs.record" = key
  · subst hr
    rfl
  · by_cases hm : "message" = key
    · subst hm
      rfl
    · rw [if_neg hr, if_neg hm, beq_false_of_ne (Ne.symm hr), beq_false_of_ne (Ne.symm hm)]
      rfl

/-- The terminal event of the package is trusted, and its text is decoded. -/
theorem accessRecordOf_accessEvent (text : String) :
    accessRecordOf serde (accessEvent level text).metadata
      (recordFields (accessEvent level text).fields) = serde.fromStr text := by
  have htrusted : trustedAccessCallsite (accessEvent level text).metadata = true := by
    simp [trustedAccessCallsite, accessEvent, accessMetadata]
  rw [accessRecordOf, if_pos htrusted, recordFields_accessEvent]
  rfl

/-- The event of a record has no field of its own but the message. -/
theorem eventField_accessEvent (text key : String) (h : "message" ≠ key) :
    eventField convention (accessEvent level text) key = none := by
  rw [eventField, recordFields_accessEvent, if_neg h]
  split
  · rfl
  · rename_i hr
    refine if_neg ?_
    rintro rfl
    exact hr (by simp [isEventReserved])

/-- **A terminal event without its record**, before the provider fields: a text
that cannot be read back leaves the message, the envelope and the spans. -/
theorem getElem?_portableFields_undecoded {text : String} (hdecode : serde.fromStr text = none)
    (key : String) :
    (portableFields serde float convention timestamp scope (accessEvent level text))[key]? =
      (requestField scope key).or ((envelopeField convention timestamp (accessMetadata level)
        key).or (eventField convention (accessEvent level text) key)) :=
  getElem?_portableFields_of_none serde float convention timestamp scope _
    (by rw [accessRecordOf_accessEvent, hdecode]) key

/-- **A terminal event with its record**, before the provider fields: the spans,
the request object, the enrichment, the record and the envelope, in this order. -/
theorem getElem?_portableFields_decoded {text : String} {record : AccessRecord}
    {read : Number → Number}
    (hdecode : serde.fromStr text = some (record.toValue.mapNumbers read)) (key : String) :
    (portableFields serde float convention timestamp scope (accessEvent level text))[key]? =
      (requestField scope key).or
        (if convention = .gcp ∧ "httpRequest" = key then
          some (httpRequest float (record.ownMap read)).toValue
        else
          (if isAccessReserved key convention then none
            else record.enrichment[key]?.map (Value.mapNumbers read)).or
          ((if "message" = key then some (.string "request completed")
            else record.ownField read key).or
              (envelopeField convention timestamp (accessMetadata level) key))) := by
  have hmerged : ∀ key : String,
      (mergeRecordFields (envelope convention timestamp (accessEvent level text).metadata
        (insertWhere (fun key _ => !isEventReserved key convention) ∅
          (eventFields (accessEvent level text).metadata
            (recordFields (accessEvent level text).fields)))) (record.readBack read)
              convention)[key]? =
        (if isAccessReserved key convention then none
          else record.enrichment[key]?.map (Value.mapNumbers read)).or
        ((if "message" = key then some (.string "request completed")
          else record.ownField read key).or
            (envelopeField convention timestamp (accessMetadata level) key)) := by
    intro key
    rw [getElem?_mergeRecordFields, enrichmentField_readBack, recordField_readBack,
      getElem?_envelope, getElem?_eventFields]
    by_cases hm : "message" = key
    · rw [if_pos hm, Option.some_or, Option.some_or]
    · rw [eventField_accessEvent _ _ _ _ hm, Option.or_none]
      rfl
  rw [getElem?_portableFields_of_record serde float convention timestamp scope _
    ((accessRecordOf_accessEvent serde level text).trans hdecode) (record.asObject_mapNumbers read),
    getElem?_mergeAccessRecord, hmerged]
  refine congrArg (Option.or _) (if_congr Iff.rfl (congrArg _ (congrArg _ ?_)) rfl)
  refine httpRequest_congr float fun key hkey => ?_
  obtain ⟨haccess, hevent, hmessage⟩ : isAccessReserved key convention = true ∧
      isEventReserved key convention = false ∧ "message" ≠ key := by
    simp only [List.mem_cons, List.not_mem_nil, or_false] at hkey
    rcases hkey with rfl | rfl | rfl | rfl | rfl | rfl <;>
      cases convention <;> exact ⟨rfl, rfl, by decide⟩
  rw [hmerged, if_pos haccess, if_neg hmessage, envelopeField_of_not_reserved hevent,
    record.getElem?_ownMap, Option.none_or, Option.or_none]

end

end AxumObservability
