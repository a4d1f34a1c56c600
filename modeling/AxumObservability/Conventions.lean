import AxumObservability.Projection

/-!
# From one convention to another

A convention renames the level, derives aliases for a provider and, on a terminal line, one
object more. It leaves the rest of a line alone, and what it derives it derives from there.

* `getElem?_portableFields_convention`: what two conventions have in common;
* `formatEvent_conventions`: the line under one convention from the line under another.
-/

namespace AxumObservability

open Std Library.FieldMap Library.Json Library.Panics Library.Text

/-! ## The names of a convention -/

/-- The record that a terminal event brings, if it can be read back. -/
def recordOf (serde : SerdeJson) (event : Event) : Option Map :=
  (accessRecordOf serde event.metadata (recordFields event.fields)).bind Value.asObject

/-- The names that a convention owns, on a terminal line or on another one. -/
def ownedNames (convention : FieldConvention) (terminal : Bool) : List String :=
  levelKey convention :: providerNames convention ++
    if terminal && convention == .gcp then ["httpRequest"] else []

/-- A name that no convention owns is reserved under all of them or under none. -/
theorem isEventReserved_of_not_owned {convention : FieldConvention} {terminal : Bool}
    {key : String} (h : key ∉ ownedNames convention terminal) :
    isEventReserved key convention =
      (isRequestField key || key ∈ ["timestamp", "target", "obs.record"]) := by
  have hnames : key ∉ levelKey convention :: providerNames convention := fun hmem =>
    h (List.mem_append_left _ hmem)
  cases convention <;>
    simp only [levelKey, providerNames, reduceCtorEq, ↓reduceIte, List.mem_cons,
      List.not_mem_nil, or_false, not_or] at hnames <;>
    simp [isEventReserved, hnames]

theorem isAccessReserved_of_not_owned {convention : FieldConvention} {key : String}
    (h : key ∉ ownedNames convention true) :
    isAccessReserved key convention =
      (isRequestField key || key ∈ ["timestamp", "target", "obs.record"] ||
        key ∈ ["message", "method", "path", "path_template", "operation_id", "status",
          "duration_ms", "peer_ip", "user_agent", "terminal_reason", "error"]) := by
  have hhttp : (convention == .gcp && key == "httpRequest") = false := by
    cases convention with
    | gcp => simp [ownedNames] at h; simp [h]
    | _ => rfl
  rw [isAccessReserved, isEventReserved_of_not_owned h, hhttp, Bool.or_false]

theorem envelopeField_of_not_owned {convention : FieldConvention} {terminal : Bool}
    {key : String} (h : key ∉ ownedNames convention terminal) (timestamp : String)
    (metadata : Metadata) : envelopeField convention timestamp metadata key =
      if "target" = key then some (.string metadata.target)
      else if "timestamp" = key then some (.string timestamp)
      else none := by
  have hlevel : levelKey convention ≠ key := fun heq => h (by simp [ownedNames, heq])
  rw [envelopeField, if_neg hlevel]

/-! ## What conventions have in common -/

section

variable (serde : SerdeJson) (float : FloatArithmetic) (timestamp : String)
  (scope : List SpanData) (event : Event)

/-- The envelope with the event's own fields. -/
def envelopeOf (convention : FieldConvention) (timestamp : String) (event : Event) : Map :=
  envelope convention timestamp event.metadata
    (insertWhere (fun key _ => !isEventReserved key convention) ∅
      (eventFields event.metadata (recordFields event.fields)))

theorem getElem?_envelopeOf (convention : FieldConvention) (key : String) :
    (envelopeOf convention timestamp event)[key]? =
      (envelopeField convention timestamp event.metadata key).or
        (eventField convention event key) := by
  rw [envelopeOf, getElem?_envelope, getElem?_eventFields]

/-- The stages before the provider projection, for any event. -/
theorem getElem?_portableFields (convention : FieldConvention) (key : String) :
    (portableFields serde float convention timestamp scope event)[key]? =
      (requestField scope key).or ((match recordOf serde event with
        | some record =>
          mergeAccessRecord float (envelopeOf convention timestamp event) record convention
        | none => envelopeOf convention timestamp event)[key]?) := by
  rw [portableFields, getElem?_insertWhere, filter_const]
  rfl

variable {convention convention' : FieldConvention} {key : String}

/-- Under a name that neither of them owns, two conventions collect the same. -/
theorem getElem?_envelopeOf_convention {terminal : Bool}
    (hkey : key ∉ ownedNames convention terminal) (hkey' : key ∉ ownedNames convention' terminal) :
    (envelopeOf convention timestamp event)[key]? =
      (envelopeOf convention' timestamp event)[key]? := by
  rw [getElem?_envelopeOf, getElem?_envelopeOf, envelopeField_of_not_owned hkey,
    envelopeField_of_not_owned hkey', eventField, eventField, isEventReserved_of_not_owned hkey,
    isEventReserved_of_not_owned hkey']

theorem getElem?_mergeRecordFields_convention (record : Map)
    (hkey : key ∉ ownedNames convention true) (hkey' : key ∉ ownedNames convention' true) :
    (mergeRecordFields (envelopeOf convention timestamp event) record convention)[key]? =
      (mergeRecordFields (envelopeOf convention' timestamp event) record convention')[key]? := by
  rw [getElem?_mergeRecordFields, getElem?_mergeRecordFields, enrichmentField, enrichmentField,
    isAccessReserved_of_not_owned hkey, isAccessReserved_of_not_owned hkey',
    getElem?_envelopeOf_convention timestamp event hkey hkey']

/-- **The part in common.**  Before the provider projection two conventions agree at every
name that neither owns. -/
theorem getElem?_portableFields_convention
    (hkey : key ∉ ownedNames convention (recordOf serde event).isSome)
    (hkey' : key ∉ ownedNames convention' (recordOf serde event).isSome) :
    (portableFields serde float convention timestamp scope event)[key]? =
      (portableFields serde float convention' timestamp scope event)[key]? := by
  rw [getElem?_portableFields, getElem?_portableFields]
  cases hrecord : recordOf serde event with
  | none =>
    rw [hrecord] at hkey hkey'
    dsimp only
    rw [getElem?_envelopeOf_convention timestamp event hkey hkey']
  | some record =>
    rw [hrecord] at hkey hkey'
    have hhttp : ∀ convention, key ∉ ownedNames convention true →
        ¬ (convention = .gcp ∧ "httpRequest" = key) := by
      rintro convention hnot ⟨rfl, rfl⟩
      exact hnot (by simp [ownedNames])
    dsimp only
    rw [getElem?_mergeAccessRecord, getElem?_mergeAccessRecord, if_neg (hhttp _ hkey),
      if_neg (hhttp _ hkey'),
      getElem?_mergeRecordFields_convention timestamp event record hkey hkey']

end

/-! ## What a convention derives -/

section

variable {serde : SerdeJson} {float : FloatArithmetic} {convention convention' : FieldConvention}
  {timestamp : String} {scope : List SpanData} {event : Event} {context : RequestContext}

theorem not_owned_of_isRequestField {key : String} (h : isRequestField key = true)
    (convention : FieldConvention) (terminal : Bool) : key ∉ ownedNames convention terminal := by
  rcases requestField_cases h with rfl | rfl | rfl | rfl | rfl | rfl | rfl <;>
    cases convention <;> cases terminal <;> decide

/-- The six names that a request object is made of. -/
theorem not_owned_of_mem_httpRequest {key : String}
    (h : key ∈ ["method", "path", "status", "peer_ip", "user_agent", "duration_ms"])
    (convention : FieldConvention) :
    key ∉ ownedNames convention true ∧ isRequestField key = false ∧ "httpRequest" ≠ key := by
  simp only [List.mem_cons, List.not_mem_nil, or_false] at h
  rcases h with rfl | rfl | rfl | rfl | rfl | rfl <;> cases convention <;> decide

/-- **No event replaces the level**, be it from the application or the terminal one, with its
record or without. -/
theorem getElem?_portableFields_level (convention : FieldConvention) (timestamp : String)
    (scope : List SpanData) (hevent : event.metadata.modulePath ≠ some middlewareModule ∨
      IsTerminalEvent serde float context event) :
    (portableFields serde float convention timestamp scope event)[levelKey convention]? =
      some (.string (levelName event.metadata.level convention)) := by
  have hlevel : envelopeField convention timestamp event.metadata (levelKey convention) =
      some (.string (levelName event.metadata.level convention)) := if_pos rfl
  obtain ⟨hrequest, haccess, hown, hmessage, hhttp⟩ :
      isRequestField (levelKey convention) = false ∧
        isAccessReserved (levelKey convention) convention = true ∧
        levelKey convention ∉ ownNames ∧ "message" ≠ levelKey convention ∧
        "httpRequest" ≠ levelKey convention := by
    cases convention <;> decide
  have hspans : requestField scope (levelKey convention) = none := by
    rw [requestField, hrequest]
    rfl
  have hnone : accessRecordOf serde event.metadata (recordFields event.fields) = none →
      (portableFields serde float convention timestamp scope event)[levelKey convention]? =
        some (.string (levelName event.metadata.level convention)) := by
    intro h
    rw [getElem?_portableFields_of_none serde float convention timestamp scope event h, hspans,
      hlevel]
    rfl
  rcases hevent with happlication | ⟨state, outcome, finished, enrichment, level, text, rfl,
    htext, rfl⟩
  · exact hnone (accessRecordOf_application serde happlication _)
  · have hop := serde.hop _ text htext
    split at hop
    · have hlookup : (state.record float outcome finished enrichment).ownFields.lookup
          (levelKey convention) = none := by
        rw [List.lookup_eq_none_iff]
        rintro ⟨k, o⟩ hmem
        exact bne_iff_ne.mpr fun h => hown (h ▸ mem_ownNames hmem)
      rw [getElem?_portableFields_decoded serde float convention timestamp scope level hop, hspans,
        if_neg (fun h => hhttp h.2), if_pos haccess, if_neg hmessage, AccessRecord.ownField,
        hlookup]
      exact hlevel
    · exact hnone ((accessRecordOf_accessEvent serde level text).trans hop)

/-- Two lines of one event agree where the maps before the provider projection do. -/
theorem getElem?_formatEvent_convention {m m' : Map}
    (hm : formatEvent serde float convention timestamp scope event = .ok m)
    (hm' : formatEvent serde float convention' timestamp scope event = .ok m') {key : String}
    (hkey : key ∉ ownedNames convention (recordOf serde event).isSome)
    (hkey' : key ∉ ownedNames convention' (recordOf serde event).isSome) :
    m'[key]? = m[key]? := by
  have hprovider : ∀ {convention}, key ∉ ownedNames convention (recordOf serde event).isSome →
      key ∉ providerNames convention := fun h hmem =>
    h (List.mem_append_left _ (List.mem_cons_of_mem _ hmem))
  rw [getElem?_formatEvent hm, getElem?_formatEvent hm', providerField_of_not_mem (hprovider hkey),
    providerField_of_not_mem (hprovider hkey'), Option.none_or, Option.none_or,
    getElem?_portableFields_convention serde float timestamp scope event hkey hkey']

end

/-- **From one convention to another.**  The lines of one event under two conventions agree at
every name that neither owns: the application's own fields, the correlation, the terminal
record and its enrichment are the same. What the second one owns it derives from the first
line: the level by its own name for it, the provider aliases from the correlation fields, and
the request object of a terminal record from the portable fields. -/
theorem formatEvent_conventions (serde : SerdeJson) (float : FloatArithmetic) (timestamp : String)
    (scope : List SpanData) (event : Event) (context : RequestContext)
    (hevent : event.metadata.modulePath ≠ some middlewareModule ∨
      IsTerminalEvent serde float context event) (convention convention' : FieldConvention) :
    let terminal := (recordOf serde event).isSome
    ∃ m m', formatEvent serde float convention timestamp scope event = .ok m ∧
      formatEvent serde float convention' timestamp scope event = .ok m' ∧
      (∀ key, key ∉ ownedNames convention terminal → key ∉ ownedNames convention' terminal →
        m'[key]? = m[key]?) ∧
      m'[levelKey convention']? = some (.string (levelName event.metadata.level convention')) ∧
      (∀ key ∈ providerNames convention', m'[key]? = providerField convention' m key) ∧
      (convention' = .gcp → terminal = true →
        m'["httpRequest"]? = some (httpRequest float m).toValue) := by
  intro terminal
  obtain ⟨m, hm, hspec⟩ := formatEvent_spec serde float convention timestamp scope event
  obtain ⟨m', hm', hspec'⟩ := formatEvent_spec serde float convention' timestamp scope event
  have hcommon : ∀ key, key ∉ ownedNames convention terminal →
      key ∉ ownedNames convention' terminal → m'[key]? = m[key]? := fun key hkey hkey' =>
    getElem?_formatEvent_convention hm hm' hkey hkey'
  refine ⟨m, m', hm, hm', hcommon, ?_, fun key hkey => ?_, ?_⟩
  · have hprovider : levelKey convention' ∉ providerNames convention' := by
      cases convention' <;> decide
    rw [hspec', providerField_of_not_mem hprovider, Option.none_or,
      getElem?_portableFields_level convention' timestamp scope hevent]
  · rw [hspec', getElem?_portableFields_provider timestamp scope hevent hkey, Option.or_none]
    refine providerField_congr convention' (fun key hkey => ?_) key
    rw [← hcommon key (not_owned_of_isRequestField hkey _ _) (not_owned_of_isRequestField hkey _ _),
      hspec', providerField_of_not_mem (requestField_not_mem hkey convention').1, Option.none_or]
  · rintro rfl hterminal
    obtain ⟨record, hrecord⟩ := Option.isSome_iff_exists.mp hterminal
    have hhttp : requestField scope "httpRequest" = none := rfl
    rw [hspec', providerField_of_not_mem (by decide), Option.none_or, getElem?_portableFields,
      hrecord, hhttp, Option.none_or]
    dsimp only
    rw [getElem?_mergeAccessRecord, if_pos ⟨rfl, rfl⟩]
    refine congrArg (fun http : Map => some http.toValue)
      (httpRequest_congr float fun key hkey => ?_)
    obtain ⟨howned, hrequest, hname⟩ := not_owned_of_mem_httpRequest hkey convention
    obtain ⟨howned', -, -⟩ := not_owned_of_mem_httpRequest hkey .gcp
    have hprovider : key ∉ providerNames convention := fun hmem =>
      howned (List.mem_append_left _ (List.mem_cons_of_mem _ hmem))
    have hspans : requestField scope key = none := by
      rw [requestField, hrequest]
      rfl
    rw [hspec, providerField_of_not_mem hprovider, Option.none_or, getElem?_portableFields,
      hrecord, hspans, Option.none_or]
    dsimp only
    rw [getElem?_mergeAccessRecord, if_neg (fun h => hname h.2),
      getElem?_mergeRecordFields_convention timestamp event record howned' howned]

/-! ### A terminal event without a provider and under GCP -/

def tracedState : TerminalState :=
  { droppedState teamEnrichment with requestContext := tracedRequest }

theorem formatEvent_conventions_dropped :
    ∃ text m m', SerdeJson.reference.toString
        (tracedState.record .whole .responseDropped ⟨.zero⟩ teamEnrichment).toValue = some text ∧
      formatEvent .reference .whole .generic "2026-01-01T00:00:00Z"
        [requestSpanData tracedRequest] (accessEvent .error text) = .ok m ∧
      formatEvent .reference .whole .gcp "2026-01-01T00:00:00Z"
        [requestSpanData tracedRequest] (accessEvent .error text) = .ok m' ∧
      m'["team"]? = m["team"]? ∧ m'["severity"]? = some (.string "ERROR") ∧
      m'["logging.googleapis.com/trace"]? =
        some (.string "4bf92f3577b34da6a3ce929d0e0e4736") ∧
      m'["httpRequest"]? = some (httpRequest .whole m).toValue := by
  obtain ⟨record, hrecord⟩ : ∃ record, tracedState.record .whole .responseDropped ⟨.zero⟩
    teamEnrichment = record := ⟨_, rfl⟩
  have hdepth : record.toValue.depth ≤ 127 := by
    rw [← hrecord]
    exact (AccessRecord.depth_toValue_le_iff _ 125).mpr depth_teamEnrichment
  have htext : SerdeJson.reference.toString record.toValue = some (encode record.toValue) := rfl
  have hdecode := reference_fromStr_encode hdepth
  have hterminal : (recordOf .reference (accessEvent .error (encode record.toValue))).isSome =
      true := by
    rw [recordOf, accessRecordOf_accessEvent, hdecode]
    rfl
  have hevent : IsTerminalEvent .reference .whole tracedRequest
      (accessEvent .error (encode record.toValue)) :=
    ⟨tracedState, .responseDropped, ⟨.zero⟩, teamEnrichment, .error, _, rfl, by rw [hrecord, htext],
      rfl⟩
  obtain ⟨m, m', hm, hm', hcommon, hlevel, hprovider, hhttp⟩ := formatEvent_conventions .reference
    .whole "2026-01-01T00:00:00Z" [requestSpanData tracedRequest] _ tracedRequest (Or.inr hevent)
    .generic .gcp
  have htraceId : tracedRequest.correlationField "trace_id" =
      some (.string "4bf92f3577b34da6a3ce929d0e0e4736") := rfl
  refine ⟨_, m, m', by rw [hrecord, htext], hm, hm', hcommon "team" ?_ ?_, hlevel, ?_,
    hhttp rfl hterminal⟩
  · rw [hterminal]
    decide
  · rw [hterminal]
    decide
  · obtain ⟨added, -, htrace⟩ := getElem?_portableFields_correlation .generic
      "2026-01-01T00:00:00Z" [requestSpanData tracedRequest] (Or.inr hevent)
      (rfl : isRequestField "trace_id" = true)
    have hnone : WithoutRequestSpans [] := nofun
    have hown : requestField [requestSpanData tracedRequest] "trace_id" = _ :=
      (requestField_own hnone tracedRequest rfl).trans htraceId
    have hvalidated : validatedTraceId m = some "4bf92f3577b34da6a3ce929d0e0e4736" := by
      refine (validatedTraceId_eq_some_iff _ _).mpr ⟨?_, ⟨by decide +kernel, by decide +kernel,
        by decide +kernel⟩⟩
      rw [getElem?_formatEvent hm, providerField_of_not_mem (by decide), Option.none_or, htrace,
        hown, Option.some_or]
    rw [hprovider _ (by decide), providerField, hvalidated]
    rfl

end AxumObservability
