import AxumObservability.Correlation
import AxumObservability.Framing

/-!
# Reading the log back

The log is read by splitting it into lines and decoding each one. The layer checks none of
its lines against the limit of the decoder; that all of them can be read is a matter of
what an event can bring into one.

* `depth_formatEvent`: how deep the object of a line nests;
* `readLines_sink`: the log of any events reads back as their objects.
-/

namespace AxumObservability

open Std Library.FieldMap Library.Json Library.Panics Library.Text

/-- What a reader makes of a log: every line that has ended, decoded. -/
def readLines (serde : SerdeJson) (log : Bytes) : List (Option Value) :=
  (log.splitOn lineFeed).dropLast.map fun line => (fromUtf8 line).bind serde.fromStr

/-- An event of a callsite outside the middleware, or the terminal one of a request. -/
def Genuine (serde : SerdeJson) (float : FloatArithmetic) (event : Event) : Prop :=
  event.metadata.modulePath ≠ some middlewareModule ∨
    ∃ context, IsTerminalEvent serde float context event

/-- The layer has seen every span of the scope from its creation. -/
def Registered (scope : List SpanData) : Prop :=
  ∀ span ∈ scope, ∃ attributes, span = onNewSpan attributes

/-! ## How deep a line nests -/

theorem nestsWithin_toJson (o : Option FieldValue) :
    NestsWithin 0 (o.map FieldValue.toJson) := by
  intro v hv
  obtain ⟨value, -, rfl⟩ := Option.map_eq_some_iff.mp hv
  cases value with
  | f64 finite => cases finite <;> simp [FieldValue.toJson, Value.depth]
  | _ => simp [FieldValue.toJson, Value.depth]

/-- Recorded fields are scalars. -/
theorem nestsWithin_recordFields (fields : Fields) (key : String) :
    NestsWithin 0 (recordFields fields)[key]? := by
  rw [recordFields]
  refine List.foldlRecOn (motive := fun m : Map => NestsWithin 0 m[key]?) fields _ ?_ ?_
  · simp [NestsWithin]
  · intro m hm field _
    cases field.2 with
    | none => exact hm
    | some value =>
      dsimp only
      rw [getElem?_insert_eq]
      split
      · exact nestsWithin_toJson (some value)
      · exact hm

theorem nestsWithin_requestFields {scope : List SpanData} (hscope : Registered scope)
    (key : String) : NestsWithin 0 (requestFields scope)[key]? := by
  induction scope using List.reverseRecOn with
  | nil => simp [requestFields, NestsWithin]
  | append_singleton scope span ih =>
    obtain ⟨hrest, hspan⟩ := List.forall_mem_append.mp hscope
    obtain ⟨attributes, rfl⟩ := hspan span (List.mem_singleton.mpr rfl)
    rw [getElem?_requestFields_concat, onNewSpan]
    refine NestsWithin.or ?_ (ih hrest)
    split
    · exact NestsWithin.none 0
    · exact nestsWithin_recordFields attributes.fields key

theorem nestsWithin_requestField {scope : List SpanData} (hscope : Registered scope)
    (key : String) : NestsWithin 0 (requestField scope key) := by
  rw [requestField]
  split
  · exact nestsWithin_requestFields hscope key
  · exact NestsWithin.none 0

theorem nestsWithin_envelopeField (convention : FieldConvention) (timestamp : String)
    (metadata : Metadata) (key : String) :
    NestsWithin 0 (envelopeField convention timestamp metadata key) := by
  unfold envelopeField
  split
  · exact NestsWithin.some (by simp [Value.depth])
  · split
    · exact NestsWithin.some (by simp [Value.depth])
    · split
      · exact NestsWithin.some (by simp [Value.depth])
      · exact NestsWithin.none 0

theorem nestsWithin_eventField (convention : FieldConvention) (event : Event) (key : String) :
    NestsWithin 0 (eventField convention event key) := by
  rw [eventField]
  split
  · exact NestsWithin.none 0
  · exact nestsWithin_recordFields event.fields key

theorem nestsWithin_ownField (record : AccessRecord) (read : Number → Number) (key : String) :
    NestsWithin 0 (record.ownField read key) := by
  refine NestsWithin.map ?_ read
  intro v hv
  obtain ⟨before, after, heq, -⟩ := List.lookup_eq_some_iff.mp (Option.join_eq_some_iff.mp hv)
  exact (record.ownFields_scalar (show (key, some v) ∈ record.ownFields by rw [heq]; simp)).2.le

/-- The request object holds scalars. -/
theorem depth_httpRequest (float : FloatArithmetic) (record : AccessRecord)
    (read : Number → Number) : (httpRequest float (record.ownMap read)).toValue.depth ≤ 1 := by
  refine NestsWithin.toValue fun key => ?_
  have hown : ∀ key : String, NestsWithin 0 (record.ownMap read)[key]? := fun key => by
    rw [record.getElem?_ownMap]
    exact nestsWithin_ownField record read key
  rw [getElem?_httpRequest, httpRequestField]
  split
  · intro v hv
    obtain ⟨latency, -, rfl⟩ := Option.map_eq_some_iff.mp hv
    simp [Value.depth]
  · repeat
      split
      · exact hown _
    exact NestsWithin.none 0

section

variable {serde : SerdeJson} {float : FloatArithmetic} {convention : FieldConvention}
  {timestamp : String} {scope : List SpanData} {event : Event}

/-- **What an event can bring into a line.**  An enrichment that nests too deeply for the
decoder is lost with its record, so what is left nests less. -/
theorem nestsWithin_portableFields (hevent : Genuine serde float event)
    (hscope : Registered scope) (key : String) :
    NestsWithin 125 (portableFields serde float convention timestamp scope event)[key]? := by
  have hrequest := (nestsWithin_requestField hscope key).mono (Nat.zero_le 125)
  have hnone : accessRecordOf serde event.metadata (recordFields event.fields) = none →
      NestsWithin 125 (portableFields serde float convention timestamp scope event)[key]? := by
    intro h
    rw [getElem?_portableFields_of_none serde float convention timestamp scope event h]
    refine hrequest.or (NestsWithin.mono ?_ (Nat.zero_le 125))
    exact (nestsWithin_envelopeField _ _ _ key).or (nestsWithin_eventField _ _ key)
  rcases hevent with happlication | ⟨context, state, outcome, finished, enrichment, level, text,
    -, htext, rfl⟩
  · exact hnone (accessRecordOf_application serde happlication _)
  · have hop := serde.hop _ text htext
    split at hop
    · rename_i hdepth
      rw [getElem?_portableFields_decoded serde float convention timestamp scope level hop]
      refine hrequest.or ?_
      split
      · exact NestsWithin.some ((depth_httpRequest float _ _).trans (by omega))
      · refine NestsWithin.or ?_ (NestsWithin.mono (NestsWithin.or ?_
          (nestsWithin_envelopeField _ _ _ key)) (Nat.zero_le 125))
        · split
          · exact NestsWithin.none 125
          · refine NestsWithin.map (fun v hv => ?_) _
            exact (AccessRecord.depth_toValue_le_iff _ 125).mp (Nat.le_of_lt_succ hdepth) key v hv
        · split
          · exact NestsWithin.some (by simp [Value.depth])
          · exact nestsWithin_ownField _ _ key
    · exact hnone ((accessRecordOf_accessEvent serde level text).trans hop)

theorem nestsWithin_providerField {m : Map} {d : Nat} (h : ∀ key : String, NestsWithin d m[key]?)
    (key : String) : NestsWithin d (providerField convention m key) := by
  have hstring : ∀ s : String, NestsWithin d (some (.string s)) := fun s =>
    NestsWithin.some (by simp [Value.depth])
  rw [providerField]
  cases validatedTraceId m with
  | none => exact NestsWithin.none d
  | some traceId =>
    cases convention with
    | generic => exact NestsWithin.none d
    | gcp =>
      dsimp only
      split
      · exact h _
      · split
        · exact hstring _
        · exact NestsWithin.none d
    | aws =>
      dsimp only
      split
      · cases (xrayTraceId traceId).toOption with
        | none => exact NestsWithin.none d
        | some id => exact hstring id
      · exact NestsWithin.none d
    | azure =>
      dsimp only
      split
      · exact h _
      · split
        · exact hstring _
        · exact NestsWithin.none d

/-- **Every line is within the limit of the decoder**, however deep the enrichment. -/
theorem depth_formatEvent (hevent : Genuine serde float event) (hscope : Registered scope) {m : Map}
    (hm : formatEvent serde float convention timestamp scope event = .ok m) :
    m.toValue.depth < 128 := by
  have hportable : ∀ key : String, NestsWithin 125
      (portableFields serde float convention timestamp scope event)[key]? :=
    nestsWithin_portableFields hevent hscope
  have hle : m.toValue.depth ≤ 125 + 1 := by
    refine NestsWithin.toValue fun key => ?_
    rw [getElem?_formatEvent hm]
    exact (nestsWithin_providerField hportable key).or (hportable key)
  omega

end

/-! ## Round trip -/

theorem readLines_append {serde : SerdeJson} {log json : Bytes} (hlog : AtLineStart lineFeed log)
    (hjson : lineFeed ∉ json) : readLines serde (log ++ (json ++ [lineFeed])) =
      readLines serde log ++ [(fromUtf8 json).bind serde.fromStr] := by
  obtain ⟨lines, hlines⟩ := (atLineStart_iff lineFeed log).mp hlog
  have hsplit := splitOn_append_line hlines hjson []
  rw [readLines, readLines, hsplit, hlines, List.splitOn_nil, List.append_cons lines json,
    List.dropLast_concat, List.dropLast_concat]
  simp

/-- What a reader is to get of an event: its object, with its numbers as they read back. -/
def ReadsAs (serde : SerdeJson) (float : FloatArithmetic) (convention : FieldConvention)
    (e : LoggedEvent) (object : Option Value) : Prop :=
  ∃ timestamp m, e.timestamp = .ok timestamp ∧
    formatEvent serde float convention timestamp e.scope e.event = .ok m ∧
    object = some (m.toValue.mapNumbers serde.readNumber)

/-- **The log reads back.**  A writer that takes every line leaves a log whose lines are
the objects of the events, in order: one for each event with a timestamp, however deep the
enrichments nest and whatever the applications put into their fields. -/
theorem readLines_sink (serde : SerdeJson) (hserde : serde.Compact) (float : FloatArithmetic)
    (layer : JsonLayer) (hwriter : layer.writer = .whole) (events : List LoggedEvent)
    (hevents : ∀ e ∈ events, Genuine serde float e.event ∧ Registered e.scope) (out : LogOutput)
    (hrun : layer.onEvents serde float events .empty = .ok out) :
    AtLineStart lineFeed out.sink ∧
      List.Forall₂ (ReadsAs serde float layer.fieldConvention)
        (events.filter fun e => e.timestamp.isOk) (readLines serde out.sink) := by
  induction events using List.reverseRecOn generalizing out with
  | nil =>
    cases hrun
    exact ⟨atLineStart_nil _, .nil⟩
  | append_singleton before e ih =>
    obtain ⟨hbefore, he⟩ := List.forall_mem_append.mp hevents
    obtain ⟨hgenuine, hscope⟩ := he e (List.mem_singleton.mpr rfl)
    obtain ⟨earlier, hearlier⟩ := exists_onEvents serde float layer before .empty
    obtain ⟨hstart, hobjects⟩ := ih hbefore earlier hearlier
    have hone := onEvent_of_onEvents (onEvents_split hrun hearlier)
    rw [List.filter_append, List.filter_singleton]
    cases htime : e.timestamp with
    | error failure =>
      rw [htime] at hone
      cases hone
      rw [reportInternalFailure_sink]
      exact ⟨hstart, by simpa [Except.isOk, Except.toBool] using hobjects⟩
    | ok timestamp =>
      obtain ⟨m, line, hline⟩ := exists_writesLine serde float layer timestamp e.scope e.event
      obtain ⟨json, hjson, rfl⟩ := hline.exists_json
      obtain ⟨text, htext, rfl⟩ := Option.map_eq_some_iff.mp hjson
      have hfeed := hserde _ _ hjson
      have hread : (fromUtf8 (asBytes text)).bind serde.fromStr =
          some (m.toValue.mapNumbers serde.readNumber) := by
        rw [fromUtf8_asBytes, Option.bind_some, serde.hop _ text htext,
          if_pos (depth_formatEvent hgenuine hscope hline.object)]
      rw [htime, hline.written] at hone
      cases hone
      rw [writeLine_sink, hwriter]
      refine ⟨?_, ?_⟩
      · rw [Writer.whole, WriteOutcome.taken, ← List.append_assoc, atLineStart_concat]
      · rw [Writer.whole, WriteOutcome.taken, readLines_append hstart hfeed, hread]
        exact List.rel_append hobjects (.cons ⟨timestamp, m, htime, hline.object, rfl⟩ .nil)

end AxumObservability
