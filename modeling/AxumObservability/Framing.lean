import AxumObservability.Library.JsonCodec
import AxumObservability.Formatter

/-!
# Framing

The output of a layer is one stream, read line by line. A write that fails inside its
line leaves the stream there, and the layer does not end the line before the next one.

* `onEvent_cases`: what one event adds to the output;
* `atLineStart_iff_not_breaksOff`: after which events the output is at the start of a
  line;
* `onEvents_ownLine_iff`: when every event that is written whole has a line of its own.
-/

namespace AxumObservability

open Library.Json Library.Panics Library.Text

/-! ## Sequences of events -/

/-- An event as the layer gets it, with its number and the reading of the clock for it. -/
structure LoggedEvent where
  number : Nat
  timestamp : Except InternalFailure String
  scope : List SpanData
  event : Event

def LogOutput.empty : LogOutput := ⟨[], []⟩

/-- The layer handles one event after another. -/
def JsonLayer.onEvents (serde : SerdeJson) (float : FloatArithmetic) (layer : JsonLayer) :
    List LoggedEvent → LogOutput → Result LogOutput
  | [], out => return out
  | e :: events, out => do
    let out ← layer.onEvent serde float e.number e.timestamp e.scope e.event out
    layer.onEvents serde float events out

/-- The text of a JSON value is one line. -/
def SerdeJson.Compact (serde : SerdeJson) : Prop :=
  ∀ v json, serde.toVec v = some json → lineFeed ∉ json

/-- What the sink gets of a line. -/
def WriteOutcome.taken (line : Bytes) : WriteOutcome → Bytes
  | .ok => line
  | .error _ accepted => line.take accepted

/-- At `out` the event's JSON object goes to the writer as a line, and the write ends
with `outcome`. -/
structure JsonLayer.Writes (serde : SerdeJson) (float : FloatArithmetic) (layer : JsonLayer)
    (e : LoggedEvent) (out : LogOutput) (json : Bytes) (outcome : WriteOutcome) : Prop where
  line : ∃ timestamp m, e.timestamp = .ok timestamp ∧ serde.toVec m.toValue = some json ∧
    WritesLine serde float layer timestamp e.scope e.event m (json ++ [lineFeed])
  outcome : layer.writer e.number out e.event.metadata (json ++ [lineFeed]) = outcome

/-- Before a line went out all lines were complete, and it is the next one. -/
def OwnsLine (earlier json final : Bytes) : Prop :=
  ∃ lines rest, earlier.splitOn lineFeed = lines ++ [[]] ∧
    final.splitOn lineFeed = lines ++ json :: rest

/-- The last write of the events that reached the sink failed inside its line. -/
inductive BreaksOff (serde : SerdeJson) (float : FloatArithmetic) (layer : JsonLayer) :
    List LoggedEvent → Prop
  | broken {before : List LoggedEvent} {out : LogOutput} {e : LoggedEvent} {json : Bytes}
      {kind : String} {accepted : Nat}
      (run : layer.onEvents serde float before .empty = .ok out)
      (writes : layer.Writes serde float e out json (.error kind accepted))
      (some_accepted : 0 < accepted) (inside : accepted ≤ json.length) :
      BreaksOff serde float layer (before ++ [e])
  | quiet {before : List LoggedEvent} {out : LogOutput} {e : LoggedEvent}
      (breaks : BreaksOff serde float layer before)
      (run : layer.onEvents serde float before .empty = .ok out)
      (nothing : ∀ json outcome, layer.Writes serde float e out json outcome →
        ∃ kind, outcome = .error kind 0) :
      BreaksOff serde float layer (before ++ [e])

variable {serde : SerdeJson} {float : FloatArithmetic} {layer : JsonLayer}

theorem onEvents_append (before after : List LoggedEvent) (out : LogOutput) :
    layer.onEvents serde float (before ++ after) out =
      layer.onEvents serde float before out >>= layer.onEvents serde float after := by
  induction before generalizing out with
  | nil => rfl
  | cons e before ih =>
    rw [List.cons_append, JsonLayer.onEvents, JsonLayer.onEvents, bind_assoc]
    exact congrArg _ (funext ih)

theorem exists_onEvents (serde : SerdeJson) (float : FloatArithmetic) (layer : JsonLayer)
    (events : List LoggedEvent) (out : LogOutput) :
    ∃ out', layer.onEvents serde float events out = .ok out' := by
  induction events generalizing out with
  | nil => exact ⟨out, rfl⟩
  | cons e events ih =>
    obtain ⟨out', h⟩ := exists_onEvent serde float layer e.number e.timestamp e.scope e.event out
    rw [JsonLayer.onEvents, h, ok_bind]
    exact ih out'

/-- The run of a part of the events on the way of a run of all. -/
theorem onEvents_split {before after : List LoggedEvent} {out earlier final : LogOutput}
    (hall : layer.onEvents serde float (before ++ after) out = .ok final)
    (hbefore : layer.onEvents serde float before out = .ok earlier) :
    layer.onEvents serde float after earlier = .ok final := by
  rw [onEvents_append, hbefore, ok_bind] at hall
  exact hall

theorem onEvent_of_onEvents {e : LoggedEvent} {out out' : LogOutput}
    (h : layer.onEvents serde float [e] out = .ok out') :
    layer.onEvent serde float e.number e.timestamp e.scope e.event out = .ok out' := by
  obtain ⟨out₁, h₁⟩ := exists_onEvent serde float layer e.number e.timestamp e.scope e.event out
  rw [JsonLayer.onEvents, h₁, ok_bind] at h
  exact h₁.trans h

/-! ## One event -/

theorem reportInternalFailure_sink (layer : JsonLayer) (failure : InternalFailure)
    (out : LogOutput) : (layer.reportInternalFailure failure out).sink = out.sink := by
  unfold JsonLayer.reportInternalFailure
  split <;> rfl

theorem writeLine_sink (layer : JsonLayer) (number : Nat) (metadata : Metadata) (line : Bytes)
    (out : LogOutput) : (layer.writeLine number metadata line out).sink =
      out.sink ++ (layer.writer number out metadata line).taken line := by
  unfold JsonLayer.writeLine
  cases layer.writer number out metadata line with
  | ok => rfl
  | error kind accepted => exact reportInternalFailure_sink _ _ _

/-- An event is written as one line, with one outcome. -/
theorem JsonLayer.Writes.unique {e : LoggedEvent} {out : LogOutput} {json json' : Bytes}
    {outcome outcome' : WriteOutcome} (h : layer.Writes serde float e out json outcome)
    (h' : layer.Writes serde float e out json' outcome') : json = json' ∧ outcome = outcome' := by
  obtain ⟨timestamp, m, ht, htext, hline⟩ := h.line
  obtain ⟨timestamp', m', ht', htext', hline'⟩ := h'.line
  cases ht.symm.trans ht'
  cases hline.object.symm.trans hline'.object
  cases htext.symm.trans htext'
  exact ⟨rfl, h.outcome.symm.trans h'.outcome⟩

theorem JsonLayer.Writes.compact {e : LoggedEvent} {out : LogOutput} {json : Bytes}
    {outcome : WriteOutcome} (h : layer.Writes serde float e out json outcome)
    (hserde : serde.Compact) : lineFeed ∉ json := by
  obtain ⟨timestamp, m, -, htext, -⟩ := h.line
  exact hserde _ _ htext

/-- A line is the text of its object and a line feed. -/
theorem WritesLine.exists_json {timestamp : String} {scope : List SpanData} {event : Event}
    {m : Map} {line : Bytes} (h : WritesLine serde float layer timestamp scope event m line) :
    ∃ json, serde.toVec m.toValue = some json ∧ line = json ++ [lineFeed] := by
  obtain ⟨text, htext⟩ := serde.exists_toString m.toValue
  have hjson : serde.toVec m.toValue = some (asBytes text) := by rw [SerdeJson.toVec, htext]; rfl
  have hbytes := h.bytes
  rw [serializeLine, hjson] at hbytes
  exact ⟨asBytes text, hjson, (Except.ok.inj hbytes).symm⟩

/-- An event with a timestamp is written, as the same line wherever it comes. -/
theorem exists_writes (serde : SerdeJson) (float : FloatArithmetic) (layer : JsonLayer)
    {e : LoggedEvent} {timestamp : String} (htime : e.timestamp = .ok timestamp) :
    ∃ json, ∀ out, layer.Writes serde float e out json
        (layer.writer e.number out e.event.metadata (json ++ [lineFeed])) ∧
      layer.onEvent serde float e.number e.timestamp e.scope e.event out =
        .ok (layer.writeLine e.number e.event.metadata (json ++ [lineFeed]) out) := by
  obtain ⟨m, line, hline⟩ := exists_writesLine serde float layer timestamp e.scope e.event
  obtain ⟨json, hjson, rfl⟩ := hline.exists_json
  refine ⟨json, fun out => ⟨⟨⟨timestamp, m, htime, hjson, hline⟩, rfl⟩, ?_⟩⟩
  rw [htime]
  exact hline.written e.number out

/-- **What one event adds.**  One that is not written leaves the sink as it is. -/
theorem onEvent_cases {e : LoggedEvent} {out out' : LogOutput}
    (h : layer.onEvent serde float e.number e.timestamp e.scope e.event out = .ok out') :
    (∀ json outcome, ¬ layer.Writes serde float e out json outcome) ∧ out'.sink = out.sink ∨
      ∃ json outcome, layer.Writes serde float e out json outcome ∧
        out'.sink = out.sink ++ outcome.taken (json ++ [lineFeed]) := by
  cases htime : e.timestamp with
  | error failure =>
    rw [htime] at h
    cases h
    refine Or.inl ⟨fun json outcome hwrites => ?_, reportInternalFailure_sink _ _ _⟩
    obtain ⟨timestamp, m, ht, -⟩ := hwrites.line
    cases htime.symm.trans ht
  | ok timestamp =>
    obtain ⟨json, hjson⟩ := exists_writes serde float layer htime
    obtain ⟨hwrites, hout⟩ := hjson out
    cases hout.symm.trans h
    exact Or.inr ⟨json, _, hwrites, writeLine_sink _ _ _ _ _⟩

theorem sink_prefix {events : List LoggedEvent} {out out' : LogOutput}
    (h : layer.onEvents serde float events out = .ok out') : out.sink <+: out'.sink := by
  induction events generalizing out with
  | nil =>
    cases h
    exact List.prefix_rfl
  | cons e events ih =>
    obtain ⟨out₁, h₁⟩ := exists_onEvent serde float layer e.number e.timestamp e.scope e.event out
    rw [JsonLayer.onEvents, h₁, ok_bind] at h
    refine List.IsPrefix.trans ?_ (ih h)
    rcases onEvent_cases h₁ with ⟨-, hsink⟩ | ⟨json, outcome, -, hsink⟩
    · rw [hsink]
    · rw [hsink]
      exact List.prefix_append _ _

/-- An event that is written whole is in the output from there on. -/
theorem JsonLayer.Writes.sink_prefix {e : LoggedEvent} {after : List LoggedEvent}
    {earlier final : LogOutput} {json : Bytes} (h : layer.Writes serde float e earlier json .ok)
    (hrun : layer.onEvents serde float (e :: after) earlier = .ok final) :
    earlier.sink ++ (json ++ [lineFeed]) <+: final.sink := by
  obtain ⟨out, hone⟩ :=
    exists_onEvent serde float layer e.number e.timestamp e.scope e.event earlier
  rw [JsonLayer.onEvents, hone, ok_bind] at hrun
  rcases onEvent_cases hone with ⟨hnone, -⟩ | ⟨json', outcome, hwrites, hsink⟩
  · exact absurd h (hnone _ _)
  · obtain ⟨rfl, rfl⟩ := h.unique hwrites
    rw [WriteOutcome.taken] at hsink
    exact hsink ▸ AxumObservability.sink_prefix hrun

/-! ## Where the output stands -/

theorem not_breaksOff_nil : ¬ BreaksOff serde float layer [] := by
  intro h
  generalize hevents : ([] : List LoggedEvent) = events at h
  cases h with
  | broken => exact absurd hevents (by simp)
  | quiet => exact absurd hevents (by simp)

/-- The last event decides, unless the sink got nothing of it. -/
theorem breaksOff_concat {before : List LoggedEvent} {e : LoggedEvent} {out : LogOutput}
    (hrun : layer.onEvents serde float before .empty = .ok out) :
    BreaksOff serde float layer (before ++ [e]) ↔
      (∃ json kind accepted, layer.Writes serde float e out json (.error kind accepted) ∧
        0 < accepted ∧ accepted ≤ json.length) ∨
      BreaksOff serde float layer before ∧ ∀ json outcome,
        layer.Writes serde float e out json outcome → ∃ kind, outcome = .error kind 0 := by
  constructor
  · intro h
    generalize hevents : before ++ [e] = events at h
    cases h with
    | broken hrun' hwrites hsome hinside =>
      obtain ⟨rfl, hlast⟩ := List.append_inj' hevents rfl
      cases hlast
      cases hrun.symm.trans hrun'
      exact Or.inl ⟨_, _, _, hwrites, hsome, hinside⟩
    | quiet hbreaks hrun' hnothing =>
      obtain ⟨rfl, hlast⟩ := List.append_inj' hevents rfl
      cases hlast
      cases hrun.symm.trans hrun'
      exact Or.inr ⟨hbreaks, hnothing⟩
  · rintro (⟨json, kind, accepted, hwrites, hsome, hinside⟩ | ⟨hbreaks, hnothing⟩)
    · exact .broken hrun hwrites hsome hinside
    · exact .quiet hbreaks hrun hnothing

theorem breaksOff_concat_of_not_writes {before : List LoggedEvent} {e : LoggedEvent}
    {out : LogOutput} (hrun : layer.onEvents serde float before .empty = .ok out)
    (hnone : ∀ json outcome, ¬ layer.Writes serde float e out json outcome) :
    BreaksOff serde float layer (before ++ [e]) ↔ BreaksOff serde float layer before := by
  rw [breaksOff_concat hrun]
  constructor
  · rintro (⟨json, kind, accepted, hwrites, -⟩ | ⟨hbreaks, -⟩)
    · exact absurd hwrites (hnone _ _)
    · exact hbreaks
  · exact fun hbreaks => Or.inr ⟨hbreaks, fun json outcome h => absurd h (hnone _ _)⟩

theorem not_breaksOff_concat_of_ok {before : List LoggedEvent} {e : LoggedEvent}
    {out : LogOutput} {json : Bytes} (hrun : layer.onEvents serde float before .empty = .ok out)
    (hwrites : layer.Writes serde float e out json .ok) :
    ¬ BreaksOff serde float layer (before ++ [e]) := by
  rw [breaksOff_concat hrun]
  rintro (⟨json', kind, accepted, hwrites', -⟩ | ⟨-, hnothing⟩)
  · cases (hwrites.unique hwrites').2
  · obtain ⟨kind, hout⟩ := hnothing _ _ hwrites
    cases hout

theorem breaksOff_concat_of_error {before : List LoggedEvent} {e : LoggedEvent}
    {out : LogOutput} {json : Bytes} {kind : String} {accepted : Nat}
    (hrun : layer.onEvents serde float before .empty = .ok out)
    (hwrites : layer.Writes serde float e out json (.error kind accepted)) :
    BreaksOff serde float layer (before ++ [e]) ↔
      (0 < accepted ∧ accepted ≤ json.length) ∨
        accepted = 0 ∧ BreaksOff serde float layer before := by
  rw [breaksOff_concat hrun]
  constructor
  · rintro (⟨json', kind', accepted', hwrites', hpart⟩ | ⟨hbreaks, hnothing⟩)
    · obtain ⟨rfl, hout⟩ := hwrites.unique hwrites'
      cases hout
      exact Or.inl hpart
    · obtain ⟨kind', hout⟩ := hnothing _ _ hwrites
      cases hout
      exact Or.inr ⟨rfl, hbreaks⟩
  · rintro (hpart | ⟨rfl, hbreaks⟩)
    · exact Or.inl ⟨json, kind, accepted, hwrites, hpart⟩
    · refine Or.inr ⟨hbreaks, fun json' outcome hwrites' => ⟨kind, ?_⟩⟩
      exact (hwrites.unique hwrites').2.symm

/-- A line that is taken whole leaves the output at the start of the next one, and a part
of it leaves the output inside. -/
theorem atLineStart_append_taken {json : Bytes} (hjson : lineFeed ∉ json) (l : Bytes)
    (kind : String) (accepted : Nat) (hsome : 0 < accepted) :
    AtLineStart lineFeed (l ++ WriteOutcome.taken (json ++ [lineFeed]) (.error kind accepted)) ↔
      json.length < accepted := by
  rw [WriteOutcome.taken]
  by_cases hinside : accepted ≤ json.length
  · rw [List.take_append_of_le_length hinside]
    obtain ⟨n, rfl⟩ : ∃ n, accepted = n + 1 := ⟨accepted - 1, by omega⟩
    rw [← List.take_concat_get' _ _ hinside, ← List.append_assoc, atLineStart_concat]
    constructor
    · intro hlast
      exact absurd (hlast ▸ List.getElem_mem hinside) hjson
    · intro hlong
      omega
  · rw [List.take_of_length_le (by simp; omega), ← List.append_assoc, atLineStart_concat]
    simp only [true_iff]
    omega

/-- **Where the output stands.**  It is at the start of a line, unless the events have
broken off. -/
theorem atLineStart_iff_not_breaksOff (hserde : serde.Compact) {events : List LoggedEvent}
    {out : LogOutput} (hrun : layer.onEvents serde float events .empty = .ok out) :
    AtLineStart lineFeed out.sink ↔ ¬ BreaksOff serde float layer events := by
  induction events using List.reverseRecOn generalizing out with
  | nil =>
    cases hrun
    exact iff_of_true (atLineStart_nil _) not_breaksOff_nil
  | append_singleton before e ih =>
    obtain ⟨earlier, hbefore⟩ := exists_onEvents serde float layer before .empty
    have hone := onEvent_of_onEvents (onEvents_split hrun hbefore)
    have hearlier := ih hbefore
    rcases onEvent_cases hone with ⟨hnone, hsink⟩ | ⟨json, outcome, hwrites, hsink⟩
    · rw [hsink, hearlier, breaksOff_concat_of_not_writes hbefore hnone]
    · rw [hsink]
      cases outcome with
      | ok =>
        refine iff_of_true ?_ (not_breaksOff_concat_of_ok hbefore hwrites)
        rw [WriteOutcome.taken, ← List.append_assoc, atLineStart_concat]
      | error kind accepted =>
        rw [breaksOff_concat_of_error hbefore hwrites]
        rcases Nat.eq_zero_or_pos accepted with rfl | hsome
        · simpa [WriteOutcome.taken] using hearlier
        · rw [atLineStart_append_taken (hwrites.compact hserde) _ _ _ hsome]
          omega

/-! ## Lines of their own -/

/-- **When a whole line is a line of its own.**  Along every sequence of events each one
that is written whole is the next line of the output, if and only if none of them comes
when the events before it have broken off. -/
theorem onEvents_ownLine_iff (serde : SerdeJson) (float : FloatArithmetic) (layer : JsonLayer)
    (hserde : serde.Compact) (events : List LoggedEvent) (final : LogOutput)
    (hrun : layer.onEvents serde float events .empty = .ok final) :
    (∀ before e after earlier json, events = before ++ e :: after →
        layer.onEvents serde float before .empty = .ok earlier →
        layer.Writes serde float e earlier json .ok → OwnsLine earlier.sink json final.sink) ↔
      ∀ before e after earlier json, events = before ++ e :: after →
        layer.onEvents serde float before .empty = .ok earlier →
        layer.Writes serde float e earlier json .ok → ¬ BreaksOff serde float layer before := by
  constructor
  · intro howns before e after earlier json hevents hbefore hwrites
    obtain ⟨lines, rest, hearlier, -⟩ := howns before e after earlier json hevents hbefore hwrites
    rw [← atLineStart_iff_not_breaksOff hserde hbefore, atLineStart_iff]
    exact ⟨lines, hearlier⟩
  · intro hwhole before e after earlier json hevents hbefore hwrites
    have hstart := hwhole before e after earlier json hevents hbefore hwrites
    rw [← atLineStart_iff_not_breaksOff hserde hbefore, atLineStart_iff] at hstart
    obtain ⟨lines, hlines⟩ := hstart
    obtain ⟨rest, hrest⟩ := hwrites.sink_prefix (onEvents_split (hevents ▸ hrun) hbefore)
    refine ⟨lines, rest.splitOn lineFeed, hlines, ?_⟩
    rw [← hrest, List.append_assoc, List.append_assoc]
    exact splitOn_append_line hlines (hwrites.compact hserde) rest

/-! ### A whole writer and a failing one -/

theorem SerdeJson.compact_reference : SerdeJson.reference.Compact := by
  intro v json hjson hfeed
  cases hjson
  have hle := le_of_mem_asBytes (n := 32) (by decide) (encode_no_control v) _ hfeed
  exact absurd hle (by decide)

theorem not_breaksOff_whole (serde : SerdeJson) (float : FloatArithmetic)
    (convention : FieldConvention) (events : List LoggedEvent) :
    ¬ BreaksOff serde float (.fromConvention .whole convention) events := by
  intro h
  induction h with
  | broken _ hwrites => cases hwrites.outcome
  | quiet _ _ _ ih => exact ih

def startedEvent : LoggedEvent :=
  ⟨0, .ok "2026-01-01T00:00:00Z", [],
    ⟨⟨"event", "app", some "app", .info⟩, [("message", some (.debug "started"))]⟩⟩

theorem onEvents_ownLine_whole :
    ∃ final, JsonLayer.onEvents .reference .whole (.fromConvention .whole .generic)
        [startedEvent, startedEvent] .empty = .ok final ∧
      ∀ before e after earlier json, [startedEvent, startedEvent] = before ++ e :: after →
        JsonLayer.onEvents .reference .whole (.fromConvention .whole .generic) before .empty =
          .ok earlier →
        JsonLayer.Writes .reference .whole (.fromConvention .whole .generic) e earlier json .ok →
        OwnsLine earlier.sink json final.sink := by
  obtain ⟨final, hfinal⟩ := exists_onEvents .reference .whole (.fromConvention .whole .generic)
    [startedEvent, startedEvent] .empty
  refine ⟨final, hfinal, ?_⟩
  exact (onEvents_ownLine_iff .reference .whole _ SerdeJson.compact_reference _ final hfinal).mpr
    fun before _ _ _ _ _ _ _ => not_breaksOff_whole _ _ _ before

/-- Fails in its first line after one byte, and takes every line from then on. -/
def Writer.torn : Writer := fun _ out _ _ =>
  if out.sink.isEmpty then .error "BrokenPipe" 1 else .ok

theorem asBytes_encode_ne_nil (v : Value) : asBytes (encode v) ≠ [] := by
  obtain ⟨c, cs, hcons, -⟩ := encodeValue_cons v
  rw [encode, hcons, asBytes_ofList, List.flatMap_cons]
  exact List.append_ne_nil_of_left_ne_nil String.utf8EncodeChar_ne_nil _

/-- An event that is written whole after a torn one: no line of the output is its JSON
object. -/
theorem onEvents_torn :
    ∃ earlier final json,
      JsonLayer.onEvents .reference .whole (.fromConvention .torn .generic) [startedEvent] .empty =
        .ok earlier ∧
      JsonLayer.onEvents .reference .whole (.fromConvention .torn .generic)
        [startedEvent, startedEvent] .empty = .ok final ∧
      JsonLayer.Writes .reference .whole (.fromConvention .torn .generic) startedEvent earlier json
        .ok ∧
      json ∉ final.sink.splitOn lineFeed := by
  obtain ⟨json, hjson⟩ := exists_writes .reference .whole (.fromConvention .torn .generic)
    (e := startedEvent) rfl
  have hfeed := (hjson .empty).1.compact SerdeJson.compact_reference
  obtain ⟨b, rest, rfl⟩ : ∃ b rest, json = b :: rest := by
    obtain ⟨timestamp, m, -, htext, -⟩ := (hjson .empty).1.line
    cases htext
    exact List.exists_cons_of_ne_nil (asBytes_encode_ne_nil _)
  let layer : JsonLayer := .fromConvention .torn .generic
  let line := b :: rest ++ [lineFeed]
  let write := layer.writeLine startedEvent.number startedEvent.event.metadata line
  let earlier := write .empty
  have hearlier : earlier.sink = [b] := by
    rw [writeLine_sink]
    rfl
  have htaken : layer.writer startedEvent.number earlier startedEvent.event.metadata line =
      .ok := by
    change (if earlier.sink.isEmpty then WriteOutcome.error "BrokenPipe" 1 else .ok) = .ok
    rw [hearlier]
    rfl
  refine ⟨earlier, write earlier, b :: rest, ?_, ?_, htaken ▸ (hjson earlier).1, ?_⟩
  · rw [JsonLayer.onEvents, (hjson .empty).2]
    rfl
  · rw [JsonLayer.onEvents, (hjson .empty).2, ok_bind, JsonLayer.onEvents, (hjson earlier).2]
    rfl
  · rw [writeLine_sink, hearlier, htaken, WriteOutcome.taken]
    intro hmem
    have hline : lineFeed ∉ b :: b :: rest := by
      simpa using hfeed
    have hsplit : ([b] ++ line).splitOn lineFeed = [b :: b :: rest, []] := by
      refine (List.splitOn_append_cons_self (b :: b :: rest) []).trans ?_
      rw [List.splitOn_eq_singleton hline, List.splitOn_nil]
      rfl
    rw [hsplit] at hmem
    simp at hmem

end AxumObservability
