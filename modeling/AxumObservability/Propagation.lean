import AxumObservability.Levels
import AxumObservability.NormalForm

/-!
# Contexts sent on

A trace context shows the accepted traceparent as it came and the accepted tracestate in its
normal form. A service that sends both on hands the context to the next one, which may read it
at another level.

* `selectTraceContext_forwarded`: what the next service reads;
* `relay_spec`: what is left of a context after any number of services.
-/

namespace AxumObservability

open Library.Panics Library.Text

variable {M V : Type} [Headers M V]

/-! ## One service -/

/-- A context that some headers have given. -/
def TraceContext.Selected (M : Type) {V : Type} [Headers M V] (trace : TraceContext) : Prop :=
  ∃ (headers : M) (level : TraceContextLevel), selectTraceContext headers level = .ok (some trace)

/-- Headers with the `traceparent_bytes` of a context and its `tracestate`, if it has one. -/
structure TraceContext.Forwards (trace : TraceContext) (headers : M) : Prop where
  traceparent : (Headers.getAll headers "traceparent").map (Headers.valueBytes M) =
    [trace.traceparent]
  tracestate : tracestateLines headers = trace.tracestate.toList.map asBytes

/-- What a service reads of a context that was sent on. -/
def TraceContext.received (trace : TraceContext) (level : TraceContextLevel) : TraceContext :=
  { trace with
    level := level
    tracestate := trace.tracestate.bind fun text => parseTracestateWithLevel [text] level }

/-- A single line is selected as the parser reads it. -/
theorem selectTracestate_line {headers : M} {text : String}
    (h : tracestateLines headers = [asBytes text]) (level : TraceContextLevel) :
    selectTracestate headers level = parseTracestateWithLevel [text] level := by
  apply Option.ext
  intro text'
  rw [selectTracestate_eq_some_iff, parseTracestateWithLevel_iff, h]
  exact and_congr_left fun _ => iff_of_true (by simp) (by simp)

namespace TraceContext.Selected

variable {trace : TraceContext}

/-- The traceparent of a context came as a header value, and was read as this context. -/
theorem exists_parse (h : trace.Selected M) : ∃ (value : V) (level : TraceContextLevel),
    Headers.valueBytes M value = trace.traceparent ∧
      parseTraceparentWithLevel trace.traceparent level =
        .ok (some { trace with tracestate := none }) := by
  obtain ⟨headers, level, hselect⟩ := h
  rcases selectTraceContext_cases headers level with hnone | ⟨parent, read, -, hparse, hread⟩
  · cases hnone.symm.trans hselect
  · cases hread.symm.trans hselect
    rcases parse_cases (Headers.valueBytes M parent) level with ⟨l, -, -, read', hparse', d⟩ |
      ⟨-, hparse'⟩
    · cases hparse'.symm.trans hparse
      obtain ⟨version, traceId, parentId, flags, readLevel, traceparent, tracestate⟩ := read
      obtain rfl : traceparent = _ := d.traceparent
      obtain rfl : tracestate = none := d.tracestate
      exact ⟨parent, level, rfl, hparse⟩
    · cases hparse'.symm.trans hparse

/-- It is read as this context at every level. -/
theorem parse (h : trace.Selected M) (level : TraceContextLevel) :
    parseTraceparentWithLevel trace.traceparent level =
      .ok (some { trace with level := level, tracestate := none }) := by
  obtain ⟨-, level₀, -, hparse⟩ := h.exists_parse
  exact parseTraceparentWithLevel_atLevel hparse level

/-- The tracestate of a context is in normal form, and the grammar of its level admits it. -/
theorem members (h : trace.Selected M) {text : String} (htext : trace.tracestate = some text) :
    asBytes text = joinWith comma (wireMembers [asBytes text]) ∧
      TracestateMembers trace.level (wireMembers [asBytes text]) ∧
      ∀ b ∈ asBytes text, isFieldByte b = true := by
  obtain ⟨headers, level₀, hselect⟩ := h
  obtain ⟨hlevel, htracestate, -⟩ := selectTraceContext_atLevel hselect level₀
  obtain ⟨hne, hmembers, hjoined⟩ := (selectTracestate_eq_some_iff headers level₀ text).mp
    (htracestate.symm.trans htext)
  have hwire := (wireMembers_of_joined hne hjoined).2
  rw [hwire, hlevel]
  refine ⟨hjoined, hmembers, fun b hb => ?_⟩
  rw [hjoined] at hb
  rcases eq_or_mem_of_mem_joinWith hb with rfl | ⟨member, hmember, hb⟩
  · decide
  · obtain ⟨field, hfield, rfl⟩ := List.mem_map.mp hmember
    obtain ⟨line, hline, hfield⟩ := List.mem_flatMap.mp hfield
    obtain ⟨value, -, rfl⟩ := List.mem_map.mp hline
    exact Headers.valueBytes_field value b (mem_of_mem_splitOn hfield (mem_of_mem_trim hb))

/-- The grammar of a level admits the tracestate of a context as it is, or not at all. -/
theorem parseTracestate (h : trace.Selected M) {text : String}
    (htext : trace.tracestate = some text) (level : TraceContextLevel) :
    (TracestateMembers level (wireMembers [asBytes text]) ∧
        parseTracestateWithLevel [text] level = some text) ∨
      (¬ TracestateMembers level (wireMembers [asBytes text]) ∧
        parseTracestateWithLevel [text] level = none) := by
  obtain ⟨hjoined, -, -⟩ := h.members htext
  by_cases hmembers : TracestateMembers level (wireMembers [asBytes text])
  · exact Or.inl ⟨hmembers,
      (parseTracestateWithLevel_iff [text] level text).mpr ⟨by simp, hmembers, hjoined⟩⟩
  · refine Or.inr ⟨hmembers, Option.eq_none_iff_forall_ne_some.mpr fun text' htext' => hmembers ?_⟩
    exact ((parseTracestateWithLevel_iff [text] level text').mp htext').2.1

end TraceContext.Selected

/-- **What the next service reads.**  The traceparent is the same, whatever the level, and the
tracestate is the same or gone. -/
theorem selectTraceContext_forwarded {trace : TraceContext} (h : trace.Selected M) {headers : M}
    (hforwards : trace.Forwards headers) (level : TraceContextLevel) :
    selectTraceContext headers level = .ok (some (trace.received level)) := by
  obtain ⟨parent, hparents, hbytes⟩ := List.map_eq_singleton_iff.mp hforwards.traceparent
  have hparse : parseTraceparentWithLevel (Headers.valueBytes M parent) level =
      .ok (some { trace with level := level, tracestate := none }) := by
    rw [hbytes, h.parse level]
  rw [selectTraceContext_of_accepted hparents hparse, TraceContext.withTracestate,
    TraceContext.received]
  have hstate : selectTracestate headers level =
      trace.tracestate.bind fun text => parseTracestateWithLevel [text] level := by
    have hlines := hforwards.tracestate
    cases htext : trace.tracestate with
    | none =>
      rw [htext] at hlines
      refine Option.eq_none_iff_forall_ne_some.mpr fun text htext' => ?_
      exact ((selectTracestate_eq_some_iff headers level text).mp htext').1 hlines
    | some text =>
      rw [htext] at hlines
      exact selectTracestate_line hlines level
  rw [hstate]

/-! ## One service after another -/

/-- Services one after another: the level that each reads at, and the headers it is sent for
the context of the one before. -/
def relay : List (TraceContextLevel × (TraceContext → M)) → TraceContext →
    Result (Option TraceContext)
  | [], trace => return some trace
  | (level, send) :: hops, trace => do
    match ← selectTraceContext (send trace) level with
    | some trace => relay hops trace
    | none => return none

theorem relay_cons {level : TraceContextLevel} {send : TraceContext → M}
    (hops : List (TraceContextLevel × (TraceContext → M))) {trace : TraceContext}
    (h : trace.Selected M) (hsend : trace.Forwards (send trace)) :
    relay ((level, send) :: hops) trace = relay hops (trace.received level) := by
  rw [relay, selectTraceContext_forwarded h hsend level, ok_bind]

/-- A level 2 service keeps every tracestate. -/
theorem TraceContext.Selected.received_level2 {trace : TraceContext} (h : trace.Selected M) :
    trace.received .level2 = { trace with level := .level2 } := by
  have hkept : (trace.tracestate.bind fun text => parseTracestateWithLevel [text] .level2) =
      trace.tracestate := by
    cases htext : trace.tracestate with
    | none => rfl
    | some text =>
      obtain ⟨hjoined, hmembers, -⟩ := h.members htext
      have hlevel2 : TracestateMembers .level2 (wireMembers [asBytes text]) := by
        cases hlevel : trace.level with
        | level1 => exact (hlevel ▸ hmembers).levelTwo
        | level2 => exact hlevel ▸ hmembers
      exact (parseTracestateWithLevel_iff [text] .level2 text).mpr ⟨by simp, hlevel2, hjoined⟩
  rw [TraceContext.received, hkept]

/-- What one level 1 service has let through, the next one lets through. -/
theorem TraceContext.Selected.received_level1 {trace : TraceContext} (h : trace.Selected M) :
    ((trace.received .level1).tracestate.bind fun text =>
      parseTracestateWithLevel [text] .level1) = (trace.received .level1).tracestate := by
  rw [TraceContext.received]
  cases htext : trace.tracestate with
  | none => rfl
  | some text =>
    rcases h.parseTracestate htext .level1 with ⟨-, hparse⟩ | ⟨-, hparse⟩
    · simp only [Option.bind_some, hparse]
    · simp only [Option.bind_some, hparse, Option.bind_none]

/-- What is left of a context after services that read at these levels. -/
def TraceContext.relayed (trace : TraceContext) (levels : List TraceContextLevel) : TraceContext :=
  { trace with
    level := levels.getLast?.getD trace.level
    tracestate :=
      if .level1 ∈ levels then
        trace.tracestate.bind fun text => parseTracestateWithLevel [text] .level1
      else trace.tracestate }

/-- By induction on the services: the first of them at level 1 decides for all after it. -/
theorem relay_eq {trace : TraceContext} (h : trace.Selected M)
    (hops : List (TraceContextLevel × (TraceContext → M)))
    (hsend : ∀ hop ∈ hops, ∀ sent : TraceContext, sent.Selected M → sent.Forwards (hop.2 sent)) :
    relay hops trace = .ok (some (trace.relayed (hops.map Prod.fst))) := by
  induction hops generalizing trace with
  | nil => rfl
  | cons hop hops ih =>
    obtain ⟨level, send⟩ := hop
    have hforwards : trace.Forwards (send trace) := hsend _ List.mem_cons_self trace h
    have hnext : (trace.received level).Selected M :=
      ⟨send trace, level, selectTraceContext_forwarded h hforwards level⟩
    rw [relay_cons hops h hforwards,
      ih hnext fun hop hhop => hsend hop (List.mem_cons_of_mem _ hhop), List.map_cons,
      TraceContext.relayed, TraceContext.relayed, List.getLast?_cons, Option.getD_some]
    cases level with
    | level1 =>
      rw [h.received_level1, ite_self, if_pos List.mem_cons_self]
      rfl
    | level2 =>
      have hmem : TraceContextLevel.level1 ∈ TraceContextLevel.level2 :: hops.map Prod.fst ↔
          .level1 ∈ hops.map Prod.fst := List.mem_cons.trans (or_iff_right (by decide))
      rw [h.received_level2]
      simp only [hmem]

/-- **What is left of a context** after any number of services that send it on. Each of them
accepts it, and the identifiers, the flags and the bytes of the traceparent are the same to
the end. The tracestate is the same or gone: it is lost at the first level 1 service, if there
is one and its grammar does not admit it, and a context that was read at level 1 in the first
place loses nothing. -/
theorem relay_spec {trace : TraceContext} (h : trace.Selected M)
    (hops : List (TraceContextLevel × (TraceContext → M)))
    (hsend : ∀ hop ∈ hops, ∀ sent : TraceContext, sent.Selected M → sent.Forwards (hop.2 sent)) :
    ∃ last, relay hops trace = .ok (some last) ∧
      last.version = trace.version ∧ last.traceId = trace.traceId ∧
      last.parentId = trace.parentId ∧ last.flags = trace.flags ∧
      last.traceparent = trace.traceparent ∧
      last.level = ((hops.map Prod.fst).getLast?).getD trace.level ∧
      (∀ text, last.tracestate = some text ↔ trace.tracestate = some text ∧
        (.level1 ∈ hops.map Prod.fst → TracestateMembers .level1 (wireMembers [asBytes text]))) ∧
      (trace.level = .level1 → last.tracestate = trace.tracestate) := by
  have hstate : ∀ text, (trace.relayed (hops.map Prod.fst)).tracestate = some text ↔
      trace.tracestate = some text ∧
        (.level1 ∈ hops.map Prod.fst →
          TracestateMembers .level1 (wireMembers [asBytes text])) := by
    intro text
    rw [TraceContext.relayed]
    by_cases hlevels : .level1 ∈ hops.map Prod.fst
    · rw [if_pos hlevels, Option.bind_eq_some_iff]
      constructor
      · rintro ⟨text', htext', hparse⟩
        rcases h.parseTracestate htext' .level1 with ⟨hmembers, hsame⟩ | ⟨-, hnone⟩
        · cases hsame.symm.trans hparse
          exact ⟨htext', fun _ => hmembers⟩
        · cases hnone.symm.trans hparse
      · rintro ⟨htext, hmembers⟩
        rcases h.parseTracestate htext .level1 with ⟨-, hsame⟩ | ⟨hnot, -⟩
        · exact ⟨text, htext, hsame⟩
        · exact absurd (hmembers hlevels) hnot
    · rw [if_neg hlevels]
      exact ⟨fun htext => ⟨htext, fun hmem => absurd hmem hlevels⟩, And.left⟩
  refine ⟨_, relay_eq h hops hsend, rfl, rfl, rfl, rfl, rfl, rfl, hstate, fun hlevel => ?_⟩
  apply Option.ext
  intro text
  rw [hstate]
  exact ⟨And.left, fun htext => ⟨htext, fun _ => hlevel ▸ (h.members htext).2.1⟩⟩

/-! ### Two services behind a level 1 one -/

/-- The header lines that send a context on. -/
def forwardedHeaders (trace : TraceContext) : HeaderList :=
  ((if h : trace.traceparent.all isFieldByte = true then
      some (⟨trace.traceparent, List.all_eq_true.mp h⟩ : HeaderLine) else none).toList.map
        ("traceparent", ·)) ++
    (trace.tracestate.bind HeaderList.fromStr).toList.map ("tracestate", ·)

theorem forwards_forwardedHeaders {trace : TraceContext} (h : trace.Selected HeaderList) :
    trace.Forwards (forwardedHeaders trace) := by
  obtain ⟨value, -, hvalue, -⟩ := h.exists_parse
  have hparent : trace.traceparent.all isFieldByte = true :=
    List.all_eq_true.mpr (hvalue ▸ value.field)
  have hstate : ∀ text, trace.tracestate = some text → ∃ line : HeaderLine,
      HeaderList.fromStr text = some line ∧ line.bytes = asBytes text := by
    intro text htext
    obtain ⟨-, -, hfield⟩ := h.members htext
    exact ⟨⟨asBytes text, hfield⟩, dif_pos (List.all_eq_true.mpr hfield), rfl⟩
  rw [forwardedHeaders, dif_pos hparent]
  cases htext : trace.tracestate with
  | none =>
    constructor <;>
      simp [tracestateLines, Headers.getAll, HeaderList.getAll, Headers.valueBytes, htext]
  | some text =>
    obtain ⟨line, hline, hbytes⟩ := hstate text htext
    constructor <;>
      simp [tracestateLines, Headers.getAll, HeaderList.getAll, Headers.valueBytes, htext, hline,
        hbytes]

theorem relay_spec_traced : ∃ trace last : TraceContext,
    selectTraceContext tracedHeaders .level1 = .ok (some trace) ∧
      relay [(.level2, forwardedHeaders), (.level1, forwardedHeaders)] trace = .ok (some last) ∧
      last.traceparent = trace.traceparent ∧
      last.tracestate = some "vendor=one,tenant@sys=two" := by
  have hsome : ∃ trace, selectTraceContext tracedHeaders .level1 = .ok (some trace) ∧
      trace.level = .level1 ∧ trace.tracestate = some "vendor=one,tenant@sys=two" :=
    ⟨_, rfl, by decide +kernel, by decide +kernel⟩
  obtain ⟨trace, hselect, hlevel, htracestate⟩ := hsome
  obtain ⟨last, hlast, -, -, -, -, hparent, -, -, hkept⟩ := relay_spec (M := HeaderList)
    ⟨tracedHeaders, .level1, hselect⟩
    [(.level2, forwardedHeaders), (.level1, forwardedHeaders)] fun hop hhop sent hsent => by
      have hhop' : hop.2 = forwardedHeaders := by
        simp only [List.mem_cons, List.not_mem_nil, or_false] at hhop
        rcases hhop with rfl | rfl <;> rfl
      rw [hhop']
      exact forwards_forwardedHeaders hsent
  exact ⟨trace, last, hselect, hlast, hparent, (hkept hlevel).trans htracestate⟩

end AxumObservability
