import AxumObservability.Selection

/-!
# The two trace context levels

The levels differ in the key grammar of the tracestate and in the flag they
project; everything else of a trace context is read alike.

* `TracestateKey.levelTwo`: a key of level 1 is one of level 2;
* `parseTraceparentWithLevel_atLevel`: a traceparent is read alike at both levels;
* `selectTraceContext_levels`: what moving between the levels changes.
-/

namespace AxumObservability

open Library.Panics Library.Text

/-! ## Keys and members -/

/-- **Every level 1 key is a level 2 key.**  A tenant, an at sign and a system are
at most 241 + 1 + 14 = 256 bytes. -/
theorem TracestateKey.levelTwo {key : Bytes} (h : TracestateKey .level1 key) :
    TracestateKey .level2 key := by
  cases h with
  | simple c rest first length chars =>
    exact .flat c rest (Or.inl first) length fun b hb => Or.inl (chars b hb)
  | multiTenant t tenant s system first tenantLength tenantChars systemFirst systemLength
      systemChars =>
    refine .flat t (tenant ++ atSign :: s :: system) first ?_ ?_
    · simp only [List.length_append, List.length_cons]
      omega
    · intro b hb
      rcases List.mem_append.mp hb with hb | hb
      · exact Or.inl (tenantChars b hb)
      · rcases List.mem_cons.mp hb with rfl | hb
        · exact Or.inr rfl
        · rcases List.mem_cons.mp hb with rfl | hb
          · exact Or.inl (isKeyChar_of_isAsciiLowercase systemFirst)
          · exact Or.inl (systemChars b hb)

theorem TracestateMembers.levelTwo {members : List Bytes} (h : TracestateMembers .level1 members) :
    TracestateMembers .level2 members := by
  obtain ⟨hlength, entries, hmap, hvalid, hnodup⟩ := h
  exact ⟨hlength, entries, hmap, fun e he => ⟨(hvalid e he).1.levelTwo, (hvalid e he).2⟩, hnodup⟩

/-! ## Traceparents -/

/-- What the parts of a value say at another level. -/
theorem Decodes.atLevel {trace trace' : TraceContext} {level level' : TraceContextLevel}
    {bytes V T P F : Bytes} (d : Decodes trace level bytes V T P F)
    (d' : Decodes trace' level' bytes V T P F) : trace' = { trace with level := level' } := by
  have hversion := lowerHex02_injective (d'.version.trans d.version.symm)
  have htraceId := asBytes_injective (d'.traceId.trans d.traceId.symm)
  have hparentId := asBytes_injective (d'.parentId.trans d.parentId.symm)
  have hflags := lowerHex02_injective (d'.flags.trans d.flags.symm)
  have htraceparent := d'.traceparent.trans d.traceparent.symm
  have htracestate := d'.tracestate.trans d.tracestate.symm
  have hlevel := d'.level
  cases trace
  cases trace'
  simp_all

theorem parseTraceparentWithLevel_atLevel {bytes : Bytes} {level : TraceContextLevel}
    {trace : TraceContext} (h : parseTraceparentWithLevel bytes level = .ok (some trace))
    (level' : TraceContextLevel) :
    parseTraceparentWithLevel bytes level' = .ok (some { trace with level := level' }) := by
  rcases parse_cases bytes level with ⟨l, rfl, g, trace₀, hparse, d⟩ | ⟨-, hparse⟩
  · cases hparse.symm.trans h
    obtain ⟨trace', hparse', d'⟩ := g.parse level'
    rw [hparse', d.atLevel d']
  · cases hparse.symm.trans h

/-! ## Header maps -/

variable {M V : Type} [Headers M V]

theorem selectTracestate_levelTwo {headers : M} {text : String}
    (h : selectTracestate headers .level1 = some text) :
    selectTracestate headers .level2 = some text := by
  obtain ⟨hne, hmembers, htext⟩ := (selectTracestate_eq_some_iff headers .level1 text).mp h
  exact (selectTracestate_eq_some_iff headers .level2 text).mpr ⟨hne, hmembers.levelTwo, htext⟩

/-- Another level reads the same traceparent, and the tracestate by its own grammar. -/
theorem selectTraceContext_atLevel {headers : M} {level : TraceContextLevel} {trace : TraceContext}
    (h : selectTraceContext headers level = .ok (some trace)) (level' : TraceContextLevel) :
    trace.level = level ∧ trace.tracestate = selectTracestate headers level ∧
      selectTraceContext headers level' = .ok (some { trace with
        level := level', tracestate := selectTracestate headers level' }) := by
  rcases selectTraceContext_cases headers level with hnone | ⟨parent, read, hone, hparse, hselect⟩
  · cases hnone.symm.trans h
  · cases hselect.symm.trans h
    refine ⟨(encodes_of_parse hparse).level, rfl, ?_⟩
    rw [selectTraceContext_of_accepted hone (parseTraceparentWithLevel_atLevel hparse level')]
    rfl

/-- The level 2 context of the headers that gave the level 1 context. -/
structure TraceContext.MovesTo (trace trace' : TraceContext) : Prop where
  version : trace'.version = trace.version
  traceId : trace'.traceId = trace.traceId
  parentId : trace'.parentId = trace.parentId
  flags : trace'.flags = trace.flags
  sampled : trace'.sampled = trace.sampled
  traceparent : trace'.traceparent = trace.traceparent
  tracestate : ∀ text, trace.tracestate = some text → trace'.tracestate = some text
  levels : trace.level = .level1 ∧ trace'.level = .level2

/-- **Moving to level 2 loses nothing.**  Both levels accept the same headers and
read the same traceparent. A tracestate of level 1 is kept as it is, and level 2
keeps some that level 1 drops, for its keys include those of level 1. -/
theorem selectTraceContext_levels (headers : M) :
    (∀ trace, selectTraceContext headers .level1 = .ok (some trace) →
      ∃ trace', selectTraceContext headers .level2 = .ok (some trace') ∧ trace.MovesTo trace') ∧
    (∀ trace', selectTraceContext headers .level2 = .ok (some trace') →
      ∃ trace, selectTraceContext headers .level1 = .ok (some trace) ∧ trace.MovesTo trace') ∧
    (∀ key, isValidTracestateKey key .level1 = true → isValidTracestateKey key .level2 = true) ∧
    ∃ values text, parseTracestateWithLevel values .level2 = some text ∧
      parseTracestateWithLevel values .level1 = none := by
  refine ⟨fun trace htrace => ?_, fun trace' htrace' => ?_, fun key hkey => ?_,
    ["1a=x"], "1a=x", by decide +kernel, by decide +kernel⟩
  · obtain ⟨hlevel, htracestate, hselect⟩ := selectTraceContext_atLevel htrace .level2
    refine ⟨_, hselect, rfl, rfl, rfl, rfl, rfl, rfl, fun text htext => ?_, hlevel, rfl⟩
    exact selectTracestate_levelTwo (htracestate.symm.trans htext)
  · obtain ⟨hlevel, htracestate, hselect⟩ := selectTraceContext_atLevel htrace' .level1
    refine ⟨_, hselect, rfl, rfl, rfl, rfl, rfl, rfl, fun text htext => ?_, rfl, hlevel⟩
    rw [htracestate]
    exact selectTracestate_levelTwo htext
  · rw [isValidTracestateKey_iff] at hkey ⊢
    exact hkey.levelTwo

theorem selectTraceContext_levels_traced :
    ∃ trace, selectTraceContext tracedHeaders .level2 = .ok (some trace) ∧
      asBytes trace.traceId = asBytes "4bf92f3577b34da6a3ce929d0e0e4736" ∧
      trace.tracestate = some "vendor=one,tenant@sys=two" ∧
      isValidTracestateKey (asBytes "tenant@sys") .level2 = true := by
  obtain ⟨hup, -, hkeys, -⟩ := selectTraceContext_levels tracedHeaders
  have hsome : ∃ trace, selectTraceContext tracedHeaders .level1 = .ok (some trace) ∧
      asBytes trace.traceId = asBytes "4bf92f3577b34da6a3ce929d0e0e4736" ∧
      trace.tracestate = some "vendor=one,tenant@sys=two" :=
    ⟨_, rfl, by decide +kernel, by decide +kernel⟩
  obtain ⟨trace, hselect, htraceId, htracestate⟩ := hsome
  obtain ⟨trace', hselect', hmoves⟩ := hup trace hselect
  refine ⟨trace', hselect', by rw [hmoves.traceId, htraceId], hmoves.tracestate _ htracestate, ?_⟩
  exact hkeys _ (by decide +kernel)

end AxumObservability
