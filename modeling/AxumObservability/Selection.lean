import AxumObservability.Config

/-!
# Selecting the request identifier and the trace context

What the middleware takes over from the request headers before the inner service
sees them.

* `selectRequestId_spec`: the identifier, the calls made and the headers after;
* `selectTraceContext_grammar`: the trace context, with a tracestate exactly
  when the header lines satisfy the grammar.
-/

namespace AxumObservability

open Library.Panics Library.Text

variable {M V : Type} [Headers M V]

/-! ## The request identifier -/

def acceptsRequestId (config : ObservabilityConfig) (value : String) : Effect Bool :=
  match config.validator with
  | none => return (RequestId.parse value).isOk
  | some validator => do
    let accepted ← catchUnwind (.validator value) fun calls => validator calls value
    return accepted.toOption.getD false

def randomRequestId (platform : Platform) : Effect RequestId := do
  let uuid ← invoke .newV4 platform.newV4
  liftM (requestIdOfUuid uuid)

def generateRequestId (platform : Platform) (config : ObservabilityConfig) : Effect RequestId := do
  let value ← catchUnwind .generator fun calls => config.generator calls ()
  match value.toOption.join with
  | some value => return value
  | none => randomRequestId platform

/-- The identifier: the caller's only value if it is accepted, a new one
otherwise. -/
def chooseRequestId (platform : Platform) (config : ObservabilityConfig) (values : List Bytes) :
    Effect RequestId :=
  let first := values.head?.bind fromUtf8
  if values.tail.isEmpty then
    match first.filter nativeFieldContent with
    | none => generateRequestId platform config
    | some value => do
      if ← acceptsRequestId config value then
        match RequestId.fromNativeHeader value with
        | some requestId => return requestId
        | none => generateRequestId platform config
      else generateRequestId platform config
  else generateRequestId platform config

def selectRequestId (platform : Platform) (config : ObservabilityConfig) (headers : M) :
    Effect (RequestId × M) := do
  let values := (Headers.getAll headers config.requestIdHeader).map (Headers.valueBytes M)
  let requestId ← chooseRequestId platform config values
  let headerValue ← liftM (expect (Headers.fromStr M requestId.asStr)
    "validated request ID is always a header value")
  return (requestId, Headers.insert headers config.requestIdHeader headerValue)

/-- The caller's value that a policy is asked about: the only one, if it is text
and native field content. -/
def callerValue (values : List Bytes) : Option String :=
  match values with
  | [value] => (fromUtf8 value).filter nativeFieldContent
  | _ => none

theorem callerValue_eq_some_iff (values : List Bytes) (v : String) :
    callerValue values = some v ↔ values = [asBytes v] ∧ nativeFieldContent v = true := by
  unfold callerValue
  split
  · rw [Option.filter_eq_some_iff, fromUtf8_eq_some_iff, List.cons_eq_cons, eq_comm]
    simp only [and_true]
  · rename_i h
    simp only [reduceCtorEq, false_iff, not_and]
    exact fun hv => absurd hv (h _)

/-- The caller's value `v` is the only one, is native field content and passes
the policy: the custom validator after `calls`, or the baseline grammar. -/
def Accepted (config : ObservabilityConfig) (calls : List Call) (values : List Bytes)
    (v : String) : Prop :=
  values = [asBytes v] ∧ nativeFieldContent v = true ∧
    match config.validator with
    | none => Baseline v
    | some validator => validator calls v = .ok true

def validatorCalls (config : ObservabilityConfig) (values : List Bytes) : List Call :=
  match config.validator, callerValue values with
  | some _, some v => [.validator v]
  | _, _ => []

/-- The outcomes of choosing an identifier, with the calls each one makes. -/
inductive Chosen (platform : Platform) (config : ObservabilityConfig) (calls : List Call)
    (values : List Bytes) : RequestId → List Call → Prop where
  | accepted (requestId : RequestId) (accepted : Accepted config calls values requestId.asStr) :
      Chosen platform config calls values requestId (validatorCalls config values)
  | generated (requestId : RequestId) (refused : ∀ v, ¬ Accepted config calls values v)
      (answer : config.generator (calls ++ validatorCalls config values) () =
        .ok (some requestId)) :
      Chosen platform config calls values requestId (validatorCalls config values ++ [.generator])
  | fallback (requestId : RequestId) (refused : ∀ v, ¬ Accepted config calls values v)
      (answer : ∀ id, config.generator (calls ++ validatorCalls config values) () ≠ .ok (some id))
      (uuid : requestId.asStr =
        (platform.newV4 (calls ++ validatorCalls config values ++ [.generator])).simple) :
      Chosen platform config calls values requestId
        (validatorCalls config values ++ [.generator, .newV4])

theorem randomRequestId_spec (platform : Platform) (w : World) :
    Returns (randomRequestId platform) w fun requestId w' =>
      requestId.asStr = (platform.newV4 w.calls).simple ∧ w' = w.called .newV4 := by
  apply (invoke_spec .newV4 platform.newV4 w).bind
  intro uuid w' hu
  obtain ⟨rfl, rfl⟩ := hu
  exact Returns.lift (requestIdOfUuid_eq (platform.newV4 w.calls)) ⟨rfl, rfl⟩

theorem generateRequestId_spec (platform : Platform) (config : ObservabilityConfig) (w : World) :
    Returns (generateRequestId platform config) w fun requestId w' =>
      (config.generator w.calls () = .ok (some requestId) ∧ w' = w.called .generator) ∨
      ((∀ id, config.generator w.calls () ≠ .ok (some id)) ∧
        requestId.asStr = (platform.newV4 (w.calls ++ [.generator])).simple ∧
        w' = (w.called .generator).called .newV4) := by
  apply (catchUnwind_spec .generator _ w).bind
  intro r w' hr
  obtain ⟨rfl, rfl⟩ := hr
  have hsome : ∀ id : RequestId, (config.generator w.calls ()).toOption.join = some id ↔
      config.generator w.calls () = .ok (some id) := by
    intro id
    cases config.generator w.calls () <;> simp [Except.toOption]
  cases hg : (config.generator w.calls ()).toOption.join with
  | some id => exact Returns.pure (Or.inl ⟨(hsome id).mp hg, rfl⟩)
  | none =>
    have hnone : ∀ id, config.generator w.calls () ≠ .ok (some id) := fun id h => by
      rw [(hsome id).mpr h] at hg
      cases hg
    exact (randomRequestId_spec platform _).mono fun id w' h => Or.inr ⟨hnone, h.1, h.2⟩

/-- Once refused, the caller's value makes way for a generated one. -/
theorem generateRequestId_chosen (platform : Platform) (config : ObservabilityConfig) (w : World)
    (values : List Bytes) (refused : ∀ v, ¬ Accepted config w.calls values v) :
    Returns (generateRequestId platform config) (w.calledAll (validatorCalls config values))
      fun requestId w' => ∃ added, Chosen platform config w.calls values requestId added ∧
        w' = w.calledAll added := by
  refine (generateRequestId_spec platform config _).mono fun requestId w' h => ?_
  rcases h with ⟨hg, rfl⟩ | ⟨hg, hu, rfl⟩
  · exact ⟨_, .generated requestId refused hg, calledAll_called _ _ _⟩
  · refine ⟨_, .fallback requestId refused hg hu, ?_⟩
    rw [calledAll_called, calledAll_called, List.append_assoc]
    rfl

theorem not_accepted_of_callerValue {config : ObservabilityConfig} {calls : List Call}
    {values : List Bytes} (h : callerValue values = none) (v : String) :
    ¬ Accepted config calls values v := by
  rintro ⟨hv, hn, -⟩
  rw [(callerValue_eq_some_iff values v).mpr ⟨hv, hn⟩] at h
  cases h

theorem acceptsRequestId_spec (config : ObservabilityConfig) (w : World) {values : List Bytes}
    {v : String} (hv : callerValue values = some v) :
    Returns (acceptsRequestId config v) w fun accepted w' =>
      (accepted = true ↔ Accepted config w.calls values v) ∧
        w' = w.calledAll (validatorCalls config values) := by
  have hcaller := (callerValue_eq_some_iff values v).mp hv
  unfold acceptsRequestId Accepted validatorCalls
  cases config.validator with
  | none =>
    refine Returns.pure ⟨?_, by simp [World.calledAll]⟩
    rw [RequestId.parse_isOk_iff, validate_eq_ok_iff]
    simp [hcaller]
  | some validator =>
    apply (catchUnwind_spec _ _ w).bind
    intro r w' hr
    obtain ⟨rfl, rfl⟩ := hr
    refine Returns.pure ⟨?_, by rw [hv]; rfl⟩
    simp only [hcaller, true_and]
    cases validator w.calls v <;> simp [Except.toOption]

theorem chooseRequestId_spec (platform : Platform) (config : ObservabilityConfig)
    (values : List Bytes) (w : World) :
    Returns (chooseRequestId platform config values) w fun requestId w' =>
      ∃ added, Chosen platform config w.calls values requestId added ∧ w' = w.calledAll added := by
  have hnone : callerValue values = none → Returns (generateRequestId platform config) w
      fun requestId w' => ∃ added, Chosen platform config w.calls values requestId added ∧
        w' = w.calledAll added := by
    intro h
    have hcalls : validatorCalls config values = [] := by
      unfold validatorCalls
      rw [h]
      cases config.validator <;> rfl
    have hg := generateRequestId_chosen platform config w values (not_accepted_of_callerValue h)
    rw [hcalls] at hg
    simpa [World.calledAll] using hg
  cases hc : callerValue values with
  | none =>
    have hgenerate :
        chooseRequestId platform config values = generateRequestId platform config := by
      unfold chooseRequestId
      rcases values with _ | ⟨value, _ | ⟨_, _⟩⟩
      · rfl
      · simp only [callerValue] at hc
        simp only [List.head?_cons, Option.bind_some, hc, List.tail_cons, List.isEmpty_nil,
          ite_self]
      · rfl
    rw [hgenerate]
    exact hnone hc
  | some v =>
    obtain ⟨hvalues, hnative⟩ := (callerValue_eq_some_iff values v).mp hc
    have hchoose : chooseRequestId platform config values = (do
        if ← acceptsRequestId config v then
          match RequestId.fromNativeHeader v with
          | some requestId => return requestId
          | none => generateRequestId platform config
        else generateRequestId platform config) := by
      simp only [chooseRequestId, hvalues, List.head?_cons, Option.bind_some, fromUtf8_asBytes,
        Option.filter_some, hnative, List.tail_cons, List.isEmpty_nil, ↓reduceIte]
    rw [hchoose]
    apply (acceptsRequestId_spec config w hc).bind
    intro accepted w' ha
    obtain ⟨hiff, rfl⟩ := ha
    cases accepted with
    | true =>
      rw [RequestId.fromNativeHeader_of_native hnative]
      exact Returns.pure ⟨_, .accepted ⟨v, hnative⟩ (hiff.mp rfl), rfl⟩
    | false =>
      refine generateRequestId_chosen platform config w values fun v' hv' => ?_
      have hsame := hv'.1
      rw [hvalues] at hsame
      rw [← asBytes_injective (List.cons.inj hsame).1] at hv'
      exact absurd (hiff.mpr hv') (by simp)

theorem selectRequestId_spec (platform : Platform) (config : ObservabilityConfig) (headers : M)
    (w : World) :
    Returns (selectRequestId platform config headers) w fun selected w' =>
      ∃ added value, Chosen platform config w.calls
          ((Headers.getAll headers config.requestIdHeader).map (Headers.valueBytes M))
          selected.1 added ∧
        w' = w.calledAll added ∧ Headers.valueBytes M value = asBytes selected.1.asStr ∧
        selected.2 = Headers.insert headers config.requestIdHeader value := by
  apply (chooseRequestId_spec platform config _ w).bind
  intro requestId w' h
  obtain ⟨added, hchosen, rfl⟩ := h
  obtain ⟨value, hvalue, hbytes⟩ := expect_fromStr_requestId M requestId
  apply Returns.lift_bind hvalue
  exact Returns.pure ⟨added, value, hchosen, rfl, hbytes, rfl⟩

def Call.isValidator : Call → Bool
  | .validator _ => true
  | _ => false

/-- The custom validator is asked at most once, about the caller's value. -/
theorem validatorCalls_spec (config : ObservabilityConfig) (values : List Bytes) :
    Call.generator ∉ validatorCalls config values ∧
      (validatorCalls config values).countP Call.isValidator ≤ 1 ∧
      ∀ v, Call.validator v ∈ validatorCalls config values →
        values = [asBytes v] ∧ nativeFieldContent v = true := by
  unfold validatorCalls
  cases config.validator with
  | none => simp
  | some validator =>
    cases hc : callerValue values with
    | none => simp
    | some v =>
      refine ⟨by simp, by simp [Call.isValidator], fun v' hv' => ?_⟩
      obtain rfl : v' = v := by simpa using hv'
      exact (callerValue_eq_some_iff values v').mp hc

/-- Only one value can be the accepted one. -/
theorem Accepted.unique {config : ObservabilityConfig} {calls : List Call} {values : List Bytes}
    {v v' : String} (h : Accepted config calls values v) (h' : Accepted config calls values v') :
    v = v' := by
  have hv := h.1
  rw [h'.1] at hv
  exact (asBytes_injective (List.cons.inj hv).1).symm

/-- What the calls of a choice say about it. -/
theorem Chosen.calls {platform : Platform} {config : ObservabilityConfig} {calls : List Call}
    {values : List Bytes} {requestId : RequestId} {added : List Call}
    (h : Chosen platform config calls values requestId added) :
    (Call.generator ∉ added ↔ ∃ v, Accepted config calls values v) ∧
      (∀ v, Accepted config calls values v → requestId.asStr = v) ∧
      added.countP Call.isValidator ≤ 1 ∧
      ∀ v, Call.validator v ∈ added → values = [asBytes v] ∧ nativeFieldContent v = true := by
  obtain ⟨hgenerator, hcount, honly⟩ := validatorCalls_spec config values
  cases h with
  | accepted haccepted =>
    exact ⟨⟨fun _ => ⟨_, haccepted⟩, fun _ => hgenerator⟩, fun v hv => haccepted.unique hv, hcount,
      honly⟩
  | generated hrefused _ =>
    refine ⟨by simp [hrefused], fun v hv => absurd hv (hrefused v), ?_, fun v hv => honly v ?_⟩
    · rw [List.countP_append]
      exact hcount
    · simpa using hv
  | fallback hrefused _ _ =>
    refine ⟨by simp [hrefused], fun v hv => absurd hv (hrefused v), ?_, fun v hv => honly v ?_⟩
    · rw [List.countP_append]
      exact hcount
    · simpa using hv

/-- A choice without an accepted value: one generator call, then its value or the
fallback. -/
theorem Chosen.generated_of_refused {platform : Platform} {config : ObservabilityConfig}
    {calls : List Call} {values : List Bytes} {requestId : RequestId} {added : List Call}
    (h : Chosen platform config calls values requestId added)
    (hrefused : ∀ v, ¬ Accepted config calls values v) :
    added.count .generator = 1 ∧ ∃ before, before ++ [.generator] <+: added ∧
      (config.generator (calls ++ before) () = .ok (some requestId) ∨
        (∀ id, config.generator (calls ++ before) () ≠ .ok (some id)) ∧
          (asBytes requestId.asStr).length = 32 ∧
          ∀ b ∈ asBytes requestId.asStr, isLowerHexDigit b = true) := by
  have hgenerator := (validatorCalls_spec config values).1
  have hcount := List.count_eq_zero_of_not_mem hgenerator
  cases h with
  | accepted haccepted => exact absurd haccepted (hrefused _)
  | generated _ hanswer =>
    refine ⟨?_, validatorCalls config values, List.prefix_rfl, Or.inl hanswer⟩
    rw [List.count_append, hcount]
    rfl
  | fallback _ hanswer huuid =>
    refine ⟨?_, validatorCalls config values, ⟨[.newV4], by simp⟩, Or.inr ⟨hanswer, ?_, ?_⟩⟩
    · rw [List.count_append, hcount]
      rfl
    · rw [huuid]
      exact Uuid.length_eq _
    · rw [huuid]
      exact Uuid.lowerHex _

/-- A selected identifier satisfies the baseline grammar where the two that may be
taken over do. -/
theorem Chosen.baseline {platform : Platform} {config : ObservabilityConfig} {calls : List Call}
    {values : List Bytes} {requestId : RequestId} {added : List Call}
    (h : Chosen platform config calls values requestId added)
    (haccepted : ∀ v, Accepted config calls values v → Baseline v)
    (hgenerated : ∀ id, config.generator (calls ++ validatorCalls config values) () =
      .ok (some id) → Baseline id.asStr) : Baseline requestId.asStr := by
  cases h with
  | accepted accepted => exact haccepted _ accepted
  | generated _ answer => exact hgenerated _ answer
  | fallback _ _ uuid =>
    rw [uuid]
    exact Uuid.baseline_simple _

/-- **Selection and canonicalization of the request identifier.**  The caller's
value is taken exactly when it is accepted, and then no generator runs. Otherwise
the generator runs once, and where it gives nothing the fallback of 32 lowercase
hex digits stands in. The headers end up with the selected identifier alone under
the configured name, and all other names keep their values. -/
theorem selectRequestId_selects (platform : Platform) (config : ObservabilityConfig) (headers : M)
    (w : World) :
    ∃ (requestId : RequestId) (headers' : M) (added : List Call) (values : List Bytes),
      values = (Headers.getAll headers config.requestIdHeader).map (Headers.valueBytes M) ∧
      (selectRequestId platform config headers).run w =
        .ok ((requestId, headers'), w.calledAll added) ∧
      (Call.generator ∉ added ↔ ∃ v, Accepted config w.calls values v) ∧
      (∀ v, Accepted config w.calls values v → requestId.asStr = v) ∧
      added.countP Call.isValidator ≤ 1 ∧
      (∀ v, Call.validator v ∈ added → values = [asBytes v] ∧ nativeFieldContent v = true) ∧
      ((∀ v, ¬ Accepted config w.calls values v) →
        added.count .generator = 1 ∧ ∃ before, before ++ [.generator] <+: added ∧
          (config.generator (w.calls ++ before) () = .ok (some requestId) ∨
            (∀ id, config.generator (w.calls ++ before) () ≠ .ok (some id)) ∧
              (asBytes requestId.asStr).length = 32 ∧
              ∀ b ∈ asBytes requestId.asStr, isLowerHexDigit b = true)) ∧
      (∃ value, Headers.getAll headers' config.requestIdHeader = [value] ∧
        Headers.valueBytes M value = asBytes requestId.asStr) ∧
      ∀ other, other ≠ config.requestIdHeader →
        Headers.getAll headers' other = Headers.getAll headers other := by
  obtain ⟨⟨requestId, headers'⟩, _, hrun, added, value, hchosen, rfl, hbytes, rfl⟩ :=
    selectRequestId_spec platform config headers w
  obtain ⟨hiff, haccepted, hcount, honly⟩ := hchosen.calls
  refine ⟨requestId, _, added, _, rfl, hrun, hiff, haccepted, hcount, honly,
    hchosen.generated_of_refused, ⟨value, ?_, hbytes⟩, fun other hother => ?_⟩
  · rw [Headers.getAll_insert, if_pos rfl]
  · rw [Headers.getAll_insert, if_neg hother]

/-! ## The trace context -/

/-- The tracestate of a request: its lines as texts, then the list parser. -/
def selectTracestate (headers : M) (level : TraceContextLevel) : Option String :=
  let states := (Headers.getAll headers "tracestate").mapM (Headers.toStr M)
  states.bind fun values => parseTracestateWithLevel values level

def selectTraceContext (headers : M) (level : TraceContextLevel) : Result (Option TraceContext) :=
  match Headers.getAll headers "traceparent" with
  | [] => return none
  | first :: others =>
    if !others.isEmpty then return none
    else do
      match ← parseTraceparentWithLevel (Headers.valueBytes M first) level with
      | none => return none
      | some trace => return some (trace.withTracestate (selectTracestate headers level))

/-- The texts of header lines, when every line is one. -/
theorem mapM_toStr_eq_some_iff (values : List V) (texts : List String) :
    values.mapM (Headers.toStr M) = some texts ↔
      (∀ line ∈ values.map (Headers.valueBytes M), ∀ b ∈ line, b < 128) ∧
        texts.map asBytes = values.map (Headers.valueBytes M) := by
  induction values generalizing texts with
  | nil => simp [eq_comm]
  | cons value values ih =>
    rw [List.mapM_cons]
    simp only [Option.bind_eq_bind, Option.bind_eq_some_iff, toStr_eq_some_iff, ih,
      Option.pure_def, Option.some.injEq, List.map_cons, List.forall_mem_cons]
    constructor
    · rintro ⟨text, ⟨hascii, htext⟩, texts', ⟨hrest, htexts⟩, rfl⟩
      exact ⟨⟨hascii, hrest⟩, by rw [List.map_cons, htext, htexts]⟩
    · rintro ⟨⟨hascii, hrest⟩, htexts⟩
      cases texts with
      | nil => cases htexts
      | cons text texts' =>
        obtain ⟨htext, htexts'⟩ := List.cons.inj htexts
        exact ⟨text, ⟨hascii, htext⟩, texts', ⟨hrest, htexts'⟩, rfl⟩

/-- A byte outside ASCII survives splitting and trimming, so the grammar refuses
the lines it is in. -/
theorem ascii_of_tracestateMembers {level : TraceContextLevel} {lines : List Bytes}
    (h : TracestateMembers level (wireMembers lines)) : ∀ line ∈ lines, ∀ b ∈ line, b < 128 := by
  have hblank : ∀ b : UInt8, ¬ b < 128 → b ≠ comma ∧ isEdgeBlank b = false :=
    forall_byte (by decide +kernel)
  intro line hline b hb
  by_contra hlt
  obtain ⟨hcomma, hedge⟩ := hblank b hlt
  obtain ⟨field, hfield, hb⟩ := mem_splitOn hb hcomma
  exact hlt (h.ascii (trim isEdgeBlank field)
    (List.mem_map_of_mem (List.mem_flatMap.mpr ⟨line, hline, hfield⟩)) b (mem_trim hb hedge))

def tracestateLines (headers : M) : List Bytes :=
  (Headers.getAll headers "tracestate").map (Headers.valueBytes M)

theorem selectTraceContext_of_accepted {headers : M} {level : TraceContextLevel} {parent : V}
    {trace : TraceContext} (hone : Headers.getAll headers "traceparent" = [parent])
    (hparse : parseTraceparentWithLevel (Headers.valueBytes M parent) level = .ok (some trace)) :
    selectTraceContext headers level =
      .ok (some (trace.withTracestate (selectTracestate headers level))) := by
  simp only [selectTraceContext, hone, List.isEmpty_nil, Bool.not_true, Bool.false_eq_true,
    ↓reduceIte, hparse, ok_bind]
  rfl

/-- The trace context depends on the headers by two names. -/
theorem selectTraceContext_congr {headers headers' : M} (level : TraceContextLevel)
    (hparent : Headers.getAll headers "traceparent" = Headers.getAll headers' "traceparent")
    (hstate : Headers.getAll headers "tracestate" = Headers.getAll headers' "tracestate") :
    selectTraceContext headers level = selectTraceContext headers' level := by
  simp only [selectTraceContext, selectTracestate, hparent, hstate]

/-- **Selecting a trace context never panics**: there is none, or that of the only
traceparent. -/
theorem selectTraceContext_cases (headers : M) (level : TraceContextLevel) :
    selectTraceContext headers level = .ok none ∨
      ∃ parent trace, Headers.getAll headers "traceparent" = [parent] ∧
        parseTraceparentWithLevel (Headers.valueBytes M parent) level = .ok (some trace) ∧
        selectTraceContext headers level =
          .ok (some (trace.withTracestate (selectTracestate headers level))) := by
  match hparents : Headers.getAll headers "traceparent" with
  | [] => exact Or.inl (by simp [selectTraceContext, hparents])
  | first :: second :: others => exact Or.inl (by simp [selectTraceContext, hparents])
  | [parent] =>
    rcases parse_cases (Headers.valueBytes M parent) level with ⟨-, -, -, trace, hparse, -⟩ |
      ⟨-, hparse⟩
    · exact Or.inr ⟨parent, trace, rfl, hparse, selectTraceContext_of_accepted hparents hparse⟩
    · exact Or.inl (by simp [selectTraceContext, hparents, hparse])

theorem encodes_of_select {headers : M} {level : TraceContextLevel} {trace : TraceContext}
    (h : selectTraceContext headers level = .ok (some trace)) : trace.Encodes level := by
  rcases selectTraceContext_cases headers level with hnone | ⟨_, trace', -, hparse, hselect⟩
  · cases hnone.symm.trans h
  · cases hselect.symm.trans h
    obtain ⟨hlevel, hfront, htraceId, hparentId⟩ := encodes_of_parse hparse
    exact ⟨hlevel, hfront, htraceId, hparentId⟩

theorem selectTracestate_eq_some_iff (headers : M) (level : TraceContextLevel) (text : String) :
    selectTracestate headers level = some text ↔
      tracestateLines headers ≠ [] ∧
        TracestateMembers level (wireMembers (tracestateLines headers)) ∧
        asBytes text = joinWith comma (wireMembers (tracestateLines headers)) := by
  simp only [selectTracestate, Option.bind_eq_some_iff, mapM_toStr_eq_some_iff,
    parseTracestateWithLevel_iff]
  change (∃ texts : List String, ((∀ line ∈ tracestateLines headers, ∀ b ∈ line, b < 128) ∧
    texts.map asBytes = tracestateLines headers) ∧ _) ↔ _
  constructor
  · rintro ⟨texts, ⟨-, htexts⟩, hne, hmembers, htext⟩
    rw [htexts] at hmembers htext
    refine ⟨fun h => hne ?_, hmembers, htext⟩
    rw [h] at htexts
    simpa using htexts
  · rintro ⟨hne, hmembers, htext⟩
    have hascii := ascii_of_tracestateMembers hmembers
    obtain ⟨texts, htexts⟩ := exists_texts hascii
    refine ⟨texts, ⟨hascii, htexts⟩, fun h => hne ?_, by rwa [htexts], by rwa [htexts]⟩
    rw [h] at htexts
    simpa using htexts.symm

theorem selectTracestate_isSome_iff (headers : M) (level : TraceContextLevel) :
    (selectTracestate headers level).isSome = true ↔
      tracestateLines headers ≠ [] ∧
        TracestateMembers level (wireMembers (tracestateLines headers)) := by
  rw [Option.isSome_iff_exists]
  simp only [selectTracestate_eq_some_iff]
  constructor
  · rintro ⟨text, hne, hmembers, -⟩
    exact ⟨hne, hmembers⟩
  · rintro ⟨hne, hmembers⟩
    obtain ⟨text, htext⟩ := fromUtf8_ascii _ hmembers.joined_ascii
    exact ⟨text, hne, hmembers, (fromUtf8_eq_some_iff _ _).mp htext⟩

/-- **The tracestate is accepted exactly under the grammar of the level**, and
never decides over the traceparent. -/
theorem selectTraceContext_grammar (headers : M) (level : TraceContextLevel) (parent : V)
    (W T P F S : Bytes) (hone : Headers.getAll headers "traceparent" = [parent])
    (hparent : TraceparentGrammar (Headers.valueBytes M parent) W T P F S) :
    ∃ trace, selectTraceContext headers level = .ok (some trace) ∧
      asBytes (lowerHex02 trace.version) = W ∧ asBytes trace.traceId = T ∧
      asBytes trace.parentId = P ∧ asBytes (lowerHex02 trace.flags) = F ∧
      (trace.tracestate.isSome = true ↔
        tracestateLines headers ≠ [] ∧
          TracestateMembers level (wireMembers (tracestateLines headers))) ∧
      ∀ text, trace.tracestate = some text →
        asBytes text = joinWith comma (wireMembers (tracestateLines headers)) := by
  obtain ⟨trace, hparse, d⟩ := hparent.parse level
  exact ⟨_, selectTraceContext_of_accepted hone hparse, d.version, d.traceId, d.parentId, d.flags,
    selectTracestate_isSome_iff headers level,
    fun text htext => ((selectTracestate_eq_some_iff headers level text).mp htext).2.2⟩

/-! ### A traceparent with two tracestate lines -/

def tracedParent : HeaderLine :=
  ⟨asBytes "00-4bf92f3577b34da6a3ce929d0e0e4736-00f067aa0ba902b7-01", by decide +kernel⟩

def tracedHeaders : HeaderList :=
  [("traceparent", tracedParent),
    ("tracestate", ⟨asBytes "vendor=one", by decide +kernel⟩),
    ("tracestate", ⟨asBytes " tenant@sys=two ", by decide +kernel⟩)]

theorem selectTraceContext_grammar_traced :
    ∃ trace, selectTraceContext tracedHeaders .level1 = .ok (some trace) ∧
      asBytes trace.traceId = asBytes "4bf92f3577b34da6a3ce929d0e0e4736" ∧
      trace.tracestate = some "vendor=one,tenant@sys=two" := by
  obtain ⟨trace, hselect, -, htraceId, -, -, hiff, htext⟩ := selectTraceContext_grammar
    tracedHeaders .level1 tracedParent (asBytes "00")
    (asBytes "4bf92f3577b34da6a3ce929d0e0e4736") (asBytes "00f067aa0ba902b7") (asBytes "01") []
    rfl
    { bytes_eq := by decide +kernel
      version := by decide +kernel
      traceId := by decide +kernel
      parentId := by decide +kernel
      flags := by decide +kernel
      suffix := Or.inl rfl
      noControl := by decide +kernel }
  have hmembers := (selectTracestate_isSome_iff tracedHeaders .level1).mp (by decide +kernel)
  obtain ⟨text, hsome⟩ := Option.isSome_iff_exists.mp (hiff.mpr hmembers)
  have hjoined : joinWith comma (wireMembers (tracestateLines tracedHeaders)) =
      asBytes "vendor=one,tenant@sys=two" := by decide +kernel
  rw [asBytes_injective ((htext text hsome).trans hjoined)] at hsome
  exact ⟨trace, hselect, htraceId, hsome⟩

end AxumObservability
