import AxumObservability.Levels
import AxumObservability.Projection

/-!
# Stacked layers

Several layers around one service: each one's inner service is the next layer, and
the answer of the innermost service passes them on its way back.

* `Prepared.chosen`: the identifier and the calls of one layer;
* `callStack_follows`: inside a layer that has set the identifier header, every
  layer takes that identifier over;
* `callStack_agrees`: the layers of a stack agree on one identity.
-/

namespace AxumObservability

open Library.Panics Library.Text

variable {M V X B ε : Type}

/-! ## The stack -/

/-- Run code inside a span. -/
def inSpan {α : Type} (span : Span) (effect : Effect α) : Effect α := do
  let current := (← get).scope
  modify fun w => { w with scope := span.inScope current }
  let a ← effect
  modify fun w => { w with scope := current }
  return a

def TerminalGuard.span (guard : TerminalGuard) : Span := guard.state.bind TerminalState.span

/-- A layer of a stack that has been called: its configuration and the guard it
holds. -/
structure Layer where
  config : ObservabilityConfig
  guard : TerminalGuard

section

variable [Headers M V]

/-- A call through the layers of a stack, the outermost first: the request that the
innermost service gets, and the layers. -/
def callStack (platform : Platform) :
    List ObservabilityConfig → Request M X B → Effect (Request M X B × List Layer)
  | [], request => return (request, [])
  | config :: configs, request => do
    let (request, guard) ← prepare platform config request
    let (request, layers) ← inSpan guard.span (callStack platform configs request)
    return (request, ⟨config, guard⟩ :: layers)

/-- The answer of the innermost service on its way out, with the answers that leave
the layers, the outermost first. -/
def respondStack (platform : Platform) :
    List Layer → Except ε (Response M X) → Bool →
      Effect (Except ε (Response M X) × List (Except ε (Response M X × ObservedBody)))
  | [], answer, _ => return (answer, [])
  | layer :: layers, answer, ended => inSpan layer.guard.span do
    let (answer, left) ← respondStack platform layers answer ended
    let answer ← respond platform layer.config layer.guard answer ended
    return (answer.map Prod.fst, answer :: left)

omit [Headers M V] in
theorem inSpan_spec {α : Type} {effect : Effect α} (span : Span) {w : World}
    {Q : α → World → Prop} (h : Returns effect { w with scope := span.inScope w.scope } Q) :
    Returns (inSpan span effect) w
      fun a w' => ∃ w₁, Q a w₁ ∧ w' = { w₁ with scope := w.scope } := by
  rw [inSpan]
  apply Returns.get_bind
  apply Returns.modify_bind
  apply h.bind
  intro a w₁ hq
  apply Returns.modify_bind
  exact Returns.pure ⟨w₁, hq, rfl⟩

/-! ## One layer -/

omit [Headers M V] in
theorem startedAt_calls (platform : Platform) (config : ObservabilityConfig) (w : World) :
    Returns (startedAt platform config) w fun _ w' =>
      ∃ reads, w'.calls = w.calls ++ reads ∧ Call.generator ∉ reads := by
  apply (catchUnwind_spec .clock _ w).bind
  intro reading w' hr
  obtain ⟨-, rfl⟩ := hr
  cases reading with
  | ok started => exact Returns.pure ⟨[.clock], rfl, by simp⟩
  | error panic =>
    apply (invoke_spec .now platform.now _).mono
    intro _ w' h
    rw [h.2]
    exact ⟨[.clock, .now], by simp [World.called], by simp⟩

/-- What one layer selects, and what it calls on the way: the selection's calls, then
the clock. -/
theorem Prepared.chosen {platform : Platform} {config : ObservabilityConfig}
    {request request' : Request M X B} {w w' : World} {state : TerminalState}
    (h : Prepared platform config request w request' state w') :
    ∃ added reads, Chosen platform config w.calls
        ((Headers.getAll request.headers config.requestIdHeader).map (Headers.valueBytes M))
        state.requestContext.requestId added ∧
      w'.calls = w.calls ++ (added ++ reads) ∧ Call.generator ∉ reads := by
  obtain ⟨added, hselected, hstarted⟩ := h.selected
  obtain ⟨_, _, hrun, added', value, hchosen, rfl, -, -⟩ :=
    selectRequestId_spec platform config request.headers w
  obtain ⟨_, _, hrun', reads, hreads, hgenerator⟩ :=
    startedAt_calls platform config (w.calledAll added)
  cases hstarted.symm.trans hrun'
  have hsame := Except.ok.inj (hselected.symm.trans hrun)
  rw [Prod.mk.injEq] at hsame
  obtain rfl : added = added' :=
    List.append_cancel_left (congrArg World.calls hsame.2)
  rw [← hsame.1] at hchosen
  exact ⟨added, reads, hchosen, by rw [hreads, World.calledAll, List.append_assoc], hgenerator⟩

/-- A layer inside one that has set the identifier header: without a validator it
takes the identifier over and runs no generator. -/
theorem Prepared.follows {platform : Platform} {config : ObservabilityConfig}
    {request request' : Request M X B} {w w' : World} {state : TerminalState}
    (h : Prepared platform config request w request' state w')
    (hvalidator : config.validator = none) {requestId : RequestId}
    (hbaseline : Baseline requestId.asStr)
    (hvalues : (Headers.getAll request.headers config.requestIdHeader).map (Headers.valueBytes M) =
      [asBytes requestId.asStr]) :
    state.requestContext.requestId = requestId ∧
      ∃ inner, w'.calls = w.calls ++ inner ∧ Call.generator ∉ inner := by
  obtain ⟨added, reads, hchosen, hcalls, hreads⟩ := h.chosen
  have haccepted : Accepted config w.calls
      ((Headers.getAll request.headers config.requestIdHeader).map (Headers.valueBytes M))
      requestId.asStr := by
    refine ⟨hvalues, requestId.native, ?_⟩
    rw [hvalidator]
    exact hbaseline
  obtain ⟨hgenerator, htaken, -, -⟩ := hchosen.calls
  refine ⟨RequestId.ext (htaken _ haccepted), added ++ reads, hcalls, ?_⟩
  rw [List.mem_append, not_or]
  exact ⟨hgenerator.mpr ⟨_, haccepted⟩, hreads⟩

/-! ## The layers inside -/

/-- A layer has selected the identifier, and its trace context is that of `headers`
at its own level. -/
def Layer.Identified (layer : Layer) (requestId : RequestId) (headers : M) : Prop :=
  ∃ state, layer.guard.state = some state ∧ state.requestContext.requestId = requestId ∧
    selectTraceContext headers layer.config.traceContextLevel =
      .ok state.requestContext.traceContext

/-- What the layers of a stack have in common. -/
def Uniform (name : HeaderName) (config : ObservabilityConfig) : Prop :=
  config.requestIdHeader = name ∧ config.validator = none

/-- A run of the outermost layer and one of the others, put together. -/
theorem callStack_run_cons {platform : Platform} {config : ObservabilityConfig}
    {configs : List ObservabilityConfig} {request request₁ request' : Request M X B}
    {guard : TerminalGuard} {layers : List Layer} {w w₁ w' : World}
    (hrun : (prepare platform config request).run w = .ok ((request₁, guard), w₁))
    (hstack : (inSpan guard.span (callStack platform configs request₁)).run w₁ =
      .ok ((request', layers), w')) :
    (callStack platform (config :: configs) request).run w =
      .ok ((request', ⟨config, guard⟩ :: layers), w') := by
  rw [callStack, StateT.run_bind, hrun, ok_bind, StateT.run_bind, hstack]
  rfl

/-- The headers identify the request under `name` and have the trace headers of
`headers`. -/
structure IdentifiedHeaders (name : HeaderName) (requestId : RequestId) (headers headers' : M) :
    Prop where
  identified : (Headers.getAll headers' name).map (Headers.valueBytes M) =
    [asBytes requestId.asStr]
  parent : Headers.getAll headers' "traceparent" = Headers.getAll headers "traceparent"
  state : Headers.getAll headers' "tracestate" = Headers.getAll headers "tracestate"

/-- A layer leaves headers that identify the request, and the trace headers alone. -/
theorem Prepared.identifiedHeaders {platform : Platform} {config : ObservabilityConfig}
    {request request' : Request M X B} {w w' : World} {state : TerminalState}
    (h : Prepared platform config request w request' state w')
    (hparent : config.requestIdHeader ≠ "traceparent")
    (hstate : config.requestIdHeader ≠ "tracestate") :
    IdentifiedHeaders config.requestIdHeader state.requestContext.requestId request.headers
      request'.headers := by
  obtain ⟨value, hbytes, hinsert⟩ := h.inserted
  rw [hinsert]
  refine ⟨?_, ?_, ?_⟩
  · rw [Headers.getAll_insert, if_pos rfl, List.map_singleton, hbytes]
  · rw [Headers.getAll_insert, if_neg hparent.symm]
  · rw [Headers.getAll_insert, if_neg hstate.symm]

/-- **Every inner layer follows.**  By induction on the layers: each one finds the
identifier alone under the header name and leaves it there. -/
theorem callStack_follows (platform : Platform) {name : HeaderName}
    (hname : name ≠ "traceparent" ∧ name ≠ "tracestate") {requestId : RequestId}
    (hbaseline : Baseline requestId.asStr) (headers : M) {configs : List ObservabilityConfig}
    (huniform : ∀ config ∈ configs, Uniform name config) {request : Request M X B} {w : World}
    (hheaders : IdentifiedHeaders name requestId headers request.headers) :
    Returns (callStack platform configs request) w fun r w' =>
      IdentifiedHeaders name requestId headers r.1.headers ∧
      r.2.map Layer.config = configs ∧ (∀ layer ∈ r.2, layer.Identified requestId headers) ∧
      ∃ inner, w'.calls = w.calls ++ inner ∧ Call.generator ∉ inner := by
  induction configs generalizing request w with
  | nil => exact Returns.pure ⟨hheaders, rfl, by simp, [], by simp, by simp⟩
  | cons config configs ih =>
    obtain ⟨⟨rfl, hvalidator⟩, hrest⟩ := List.forall_mem_cons.mp huniform
    apply (prepare_spec platform config request w).bind
    intro prepared w₁ h
    obtain ⟨request₁, guard⟩ := prepared
    obtain ⟨state, rfl, hprepared⟩ := h
    obtain ⟨hid, inner₁, hcalls₁, hgenerator₁⟩ :=
      hprepared.follows hvalidator hbaseline hheaders.identified
    have hheaders₁ := hprepared.identifiedHeaders hname.1 hname.2
    rw [hid] at hheaders₁
    have hnext : IdentifiedHeaders config.requestIdHeader requestId headers request₁.headers :=
      ⟨hheaders₁.identified, hheaders₁.parent.trans hheaders.parent,
        hheaders₁.state.trans hheaders.state⟩
    apply (inSpan_spec _ (ih hrest hnext)).bind
    intro r w' h
    obtain ⟨w₂, ⟨hheaders₂, hconfigs, hlayers, inner₂, hcalls₂, hgenerator₂⟩, rfl⟩ := h
    refine Returns.pure ⟨hheaders₂, by rw [List.map_cons, hconfigs], ?_, inner₁ ++ inner₂, ?_, ?_⟩
    · refine List.forall_mem_cons.mpr ⟨⟨state, rfl, hid, ?_⟩, hlayers⟩
      rw [← hprepared.trace]
      exact selectTraceContext_congr _ hnext.parent.symm hnext.state.symm
    · rw [← List.append_assoc, ← hcalls₁]
      exact hcalls₂
    · rw [List.mem_append, not_or]
      exact ⟨hgenerator₁, hgenerator₂⟩

/-! ## The way out -/

/-- **The answer on its way out.**  Every layer that sets the response header sets
the identifier, alone. -/
theorem respondStack_spec (platform : Platform) {name : HeaderName} {requestId : RequestId}
    {layers : List Layer} (hname : ∀ layer ∈ layers, layer.config.requestIdHeader = name)
    (hlayers : ∀ layer ∈ layers, ∃ state, layer.guard.state = some state ∧
      state.requestContext.requestId = requestId) (head : Response M X) (ended : Bool) (w : World) :
    Returns (respondStack platform layers (.ok head : Except ε (Response M X)) ended) w
      fun r _ => (∃ head', r.1 = .ok head') ∧ List.Forall₂ (fun layer answer =>
        ∃ head' body, answer = .ok (head', body) ∧ (layer.config.responseHeader = true →
          ∃ value, Headers.getAll head'.headers name = [value] ∧
            Headers.valueBytes M value = asBytes requestId.asStr)) layers r.2 := by
  induction layers generalizing w with
  | nil => exact Returns.pure ⟨⟨head, rfl⟩, .nil⟩
  | cons layer layers ih =>
    obtain ⟨rfl, hnames⟩ := List.forall_mem_cons.mp hname
    obtain ⟨⟨state, hstate, hid⟩, hrest⟩ := List.forall_mem_cons.mp hlayers
    have hlayer : ∀ w, Returns (do
        let (answer, left) ← respondStack platform layers (.ok head : Except ε (Response M X)) ended
        let answer ← respond platform layer.config layer.guard answer ended
        return (answer.map Prod.fst, answer :: left)) w
        fun r _ => (∃ head', r.1 = .ok head') ∧ List.Forall₂ (fun layer' answer =>
          ∃ head' body, answer = .ok (head', body) ∧ (layer'.config.responseHeader = true →
            ∃ value, Headers.getAll head'.headers layer.config.requestIdHeader = [value] ∧
              Headers.valueBytes M value = asBytes requestId.asStr)) (layer :: layers) r.2 := by
      intro w
      apply (ih hnames hrest w).bind
      intro r w' h
      obtain ⟨answer, left⟩ := r
      obtain ⟨⟨inner, rfl⟩, hleft⟩ := h
      apply (respond_spec platform layer.config hstate inner ended w').bind
      intro answer w'' h
      obtain ⟨head', body, rfl, hdelivered, -⟩ := h
      refine Returns.pure ⟨⟨head', rfl⟩, .cons ⟨head', body, rfl, fun hon => ?_⟩ hleft⟩
      rw [← hid]
      exact hdelivered.identified hon
    apply (inSpan_spec _ (hlayer _)).mono
    intro r w' h
    obtain ⟨_, hr, -⟩ := h
    exact hr

/-! ## One identity -/

/-- The identifiers and flags of a trace context. -/
def TraceContext.identity (trace : TraceContext) : String × String × UInt8 :=
  (trace.traceId, trace.parentId, trace.flags)

/-- The identity of a trace context does not depend on the level. -/
theorem selectTraceContext_identity {headers : M} {level level' : TraceContextLevel}
    {trace trace' : Option TraceContext} (h : selectTraceContext headers level = .ok trace)
    (h' : selectTraceContext headers level' = .ok trace') :
    trace'.map TraceContext.identity = trace.map TraceContext.identity := by
  cases trace with
  | some trace =>
    cases h'.symm.trans (selectTraceContext_atLevel h level').2.2
    rfl
  | none =>
    cases trace' with
    | none => rfl
    | some trace' => cases h.symm.trans (selectTraceContext_atLevel h' level).2.2

omit [Headers M V] in
/-- The correlation identifier follows from the two identities. -/
theorem RequestContext.correlationId_eq {context context' : RequestContext}
    (hid : context'.requestId = context.requestId)
    (htrace : context'.traceContext.map TraceContext.identity =
      context.traceContext.map TraceContext.identity) :
    context'.correlationId = context.correlationId := by
  have hcorrelation : ∀ context : RequestContext, context.correlationId =
      ((context.traceContext.map TraceContext.identity).map Prod.fst).getD
        context.requestId.asStr := by
    intro context
    rw [context.correlated]
    cases context.traceContext <;> rfl
  rw [hcorrelation, hcorrelation, htrace, hid]

/-- **A stack of layers agrees on one identity.**  All layers have the identifier
that the outermost one selects, and with it one correlation identifier and one trace
identity, whatever their levels. No layer inside runs its generator. The innermost
service sees the identifier as the only value of the header, and so does everyone
who gets the response from a layer that sets it. -/
theorem callStack_agrees (platform : Platform) (config : ObservabilityConfig)
    (configs : List ObservabilityConfig) (name : HeaderName) (request : Request M X B) (w : World)
    (hname : name ≠ "traceparent" ∧ name ≠ "tracestate")
    (huniform : ∀ c ∈ config :: configs, c.requestIdHeader = name ∧ c.validator = none)
    (hgenerators : ∀ c ∈ config :: configs, ∀ calls id, c.generator calls () = .ok (some id) →
      ∃ text, RequestId.parse text = .ok id) :
    ∃ request₁ guard w₁ request' layers w' requestId correlationId identity,
      (prepare platform config request).run w = .ok ((request₁, guard), w₁) ∧
      (callStack platform (config :: configs) request).run w =
        .ok ((request', ⟨config, guard⟩ :: layers), w') ∧
      layers.map Layer.config = configs ∧
      (∃ inner, w'.calls = w₁.calls ++ inner ∧ Call.generator ∉ inner) ∧
      (∀ layer ∈ ⟨config, guard⟩ :: layers, ∃ state, layer.guard.state = some state ∧
        state.requestContext.requestId = requestId ∧
        state.requestContext.correlationId = correlationId ∧
        state.requestContext.traceContext.map (fun trace =>
          (trace.traceId, trace.parentId, trace.flags)) = identity) ∧
      (∃ value, Headers.getAll request'.headers name = [value] ∧
        Headers.valueBytes M value = asBytes requestId.asStr) ∧
      ∀ (head : Response M X) (ended : Bool) (w₂ : World), ∃ head' left w₃,
        (respondStack platform (⟨config, guard⟩ :: layers)
          (.ok head : Except ε (Response M X)) ended).run w₂ = .ok ((.ok head', left), w₃) ∧
        List.Forall₂ (fun layer answer => ∃ head' body, answer = .ok (head', body) ∧
          (layer.config.responseHeader = true →
            ∃ value, Headers.getAll head'.headers name = [value] ∧
              Headers.valueBytes M value = asBytes requestId.asStr))
          (⟨config, guard⟩ :: layers) left := by
  obtain ⟨⟨rfl, hvalidator⟩, hrest⟩ := List.forall_mem_cons.mp huniform
  obtain ⟨⟨request₁, guard⟩, w₁, hrun, state, rfl, hprepared⟩ :=
    prepare_spec platform config request w
  obtain ⟨added, reads, hchosen, -, -⟩ := hprepared.chosen
  have hbaseline : Baseline state.requestContext.requestId.asStr := by
    apply hchosen.baseline
    · intro v haccepted
      have hpolicy := haccepted.2.2
      rw [hvalidator] at hpolicy
      exact hpolicy
    · intro id hid
      obtain ⟨text, htext⟩ := hgenerators config List.mem_cons_self _ id hid
      exact RequestId.baseline_of_parse htext
  have hheaders := hprepared.identifiedHeaders hname.1 hname.2
  obtain ⟨⟨request', layers⟩, w', hstack, w₂, ⟨hout, hconfigs, hlayers, inner, hcalls, hgenerator⟩,
    rfl⟩ := inSpan_spec (TerminalGuard.span ⟨some state⟩) (w := w₁)
      (callStack_follows platform hname hbaseline request.headers hrest hheaders)
  have hfirst : (⟨config, ⟨some state⟩⟩ : Layer).Identified state.requestContext.requestId
      request.headers := by
    refine ⟨state, rfl, rfl, ?_⟩
    rw [← hprepared.trace]
    exact selectTraceContext_congr _ hheaders.parent.symm hheaders.state.symm
  have hall : ∀ layer ∈ (⟨config, ⟨some state⟩⟩ : Layer) :: layers,
      layer.Identified state.requestContext.requestId request.headers :=
    List.forall_mem_cons.mpr ⟨hfirst, hlayers⟩
  have hnames : ∀ layer ∈ (⟨config, ⟨some state⟩⟩ : Layer) :: layers,
      layer.config.requestIdHeader = config.requestIdHeader := by
    refine List.forall_mem_cons.mpr ⟨rfl, fun layer hlayer => ?_⟩
    exact (hrest layer.config (hconfigs ▸ List.mem_map_of_mem hlayer)).1
  refine ⟨request₁, ⟨some state⟩, w₁, request', layers, { w₂ with scope := w₁.scope },
    state.requestContext.requestId, state.requestContext.correlationId,
    state.requestContext.traceContext.map TraceContext.identity, hrun, ?_, hconfigs,
    ⟨inner, hcalls, hgenerator⟩, ?_, ?_, ?_⟩
  · exact callStack_run_cons hrun hstack
  · intro layer hlayer
    obtain ⟨state', hstate', hid, htrace'⟩ := hall layer hlayer
    obtain ⟨state₀, hstate₀, -, htrace₀⟩ := hfirst
    cases hstate₀
    have hidentity := selectTraceContext_identity htrace₀ htrace'
    exact ⟨state', hstate', hid, RequestContext.correlationId_eq hid hidentity, hidentity⟩
  · have hvalues := hout.identified
    rw [List.map_eq_singleton_iff] at hvalues
    exact hvalues
  · intro head ended w₃
    obtain ⟨⟨answer, left⟩, w₄, hanswer, ⟨head', rfl⟩, hleft⟩ :=
      respondStack_spec (ε := ε) platform hnames
        (fun layer hlayer => (hall layer hlayer).imp fun _ h => ⟨h.1, h.2.1⟩) head ended w₃
    exact ⟨head', left, w₄, hanswer, hleft⟩

end

/-! ### Two layers of different levels -/

theorem default_generator_parsed (platform : Platform) (calls : List Call) (id : RequestId)
    (h : (ObservabilityConfig.default platform).generator calls () = .ok (some id)) :
    ∃ text, RequestId.parse text = .ok id := by
  have hanswer : (ObservabilityConfig.default platform).generator calls () =
      .ok (some ⟨_, native_of_validate (platform.newV4 calls).validate_simple⟩) := by
    simp only [ObservabilityConfig.default, requestIdOfUuid_eq]
    rfl
  cases h.symm.trans hanswer
  exact ⟨_, RequestId.parse_of_validate (platform.newV4 calls).validate_simple⟩

def levelTwoConfig : ObservabilityConfig :=
  { ObservabilityConfig.default .reference with traceContextLevel := .level2 }

theorem callStack_agrees_two :
    ∃ request' layers w' requestId, (callStack .reference
        [.default .reference, levelTwoConfig] tracedArrival).run .initial =
        .ok ((request', layers), w') ∧ layers.length = 2 ∧
      (∀ layer ∈ layers, ∃ state, layer.guard.state = some state ∧
        state.requestContext.requestId = requestId) ∧
      ∃ value, Headers.getAll request'.headers "x-request-id" = [value] ∧
        Headers.valueBytes HeaderList value = asBytes requestId.asStr := by
  have huniform : ∀ c ∈ [ObservabilityConfig.default .reference, levelTwoConfig],
      c.requestIdHeader = "x-request-id" ∧ c.validator = none := by
    simp [ObservabilityConfig.default, levelTwoConfig]
  have hgenerators : ∀ c ∈ [ObservabilityConfig.default .reference, levelTwoConfig],
      ∀ calls id, c.generator calls () = .ok (some id) → ∃ text, RequestId.parse text = .ok id := by
    intro c hc calls id h
    simp only [List.mem_cons, List.not_mem_nil, or_false] at hc
    rcases hc with rfl | rfl
    · exact default_generator_parsed .reference calls id h
    · exact default_generator_parsed .reference calls id h
  obtain ⟨_, guard, _, request', layers, w', requestId, _, _, -, hstack, hconfigs, -, hlayers,
    hvalue, -⟩ := callStack_agrees (ε := String) .reference (.default .reference) [levelTwoConfig]
      "x-request-id" tracedArrival .initial (by decide) huniform hgenerators
  refine ⟨request', _, w', requestId, hstack, ?_, fun layer hlayer => ?_, hvalue⟩
  · rw [List.length_cons, ← List.length_map (f := Layer.config), hconfigs]
    rfl
  · obtain ⟨state, hstate, hid, -⟩ := hlayers layer hlayer
    exact ⟨state, hstate, hid⟩

end AxumObservability
