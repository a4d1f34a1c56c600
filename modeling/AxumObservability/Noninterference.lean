import AxumObservability.Isolation
import AxumObservability.Privacy

/-!
# What a log gives away

Two servers get inputs that differ in what a log may not show: the rest of a traceparent, a
tracestate, a query, an address, a header. However the exchanges interleave, the two logs are
the same, byte for byte.

* `coupled_prepare`, `coupled_finish`: two requests, and two guards, side by side;
* `Exchange.Matches.step`: one operation on two exchanges that match;
* `server_noninterference`: two runs leave one log.
-/

namespace AxumObservability

open Library.FieldMap Library.Json Library.Machines Library.Panics Library.Text

variable {κ M V X B ε δ η : Type}

/-! ## Calls and worlds -/

/-- Two calls show the callee the same, but for what a context has beyond its correlation
fields. -/
inductive Call.Alike : Call → Call → Prop where
  | same (call : Call) : Alike call call
  | enricher {context₁ context₂ : RequestContext}
    (fields : context₁.correlationFields = context₂.correlationFields) :
    Alike (.enricher context₁) (.enricher context₂)

/-- What is answered after calls that are alike is the same. -/
def Unmoved {α : Type} (answer : List Call → α) : Prop :=
  ∀ calls₁ calls₂, List.Forall₂ Call.Alike calls₁ calls₂ → answer calls₁ = answer calls₂

/-- The sources of time and randomness go by nothing that a log may not show. -/
structure Platform.Discreet (platform : Platform) : Prop where
  newV4 : Unmoved platform.newV4
  now : Unmoved platform.now
  timestamp : Unmoved platform.timestamp

/-- Neither do the callbacks of the application. -/
structure ObservabilityConfig.Discreet (config : ObservabilityConfig) : Prop where
  generator : Unmoved fun calls => config.generator calls ()
  validator : ∀ validator, config.validator = some validator →
    ∀ value, Unmoved fun calls => validator calls value
  levelMapper : ∀ status, Unmoved fun calls => config.levelMapper calls status
  clock : Unmoved fun calls => config.clock calls ()
  enricher : ∀ calls₁ calls₂ context₁ context₂, List.Forall₂ Call.Alike calls₁ calls₂ →
    context₁.correlationFields = context₂.correlationFields →
      config.enricher calls₁ context₁ = config.enricher calls₂ context₂

/-- Two worlds in which the same was logged. -/
structure World.Alike (w₁ w₂ : World) : Prop where
  calls : List.Forall₂ Call.Alike w₁.calls w₂.calls
  scope : w₁.scope = w₂.scope
  emitted : w₁.emitted = w₂.emitted
  log : w₁.log = w₂.log

theorem World.Alike.refl (w : World) : w.Alike w :=
  ⟨List.forall₂_same.mpr fun call _ => .same call, rfl, rfl, rfl⟩

section

variable {w₁ w₂ : World} {call₁ call₂ : Call}

theorem World.Alike.called (h : w₁.Alike w₂) (hcall : call₁.Alike call₂) :
    (w₁.called call₁).Alike (w₂.called call₂) :=
  ⟨List.rel_append h.calls (.cons hcall .nil), h.scope, h.emitted, h.log⟩

theorem coupled_catchUnwind {α : Type} {answer₁ answer₂ : List Call → Result α}
    (hcall : call₁.Alike call₂) (h : ∀ calls₁ calls₂, List.Forall₂ Call.Alike calls₁ calls₂ →
      answer₁ calls₁ = answer₂ calls₂) :
    Coupled World.Alike Eq (catchUnwind call₁ answer₁) (catchUnwind call₂ answer₂) :=
  fun _ _ hw => Or.inr ⟨_, _, _, _, rfl, rfl, h _ _ hw.calls, hw.called hcall⟩

theorem coupled_invoke {α : Type} (call : Call) {answer : List Call → α} (h : Unmoved answer) :
    Coupled World.Alike Eq (invoke call answer) (invoke call answer) :=
  fun _ _ hw => Or.inr ⟨_, _, _, _, rfl, rfl, h _ _ hw.calls, hw.called (.same call)⟩

end

/-! ## Emitting -/

section

variable {platform : Platform}

theorem coupled_dispatch (hplatform : platform.Discreet) (scope : List SpanData) (event : Event) :
    Coupled World.Alike Eq (dispatch platform scope event) (dispatch platform scope event) := by
  unfold dispatch
  split
  · refine Coupled.get.bind fun w₁ w₂ hw => ?_
    rw [hw.calls.length_eq]
    refine (coupled_invoke .nowUtc hplatform.timestamp).bind fun timestamp _ h => ?_
    subst h
    refine Coupled.get.bind fun w₁ w₂ hw => ?_
    rw [hw.log]
    refine (Coupled.lift _).bind fun log _ h => ?_
    subst h
    exact (Coupled.set ⟨hw.calls, hw.scope, hw.emitted, rfl⟩).mono fun _ _ _ => rfl
  · exact Coupled.pure rfl

theorem coupled_dispatchAll (hplatform : platform.Discreet) (scope : List SpanData)
    (events : List ApplicationEvent) : Coupled World.Alike Eq (dispatchAll platform scope events)
      (dispatchAll platform scope events) := by
  induction events with
  | nil => exact Coupled.pure rfl
  | cons e events ih => exact (coupled_dispatch hplatform _ e.event).bind fun _ _ _ => ih

theorem coupled_emitAccess (hplatform : platform.Discreet) (scope : List SpanData) (level : Level)
    (serialized : String) : Coupled World.Alike Eq (emitAccess platform scope level serialized)
      (emitAccess platform scope level serialized) := by
  unfold emitAccess
  refine Coupled.bind (Coupled.modify fun w₁ w₂ hw => ?_) fun _ _ _ =>
    coupled_dispatch hplatform scope _
  exact ⟨hw.calls, hw.scope, by rw [hw.emitted], hw.log⟩

end

/-! ## Guards -/

/-- Two captured states that differ in what a log may not show. -/
structure TerminalState.Matches (s₁ s₂ : TerminalState) : Prop where
  discreet : s₁.config.Discreet
  context : s₁.requestContext.correlationFields = s₂.requestContext.correlationFields
  metadata : s₁.metadata = s₂.metadata
  started : s₁.started = s₂.started
  status : s₁.status = s₂.status
  config : s₁.config = s₂.config
  span : s₁.span = s₂.span

def TerminalGuard.Matches (g₁ g₂ : TerminalGuard) : Prop :=
  Option.Rel TerminalState.Matches g₁.state g₂.state

section

variable {platform : Platform} {s₁ s₂ : TerminalState} {g₁ g₂ : TerminalGuard}

theorem TerminalGuard.Matches.span_eq (h : g₁.Matches g₂) : g₁.span = g₂.span := by
  obtain ⟨state₁⟩ := g₁
  obtain ⟨state₂⟩ := g₂
  cases h with
  | none => rfl
  | some hstate => simp only [TerminalGuard.span, Option.bind_some, hstate.span]

/-- States that match make equal records. -/
theorem TerminalState.Matches.toValue_eq (h : s₁.Matches s₂) (float : FloatArithmetic)
    (outcome : TerminalOutcome) (finished : Instant) (enrichment : Map) :
    (s₁.record float outcome finished enrichment).toValue =
      (s₂.record float outcome finished enrichment).toValue := by
  have haccess : (s₁.record float outcome finished enrichment).accessFields =
      (s₂.record float outcome finished enrichment).accessFields := by
    simp only [TerminalState.record, AccessRecord.accessFields, h.metadata, h.status, h.started]
  simp only [AccessRecord.toValue, AccessRecord.fields, AccessRecord.ownFields,
    record_correlationFields, h.context, haccess]
  rfl

theorem TerminalState.Matches.coupled_terminalLevel (h : s₁.Matches s₂)
    (outcome : TerminalOutcome) :
    Coupled World.Alike Eq (s₁.terminalLevel outcome) (s₂.terminalLevel outcome) := by
  cases outcome with
  | completed =>
    unfold TerminalState.terminalLevel
    rw [← h.status]
    refine (Coupled.lift _).bind fun status _ hstatus => ?_
    subst hstatus
    unfold TerminalState.mappedLevel
    rw [← h.config]
    refine (coupled_catchUnwind (.same _) (h.discreet.levelMapper status)).bind
      fun mapped _ hmapped => ?_
    subst hmapped
    exact Coupled.pure rfl
  | _ => exact Coupled.pure rfl

/-- Guards that match finish alike. -/
theorem coupled_finish (hplatform : platform.Discreet) (h : g₁.Matches g₂)
    (outcome : TerminalOutcome) : Coupled World.Alike TerminalGuard.Matches
      (g₁.finish platform outcome) (g₂.finish platform outcome) := by
  obtain ⟨state₁⟩ := g₁
  obtain ⟨state₂⟩ := g₂
  cases h with
  | none => exact Coupled.pure .none
  | some hstate =>
    rename_i s₁ s₂
    unfold TerminalGuard.finish
    refine (hstate.coupled_terminalLevel outcome).bind fun level _ hlevel => ?_
    subst hlevel
    rw [← hstate.config]
    refine (coupled_catchUnwind (.same .clock) hstate.discreet.clock).bind
      fun finished _ hfinished => ?_
    subst hfinished
    refine (coupled_catchUnwind (.enricher hstate.context) fun calls₁ calls₂ hcalls =>
      hstate.discreet.enricher _ _ _ _ hcalls hstate.context).bind fun enrichment _ h => ?_
    subst h
    dsimp only
    rw [hstate.toValue_eq, hstate.started]
    refine (Coupled.lift _).bind fun serialized _ h => ?_
    subst h
    refine Coupled.get.bind fun w₁ w₂ hw => ?_
    rw [hstate.span, hw.scope]
    exact (coupled_emitAccess hplatform _ level serialized).bind fun _ _ _ => Coupled.pure .none

end

/-! ## Requests -/

section

variable [Headers M V] {platform : Platform} {config : ObservabilityConfig}

theorem coupled_acceptsRequestId (hconfig : config.Discreet) (value : String) :
    Coupled World.Alike Eq (acceptsRequestId config value) (acceptsRequestId config value) := by
  unfold acceptsRequestId
  cases hvalidator : config.validator with
  | none => exact Coupled.pure rfl
  | some validator =>
    refine (coupled_catchUnwind (.same _) (hconfig.validator validator hvalidator value)).bind
      fun accepted _ h => ?_
    subst h
    exact Coupled.pure rfl

theorem coupled_generateRequestId (hplatform : platform.Discreet) (hconfig : config.Discreet) :
    Coupled World.Alike Eq (generateRequestId platform config)
      (generateRequestId platform config) := by
  unfold generateRequestId
  refine (coupled_catchUnwind (.same _) hconfig.generator).bind fun value _ h => ?_
  subst h
  cases value.toOption.join with
  | some requestId => exact Coupled.pure rfl
  | none =>
    refine (coupled_invoke .newV4 hplatform.newV4).bind fun uuid _ h => ?_
    subst h
    exact Coupled.lift _

theorem coupled_chooseRequestId (hplatform : platform.Discreet) (hconfig : config.Discreet)
    (values : List Bytes) : Coupled World.Alike Eq (chooseRequestId platform config values)
      (chooseRequestId platform config values) := by
  have hgenerate := coupled_generateRequestId hplatform hconfig
  unfold chooseRequestId
  dsimp only
  split
  · split
    · exact hgenerate
    · rename_i value _
      refine (coupled_acceptsRequestId hconfig value).bind fun accepted _ h => ?_
      subst h
      split
      · split
        · exact Coupled.pure rfl
        · exact hgenerate
      · exact hgenerate
  · exact hgenerate

theorem coupled_startedAt (hplatform : platform.Discreet) (hconfig : config.Discreet) :
    Coupled World.Alike Eq (startedAt platform config) (startedAt platform config) := by
  unfold startedAt
  refine (coupled_catchUnwind (.same _) hconfig.clock).bind fun reading _ h => ?_
  subst h
  cases reading with
  | ok started => exact Coupled.pure rfl
  | error panic => exact coupled_invoke .now hplatform.now

/-- Requests with one value of the identifier header get one identifier. -/
theorem coupled_selectRequestId (hplatform : platform.Discreet) (hconfig : config.Discreet)
    {headers₁ headers₂ : M} (h : headerBytes headers₁ config.requestIdHeader =
      headerBytes headers₂ config.requestIdHeader) :
    Coupled World.Alike (fun selected₁ selected₂ => selected₁.1 = selected₂.1)
      (selectRequestId platform config headers₁) (selectRequestId platform config headers₂) := by
  unfold selectRequestId
  dsimp only
  rw [headerBytes, headerBytes] at h
  rw [h]
  refine (coupled_chooseRequestId hplatform hconfig _).bind fun requestId _ h => ?_
  subst h
  refine (Coupled.lift _).bind fun value _ h => ?_
  exact Coupled.pure rfl

/-- What the inner service gets of two requests that agree agrees. -/
theorem Prepared.agree {r₁ r₂ r₁' r₂' : Request M X B} {s₁ s₂ : TerminalState}
    {w₁ w₂ w₁' w₂' : World} (h₁ : Prepared platform config r₁ w₁ r₁' s₁ w₁')
    (h₂ : Prepared platform config r₂ w₂ r₂' s₂ w₂') (h : r₁.Agree config r₂)
    (hid : s₁.requestContext.requestId = s₂.requestContext.requestId) : r₁'.Agree config r₂' := by
  obtain ⟨v₁, hbytes₁, hinserted₁⟩ := h₁.inserted
  obtain ⟨v₂, hbytes₂, hinserted₂⟩ := h₂.inserted
  have hbytes : Headers.valueBytes M v₁ = Headers.valueBytes M v₂ :=
    hbytes₁.trans (hid ▸ hbytes₂.symm)
  have hpassed : ∀ {α : Type} (field : Request M X B → α),
      field r₁' = field _ ∧ field r₂' = field _ := fun field =>
    ⟨congrArg field h₁.passed, congrArg field h₂.passed⟩
  refine ⟨?_, ?_, ?_, ?_, fun hon => ?_, fun hon => ?_, fun hon => ?_⟩
  · rw [(hpassed Request.method).1, (hpassed Request.method).2]
    exact h.method
  · rw [hinserted₁, hinserted₂]
    exact read_insert
      (fun values => (acceptedTraceparent config.traceContextLevel values).map (List.take 55))
      config.requestIdHeader "traceparent" hbytes h.traceparent
  · rw [(hpassed Request.extensions).1, (hpassed Request.extensions).2]
    exact h.matchedPath
  · rw [(hpassed Request.extensions).1, (hpassed Request.extensions).2]
    exact h.operationId
  · rw [(hpassed Request.uri).1, (hpassed Request.uri).2]
    exact h.path hon
  · rw [(hpassed Request.extensions).1, (hpassed Request.extensions).2]
    exact h.peerIp hon
  · have hread := h.userAgent hon
    rw [exactlyOneHeader_eq, exactlyOneHeader_eq] at hread ⊢
    rw [hinserted₁, hinserted₂]
    exact read_insert callerValue config.requestIdHeader "user-agent" hbytes hread

omit [Headers M V] in
theorem requestSpan_congr (platform : Platform) (scope : List SpanData)
    {context₁ context₂ : RequestContext}
    (h : context₁.correlationFields = context₂.correlationFields) :
    requestSpan platform scope context₁ = requestSpan platform scope context₂ := by
  have hspan : requestSpanData context₁ = requestSpanData context₂ := by
    have hrequest : ∀ context, requestSpanData context = ⟨requestMetadata,
        some (.ofList (ofOptions context.correlationFields))⟩ := fun context => by
      rw [← requestSpanData_requestSpanFields]
      rfl
    rw [hrequest, hrequest, h]
  unfold requestSpan
  rw [← requestSpanData, ← requestSpanData, hspan]

/-- **Two requests that agree** are prepared alike. -/
theorem coupled_prepare (hplatform : platform.Discreet) (hconfig : config.Discreet)
    {r₁ r₂ : Request M X B} (h : r₁.Agree config r₂)
    (hid : headerBytes r₁.headers config.requestIdHeader =
      headerBytes r₂.headers config.requestIdHeader) :
    Coupled World.Alike
      (fun prepared₁ prepared₂ => prepared₁.1.Agree config prepared₂.1 ∧
        prepared₁.2.Matches prepared₂.2)
      (prepare platform config r₁) (prepare platform config r₂) := by
  intro w₁ w₂ hw
  obtain ⟨⟨r₁', g₁⟩, w₁', hrun₁, s₁, hguard₁, hprepared₁⟩ := prepare_spec platform config r₁ w₁
  obtain ⟨⟨r₂', g₂⟩, w₂', hrun₂, s₂, hguard₂, hprepared₂⟩ := prepare_spec platform config r₂ w₂
  obtain ⟨added₁, hselected₁, hstarted₁⟩ := hprepared₁.selected
  obtain ⟨added₂, hselected₂, hstarted₂⟩ := hprepared₂.selected
  obtain ⟨hsame, hselected⟩ := (coupled_selectRequestId hplatform hconfig hid).of_run hw
    hselected₁ hselected₂
  obtain ⟨hstarted, hw'⟩ := (coupled_startedAt hplatform hconfig).of_run hselected hstarted₁
    hstarted₂
  refine Or.inr ⟨_, _, _, _, hrun₁, hrun₂, ⟨hprepared₁.agree hprepared₂ h hsame, ?_⟩, hw'⟩
  cases hguard₁
  cases hguard₂
  have hcontext := hprepared₁.correlationFields_eq hprepared₂ h hsame
  refine .some ⟨?_, hcontext, hprepared₁.metadata_eq hprepared₂ h hsame, hstarted, ?_, ?_, ?_⟩
  · rw [hprepared₁.configured]
    exact hconfig
  · rw [hprepared₁.fresh, hprepared₂.fresh]
  · rw [hprepared₁.configured, hprepared₂.configured]
  · rw [hprepared₁.span, hprepared₂.span, hw.scope]
    exact requestSpan_congr platform _ hcontext

end

/-! ## Exchanges -/

/-- Two answers of inner futures differ in what a log may not show. -/
inductive FutureAlike : Result (Poll (Except ε (Response M X))) →
    Result (Poll (Except ε (Response M X))) → Prop where
  | panicked (panic₁ panic₂ : Panic) : FutureAlike (.error panic₁) (.error panic₂)
  | pending : FutureAlike (.ok .pending) (.ok .pending)
  | failed (error₁ error₂ : ε) :
    FutureAlike (.ok (.ready (.error error₁))) (.ok (.ready (.error error₂)))
  | answered {head₁ head₂ : Response M X} (status : head₁.status = head₂.status)
    (operationId : head₁.extensions.operationId = head₂.extensions.operationId) :
    FutureAlike (.ok (.ready (.ok head₁))) (.ok (.ready (.ok head₂)))

/-- Two polls of inner bodies differ in their frames or errors. -/
inductive FrameAlike : Result (Poll (Option (Except η δ))) →
    Result (Poll (Option (Except η δ))) → Prop where
  | panicked (panic₁ panic₂ : Panic) : FrameAlike (.error panic₁) (.error panic₂)
  | pending : FrameAlike (.ok .pending) (.ok .pending)
  | ended : FrameAlike (.ok (.ready none)) (.ok (.ready none))
  | failed (error₁ error₂ : η) :
    FrameAlike (.ok (.ready (some (.error error₁)))) (.ok (.ready (some (.error error₂))))
  | frame (frame₁ frame₂ : δ) :
    FrameAlike (.ok (.ready (some (.ok frame₁)))) (.ok (.ready (some (.ok frame₂))))

/-- Two inner services, in states that `R` relates, answer alike: called with requests that
agree, they differ in what a log may not show. -/
structure ReadyService.Matches [Headers M V] (config : κ → ObservabilityConfig)
    (service₁ service₂ : ReadyService M X B ε δ η)
    (R : service₁.State → service₂.State → Prop) : Prop where
  pollReady : ∀ i₁ i₂, R i₁ i₂ → R (service₁.pollReady i₁).2 (service₂.pollReady i₂).2
  call : ∀ k (r₁ r₂ : Request M X B) i₁ i₂, r₁.Agree (config k) r₂ → R i₁ i₂ →
    (service₁.call i₁ r₁).1.isOk = (service₂.call i₂ r₂).1.isOk ∧
      R (service₁.call i₁ r₁).2 (service₂.call i₂ r₂).2
  pollFuture : ∀ i₁ i₂, R i₁ i₂ →
    FutureAlike (service₁.pollFuture i₁).1 (service₂.pollFuture i₂).1 ∧
      R (service₁.pollFuture i₁).2 (service₂.pollFuture i₂).2
  dropFuture : ∀ i₁ i₂, R i₁ i₂ → R (service₁.dropFuture i₁).2 (service₂.dropFuture i₂).2
  pollFrame : ∀ i₁ i₂, R i₁ i₂ →
    FrameAlike (service₁.pollFrame i₁).1 (service₂.pollFrame i₂).1 ∧
      R (service₁.pollFrame i₁).2 (service₂.pollFrame i₂).2
  isEndStream : ∀ i₁ i₂, R i₁ i₂ → service₁.isEndStream i₁ = service₂.isEndStream i₂
  dropBody : ∀ i₁ i₂, R i₁ i₂ → R (service₁.dropBody i₁).2 (service₂.dropBody i₂).2
  external : ∀ n i₁ i₂, R i₁ i₂ → R (service₁.external n i₁) (service₂.external n i₂)

inductive Stage.Matches : Stage → Stage → Prop where
  | future {guard₁ guard₂ : TerminalGuard} (guards : guard₁.Matches guard₂) :
    Matches (.future guard₁) (.future guard₂)
  | body {body₁ body₂ : ObservedBody} (guards : body₁.guard.Matches body₂.guard) :
    Matches (.body body₁) (.body body₂)
  | gone : Matches .gone .gone

section

variable [Headers M V] {platform : Platform} {config : ObservabilityConfig}
  {guard₁ guard₂ : TerminalGuard}

omit [Headers M V] in
theorem TerminalGuard.Matches.setHead (h : guard₁.Matches guard₂) {head₁ head₂ : Response M X}
    (hstatus : head₁.status = head₂.status)
    (hoperation : head₁.extensions.operationId = head₂.extensions.operationId) :
    (guard₁.setHead head₁).Matches (guard₂.setHead head₂) := by
  obtain ⟨state₁⟩ := guard₁
  obtain ⟨state₂⟩ := guard₂
  unfold TerminalGuard.setHead
  rw [hoperation, hstatus]
  cases h with
  | none => cases head₂.extensions.operationId <;> exact .none
  | some hstate =>
    cases head₂.extensions.operationId with
    | none => exact .some { hstate with status := rfl }
    | some operationId =>
      refine .some { hstate with status := rfl, metadata := ?_ }
      dsimp only
      rw [hstate.metadata]

omit [Headers M V] in
theorem RequestContext.requestId_congr {context₁ context₂ : RequestContext}
    (h : context₁.correlationFields = context₂.correlationFields) :
    context₁.requestId = context₂.requestId := by
  simp only [RequestContext.correlationFields, List.cons.injEq, Prod.mk.injEq, Option.some.injEq,
    Value.string.injEq] at h
  exact RequestId.ext h.1.2

theorem coupled_identifiedHeaders (h : guard₁.Matches guard₂) (headers₁ headers₂ : M) :
    Coupled World.Alike (fun _ _ => True) (identifiedHeaders config guard₁ headers₁)
      (identifiedHeaders config guard₂ headers₂) := by
  unfold identifiedHeaders
  split
  · have hid : guard₁.requestId = guard₂.requestId := by
      obtain ⟨state₁⟩ := guard₁
      obtain ⟨state₂⟩ := guard₂
      cases h with
      | none => rfl
      | some hstate => exact congrArg Except.ok (RequestContext.requestId_congr hstate.context)
    rw [hid]
    refine (Coupled.lift _).bind fun requestId _ h => ?_
    subst h
    exact (Coupled.lift _).bind fun value _ _ => Coupled.pure trivial
  · exact Coupled.pure trivial

omit [Headers M V] in
theorem coupled_new (hplatform : platform.Discreet) (h : guard₁.Matches guard₂) (ended : Bool) :
    Coupled World.Alike (fun body₁ body₂ => body₁.guard.Matches body₂.guard)
      (ObservedBody.new platform guard₁ ended) (ObservedBody.new platform guard₂ ended) := by
  unfold ObservedBody.new
  split
  · exact (coupled_finish hplatform h .completed).bind fun _ _ hguard => Coupled.pure hguard
  · exact Coupled.pure h

omit [Headers M V] in
/-- Two polls that are alike mean the same for guards that match. -/
theorem coupled_observe (hplatform : platform.Discreet) {body₁ body₂ : ObservedBody}
    (h : body₁.guard.Matches body₂.guard) {polled₁ polled₂ : Poll (Option (Except η δ))}
    (hpolled : FrameAlike (.ok polled₁) (.ok polled₂)) (ended : Bool) :
    Coupled World.Alike (fun body₁ body₂ => body₁.guard.Matches body₂.guard)
      (body₁.observe platform polled₁ ended) (body₂.observe platform polled₂ ended) := by
  have hfinish := fun outcome => (coupled_finish hplatform h outcome).bind
    fun guard₁ guard₂ (hguard : guard₁.Matches guard₂) =>
      (Coupled.pure hguard : Coupled World.Alike (fun body₁ body₂ : ObservedBody =>
        body₁.guard.Matches body₂.guard) (pure ⟨guard₁⟩) (pure ⟨guard₂⟩))
  cases hpolled with
  | pending => exact Coupled.pure h
  | ended => exact hfinish .completed
  | failed => exact hfinish .bodyError
  | frame =>
    unfold ObservedBody.observe
    dsimp only
    split
    · exact hfinish .completed
    · exact Coupled.pure h

/-- Two answers that are alike mean the same for guards that match. -/
theorem coupled_respond (hplatform : platform.Discreet) (h : guard₁.Matches guard₂)
    {answer₁ answer₂ : Except ε (Response M X)}
    (hanswer : FutureAlike (.ok (.ready answer₁)) (.ok (.ready answer₂))) (ended : Bool) :
    Coupled World.Alike
      (fun answer₁ answer₂ => (answered (δ := δ) (η := η) answer₁).2.Matches
        (answered (δ := δ) (η := η) answer₂).2)
      (respond platform config guard₁ answer₁ ended)
      (respond platform config guard₂ answer₂ ended) := by
  cases hanswer with
  | failed =>
    unfold respond
    refine (coupled_finish hplatform h .serviceError).bind fun guard₁ guard₂ hguard => ?_
    refine (coupled_finish hplatform hguard .responseDropped).bind fun _ _ _ => ?_
    exact Coupled.pure .gone
  | answered hstatus hoperation =>
    have hhead := h.setHead hstatus hoperation
    unfold respond
    refine (coupled_identifiedHeaders hhead _ _).bind fun headers₁ headers₂ _ => ?_
    refine (coupled_new hplatform hhead ended).bind fun body₁ body₂ hbody => ?_
    exact Coupled.pure (.body hbody)

end

section

variable [Headers M V] {platform : Platform} {config : κ → ObservabilityConfig}
  {service₁ service₂ : ReadyService M X B ε δ η} {R : service₁.State → service₂.State → Prop}

/-- Two exchanges that differ in what a log may not show. -/
structure Exchange.Matches (R : service₁.State → service₂.State → Prop)
    (s₁ : Exchange service₁.toInnerService) (s₂ : Exchange service₂.toInnerService) : Prop where
  inner : R s₁.inner s₂.inner
  stage : s₁.stage.Matches s₂.stage
  world : s₁.world.Alike s₂.world

omit [Headers M V] in
theorem Exchange.Matches.settle {α β : Type} {i₁ : service₁.State} {i₂ : service₂.State}
    {w₁ w₂ : World} {x : Effect α} {y : Effect β} {A : α → β → Prop} (hinner : R i₁ i₂)
    (hw : w₁.Alike w₂) (hx : Coupled World.Alike A x y) {next₁ : α → Answer M X ε δ η × Stage}
    {next₂ : β → Answer M X ε δ η × Stage}
    (hnext : ∀ a b, A a b → (next₁ a).2.Matches (next₂ b).2) :
    Exchange.Matches R (Exchange.settle i₁ w₁ x next₁).2 (Exchange.settle i₂ w₂ y next₂).2 := by
  unfold Exchange.settle
  rcases hx w₁ w₂ hw with ⟨panic₁, panic₂, hleft, hright⟩ | ⟨a, w₁', b, w₂', hleft, hright, ha, hw'⟩
  · rw [hleft, hright]
    exact ⟨hinner, .gone, hw⟩
  · rw [hleft, hright]
    exact ⟨hinner, hnext a b ha, hw'⟩

/-- **One operation on two exchanges.**  Whatever is done with both, they go on to match. -/
theorem Exchange.Matches.step {s₁ : Exchange service₁.toInnerService}
    {s₂ : Exchange service₂.toInnerService} (h : Exchange.Matches R s₁ s₂)
    (hplatform : platform.Discreet) (hservice : service₁.Matches config service₂ R)
    (k : κ) (op : Operation) :
    Exchange.Matches R (s₁.step platform (config k) service₁.toInnerService op).2
      (s₂.step platform (config k) service₂.toInnerService op).2 := by
  obtain ⟨i₁, stage₁, w₁⟩ := s₁
  obtain ⟨i₂, stage₂, w₂⟩ := s₂
  obtain ⟨hinner, hstage, hw⟩ := h
  have hdrop := fun (guard₁ guard₂ : TerminalGuard) (hguards : guard₁.Matches guard₂) =>
    coupled_finish hplatform hguards .responseDropped
  cases op with
  | pollFuture =>
    cases hstage with
    | future hguards =>
      obtain ⟨hanswer, hnext⟩ := hservice.pollFuture i₁ i₂ hinner
      simp only [Exchange.step]
      obtain ⟨polled₁, hpolled₁⟩ : ∃ polled, service₁.pollFuture i₁ = polled := ⟨_, rfl⟩
      obtain ⟨polled₂, hpolled₂⟩ : ∃ polled, service₂.pollFuture i₂ = polled := ⟨_, rfl⟩
      rw [hpolled₁, hpolled₂] at hanswer hnext ⊢
      obtain ⟨answer₁, i₁'⟩ := polled₁
      obtain ⟨answer₂, i₂'⟩ := polled₂
      have hended := hservice.isEndStream i₁' i₂' hnext
      cases hanswer with
      | panicked => exact .settle hnext hw (hdrop _ _ hguards) fun _ _ _ => .gone
      | pending => exact ⟨hnext, .future hguards, hw⟩
      | failed error₁ error₂ =>
        dsimp only
        rw [← hended]
        exact .settle hnext hw (coupled_respond hplatform hguards (.failed error₁ error₂) _)
          fun _ _ => id
      | answered hstatus hoperation =>
        dsimp only
        rw [← hended]
        exact .settle hnext hw (coupled_respond hplatform hguards (.answered hstatus hoperation) _)
          fun _ _ => id
    | body hguards => exact ⟨hinner, .body hguards, hw⟩
    | gone => exact ⟨hinner, .gone, hw⟩
  | dropFuture =>
    cases hstage with
    | future hguards =>
      exact .settle (hservice.dropFuture i₁ i₂ hinner) hw (hdrop _ _ hguards) fun _ _ _ => .gone
    | body hguards => exact ⟨hinner, .body hguards, hw⟩
    | gone => exact ⟨hinner, .gone, hw⟩
  | pollFrame =>
    cases hstage with
    | body hguards =>
      obtain ⟨hanswer, hnext⟩ := hservice.pollFrame i₁ i₂ hinner
      simp only [Exchange.step]
      obtain ⟨polled₁, hpolled₁⟩ : ∃ polled, service₁.pollFrame i₁ = polled := ⟨_, rfl⟩
      obtain ⟨polled₂, hpolled₂⟩ : ∃ polled, service₂.pollFrame i₂ = polled := ⟨_, rfl⟩
      rw [hpolled₁, hpolled₂] at hanswer hnext ⊢
      obtain ⟨answer₁, i₁'⟩ := polled₁
      obtain ⟨answer₂, i₂'⟩ := polled₂
      have hended := hservice.isEndStream i₁' i₂' hnext
      cases answer₁ with
      | error panic₁ =>
        cases hanswer
        exact ⟨hnext, .body hguards, hw⟩
      | ok polled₁ =>
        cases answer₂ with
        | error panic₂ => cases hanswer
        | ok polled₂ =>
          dsimp only
          rw [← hended]
          exact .settle hnext hw (coupled_observe hplatform hguards hanswer _)
            fun _ _ hguards => .body hguards
    | future hguards => exact ⟨hinner, .future hguards, hw⟩
    | gone => exact ⟨hinner, .gone, hw⟩
  | isEndStream => cases hstage <;> exact ⟨hinner, by constructor <;> assumption, hw⟩
  | sizeHint => cases hstage <;> exact ⟨hinner, by constructor <;> assumption, hw⟩
  | dropBody =>
    cases hstage with
    | body hguards =>
      exact .settle (hservice.dropBody i₁ i₂ hinner) hw (hdrop _ _ hguards) fun _ _ _ => .gone
    | future hguards => exact ⟨hinner, .future hguards, hw⟩
    | gone => exact ⟨hinner, .gone, hw⟩
  | external n => exact ⟨hservice.external n i₁ i₂ hinner, hstage, hw⟩
  | enterScope scope => exact ⟨hinner, hstage, hw.calls, rfl, hw.emitted, hw.log⟩

/-- **One call of two services** with requests that agree, in which the same is emitted. -/
theorem call_matches (hplatform : platform.Discreet)
    (hservice : service₁.Matches config service₂ R) (k : κ) (hconfig : (config k).Discreet)
    {r₁ r₂ : Request M X B} (h : r₁.Agree (config k) r₂)
    (hid : headerBytes r₁.headers (config k).requestIdHeader =
      headerBytes r₂.headers (config k).requestIdHeader)
    (events : List ApplicationEvent) {i₁ : service₁.State} {i₂ : service₂.State}
    (hinner : R i₁ i₂) {w₁ w₂ : World} (hw : w₁.Alike w₂) :
    let called₁ := ObservabilityService.callEmitting platform (config k) service₁.toInnerService
      i₁ r₁ events w₁
    let called₂ := ObservabilityService.callEmitting platform (config k) service₂.toInnerService
      i₂ r₂ events w₂
    called₁.1.isOk = called₂.1.isOk ∧ Exchange.Matches R called₁.2 called₂.2 := by
  unfold ObservabilityService.callEmitting
  rcases coupled_prepare hplatform hconfig h hid w₁ w₂ hw with ⟨panic₁, panic₂, hleft, hright⟩ |
    ⟨⟨r₁', guard₁⟩, w₁', ⟨r₂', guard₂⟩, w₂', hleft, hright, ⟨hagree, hguards⟩, hw'⟩
  · rw [hleft, hright]
    exact ⟨rfl, hinner, .gone, hw⟩
  · rw [hleft, hright]
    dsimp only
    rw [hguards.span_eq, hw'.scope]
    rcases coupled_dispatchAll hplatform (guard₂.span.inScope w₂'.scope) events w₁' w₂' hw' with
      ⟨panic₁, panic₂, hleft, hright⟩ | ⟨_, w₁', _, w₂', hleft, hright, -, hw'⟩
    · rw [hleft, hright]
      exact ⟨rfl, hinner, .gone, hw'⟩
    · rw [hleft, hright]
      obtain ⟨hok, hnext⟩ := hservice.call k r₁' r₂' i₁ i₂ hagree hinner
      obtain ⟨called₁, hcalled₁⟩ : ∃ called, service₁.call i₁ r₁' = called := ⟨_, rfl⟩
      obtain ⟨called₂, hcalled₂⟩ : ∃ called, service₂.call i₂ r₂' = called := ⟨_, rfl⟩
      rw [hcalled₁, hcalled₂] at hok hnext
      dsimp only
      rw [hcalled₁, hcalled₂]
      obtain ⟨result₁, i₁'⟩ := called₁
      obtain ⟨result₂, i₂'⟩ := called₂
      cases result₁ with
      | error panic₁ =>
        cases result₂ with
        | error panic₂ => exact ⟨rfl, hnext, .gone, hw'⟩
        | ok => cases hok
      | ok =>
        cases result₂ with
        | error panic₂ => cases hok
        | ok => exact ⟨rfl, hnext, .future hguards, hw'⟩

/-! ## Servers -/

inductive Slot.Matches (R : service₁.State → service₂.State → Prop) :
    Slot service₁ → Slot service₂ → Prop where
  | ready {i₁ : service₁.State} {i₂ : service₂.State} (inner : R i₁ i₂) :
    Matches R (.ready i₁) (.ready i₂)
  | called {i₁ : service₁.State} {i₂ : service₂.State} {stage₁ stage₂ : Stage} (inner : R i₁ i₂)
    (stage : stage₁.Matches stage₂) : Matches R (.called i₁ stage₁) (.called i₂ stage₂)

omit [Headers M V] in
/-- The code behind two clones that match runs in the same spans. -/
theorem Slot.Matches.scope_eq {slot₁ : Slot service₁} {slot₂ : Slot service₂}
    (h : Slot.Matches R slot₁ slot₂) (current : List SpanData) :
    slot₁.scope current = slot₂.scope current := by
  cases h with
  | ready => rfl
  | called _ stage =>
    cases stage with
    | body => rfl
    | gone => rfl
    | future hguards => exact congrArg (Span.inScope · current) hguards.span_eq

/-- Two servers that differ in what a log may not show. -/
structure Server.Matches (R : service₁.State → service₂.State → Prop) (s₁ : Server service₁ κ)
    (s₂ : Server service₂ κ) : Prop where
  slots : ∀ k, Slot.Matches R (s₁.slots k) (s₂.slots k)
  world : s₁.world.Alike s₂.world

/-- Two inputs differ in what a log may not show of a request. -/
inductive ServerInput.Agree (config : κ → ObservabilityConfig) :
    ServerInput κ M X B → ServerInput κ M X B → Prop where
  | call (k : κ) {r₁ r₂ : Request M X B} (agree : r₁.Agree (config k) r₂)
    (requestId : headerBytes r₁.headers (config k).requestIdHeader =
      headerBytes r₂.headers (config k).requestIdHeader) (events : List ApplicationEvent) :
    Agree config (.call k r₁ events) (.call k r₂ events)
  | same (input : ServerInput κ M X B)
    (quiet : ∀ k request events, input ≠ .call k request events) : Agree config input input

variable [DecidableEq κ] [BodyError η]

omit [Headers M V] [BodyError η] in
theorem Server.Matches.put {s₁ : Server service₁ κ} {s₂ : Server service₂ κ}
    (h : Server.Matches R s₁ s₂) (k : κ) {slot₁ : Slot service₁} {slot₂ : Slot service₂}
    (hslot : Slot.Matches R slot₁ slot₂) {w₁ w₂ : World} (hw : w₁.Alike w₂) :
    Server.Matches R (s₁.put k slot₁ w₁) (s₂.put k slot₂ w₂) := by
  refine ⟨fun k' => ?_, hw⟩
  by_cases hk : k' = k
  · rw [hk, Server.slots_put, Server.slots_put]
    exact hslot
  · rw [Server.slots_put_of_ne s₁ hk, Server.slots_put_of_ne s₂ hk]
    exact h.slots k'

/-- **One input to two servers.**  Inputs that agree keep the servers matching. -/
theorem Server.Matches.step {s₁ : Server service₁ κ} {s₂ : Server service₂ κ}
    (h : Server.Matches R s₁ s₂) (hplatform : platform.Discreet)
    (hconfig : ∀ k, (config k).Discreet) (hservice : service₁.Matches config service₂ R)
    {input₁ input₂ : ServerInput κ M X B} (hinput : ServerInput.Agree config input₁ input₂) :
    Server.Matches R (s₁.step platform config input₁).2 (s₂.step platform config input₂).2 := by
  cases hinput with
  | call k hagree hid events =>
    have hslot := h.slots k
    generalize hslot₁ : s₁.slots k = slot₁ at hslot
    generalize hslot₂ : s₂.slots k = slot₂ at hslot
    cases hslot with
    | called =>
      simp only [Server.step, hslot₁, hslot₂]
      exact h
    | @ready i₁ i₂ hinner =>
      rename_i r₁ r₂
      obtain ⟨hok, hcalled⟩ := call_matches hplatform hservice k (hconfig k) hagree hid events
        hinner h.world
      obtain ⟨called₁, hcalled₁⟩ : ∃ called, ObservabilityService.callEmitting platform (config k)
        service₁.toInnerService i₁ r₁ events s₁.world = called := ⟨_, rfl⟩
      obtain ⟨called₂, hcalled₂⟩ : ∃ called, ObservabilityService.callEmitting platform (config k)
        service₂.toInnerService i₂ r₂ events s₂.world = called := ⟨_, rfl⟩
      rw [hcalled₁, hcalled₂] at hok hcalled
      simp only [Server.step, hslot₁, hslot₂, hcalled₁, hcalled₂]
      obtain ⟨result₁, exchange₁⟩ := called₁
      obtain ⟨result₂, exchange₂⟩ := called₂
      cases result₁ with
      | error panic₁ =>
        cases result₂ with
        | error panic₂ => exact h.put k (.ready hcalled.inner) hcalled.world
        | ok => cases hok
      | ok =>
        cases result₂ with
        | error panic₂ => cases hok
        | ok => exact h.put k (.called hcalled.inner hcalled.stage) hcalled.world
  | same _ hquiet =>
    cases input₁ with
    | call k request events => exact absurd rfl (hquiet k request events)
    | pollReady k =>
      have hslot := h.slots k
      generalize hslot₁ : s₁.slots k = slot₁ at hslot
      generalize hslot₂ : s₂.slots k = slot₂ at hslot
      cases hslot with
      | called =>
        simp only [Server.step, hslot₁, hslot₂]
        exact h
      | ready hinner =>
        simp only [Server.step, hslot₁, hslot₂]
        exact h.put k (.ready (hservice.pollReady _ _ hinner)) h.world
    | operation k op =>
      have hslot := h.slots k
      generalize hslot₁ : s₁.slots k = slot₁ at hslot
      generalize hslot₂ : s₂.slots k = slot₂ at hslot
      cases hslot with
      | ready =>
        simp only [Server.step, hslot₁, hslot₂]
        exact h
      | @called i₁ i₂ stage₁ stage₂ hinner hstage =>
        have hexchange : Exchange.Matches R ⟨i₁, stage₁, s₁.world⟩ ⟨i₂, stage₂, s₂.world⟩ :=
          ⟨hinner, hstage, h.world⟩
        have hnext := hexchange.step hplatform hservice k op
        simp only [Server.step, hslot₁, hslot₂]
        exact h.put k (.called hnext.inner hnext.stage) hnext.world
    | event k inside event =>
      simp only [Server.step]
      rw [(h.slots k).scope_eq, h.world.scope]
      rcases coupled_dispatch hplatform ((s₂.slots k).scope s₂.world.scope ++ inside) event
        s₁.world s₂.world h.world with ⟨panic₁, panic₂, hleft, hright⟩ |
        ⟨_, w₁, _, w₂, hleft, hright, -, hw⟩
      · rw [hleft, hright]
        exact h
      · rw [hleft, hright]
        exact ⟨h.slots, hw⟩
    | enterScope scope => exact ⟨h.slots, h.world.calls, rfl, h.world.emitted, h.world.log⟩

end

/-- **A log gives nothing away.**  Two servers with services that behave alike are fed inputs
that agree on what a log may show: the same calls of other requests, the same operations,
the same events, in a call or out of one, in one order. However the exchanges interleave and
whatever panics, the two leave one log and one list of terminal events, and show the callbacks
the same. -/
theorem server_noninterference [DecidableEq κ] [Headers M V] [BodyError η]
    (platform : Platform) (config : κ → ObservabilityConfig) (hplatform : platform.Discreet)
    (hconfig : ∀ k, (config k).Discreet) (service₁ service₂ : ReadyService M X B ε δ η)
    (R : service₁.State → service₂.State → Prop)
    (hservice : service₁.Matches config service₂ R) (clones₁ : κ → service₁.State)
    (clones₂ : κ → service₂.State) (hclones : ∀ k, R (clones₁ k) (clones₂ k)) (world : World)
    (inputs₁ inputs₂ : List (ServerInput κ M X B))
    (hinputs : List.Forall₂ (ServerInput.Agree config) inputs₁ inputs₂) :
    let final₁ := (Server.start clones₁ world : Server service₁ κ).run platform config inputs₁
    let final₂ := (Server.start clones₂ world : Server service₂ κ).run platform config inputs₂
    final₁.world.log = final₂.world.log ∧ final₁.world.emitted = final₂.world.emitted ∧
      List.Forall₂ Call.Alike final₁.world.calls final₂.world.calls := by
  intro final₁ final₂
  have hstart : Server.Matches R (.start clones₁ world : Server service₁ κ)
      (.start clones₂ world : Server service₂ κ) :=
    ⟨fun k => .ready (hclones k), .refl world⟩
  let m := serverMachine platform config service₁
  let m' := serverMachine platform config service₂
  have hstep : ∀ (s : m.State) (s' : m'.State) input input', Server.Matches R s s' →
      ServerInput.Agree config input input' →
      Server.Matches R (m.step s input).2 (m'.step s' input').2 :=
    fun _ _ _ _ h hinput => h.step hplatform hconfig hservice hinput
  have hfinal : Server.Matches R final₁ final₂ := Machine.run_related hstep hstart hinputs
  exact ⟨hfinal.world.log, hfinal.world.emitted, hfinal.world.calls⟩

/-! ### A greeting and a greeting by name -/

/-- Greets one person by name. -/
def aliceServer : ReadyService HeaderList Unit Unit String String String :=
  { greetingServer with
    pollFrame := fun polls : Nat =>
      (.ok (.ready (if polls = 0 then some (.ok "hello, alice") else none)), polls + 1) }

theorem greetingServer_matches (config : Bool → ObservabilityConfig) :
    greetingServer.Matches config aliceServer (fun polls₁ polls₂ => polls₁ = polls₂) where
  pollReady := fun _ _ => id
  call := fun _ _ _ _ _ _ h => ⟨rfl, h⟩
  pollFuture := fun _ _ h => ⟨.answered rfl rfl, h⟩
  dropFuture := fun _ _ => id
  pollFrame := by
    rintro (_ | polls) _ rfl
    · exact ⟨.frame "hello" "hello, alice", rfl⟩
    · exact ⟨.ended, rfl⟩
  isEndStream := by
    rintro polls _ rfl
    rfl
  dropBody := fun _ _ => id
  external := fun _ _ _ => id

theorem reference_discreet : Platform.reference.Discreet :=
  ⟨fun _ _ _ => rfl, fun _ _ _ => rfl, fun _ _ _ => rfl⟩

theorem default_discreet : (ObservabilityConfig.default .reference).Discreet :=
  ⟨fun _ _ _ => rfl, nofun, fun _ _ _ _ => rfl, fun _ _ _ => rfl, fun _ _ _ _ _ _ => rfl⟩

theorem server_noninterference_greetings :
    (Server.run .reference (fun _ => .default .reference)
        (.start (fun _ => (0 : Nat)) .initial : Server greetingServer Bool)
        (.call true quietRequest greetingEvents :: greetingTurns)).world.log =
      (Server.run .reference (fun _ => .default .reference)
        (.start (fun _ => (0 : Nat)) .initial : Server aliceServer Bool)
        (.call true chattyRequest greetingEvents :: greetingTurns)).world.log := by
  have hrequests : quietRequest.Agree (.default .reference) chattyRequest :=
    ⟨rfl, by decide +kernel, rfl, rfl, nofun, nofun, nofun⟩
  have hsame : Request.Agree (.default .reference) greetingRequest greetingRequest :=
    ⟨rfl, rfl, rfl, rfl, fun _ => rfl, fun _ => rfl, fun _ => rfl⟩
  have hinputs : List.Forall₂ (ServerInput.Agree fun _ => .default .reference)
      (.call true quietRequest greetingEvents :: greetingTurns)
      (.call true chattyRequest greetingEvents :: greetingTurns) := by
    refine .cons (.call true hrequests (by rfl) greetingEvents) (.cons (.call false hsame rfl [])
      (List.forall₂_same.mpr fun input hinput => .same input ?_))
    rintro k request events rfl
    simp at hinput
  exact (server_noninterference .reference (fun _ => .default .reference) reference_discreet
    (fun _ => default_discreet) greetingServer aliceServer (fun polls₁ polls₂ => polls₁ = polls₂)
    (greetingServer_matches _) (fun _ => (0 : Nat)) (fun _ => (0 : Nat)) (fun _ => rfl) .initial _ _
    hinputs).1

end AxumObservability
