import AxumObservability.Selection
import AxumObservability.Terminal

/-!
# The service

The middleware around an inner service: what it does to a request before the
inner service is called, to the answer of the inner future, and to the polls of
the response body. The inner service is any machine of futures and bodies that
may panic at every call.

* `prepare_spec`: preparing a request never panics, and what the inner service
  then gets;
* `respond_spec`: what answering with a response does to an armed guard.
-/

namespace AxumObservability

open Library.Json Library.Panics Library.Text

/-! ## The inner service -/

inductive Poll (α : Type) where
  | pending
  | ready (a : α)

structure SizeHint where
  lower : Nat
  upper : Option Nat

/-- An inner service together with the future and the response body it gives out.
Besides the calls made to it, its state changes by `external` events, such as data
arriving. -/
structure InnerService (M X B ε δ η : Type) where
  State : Type
  call : State → Request M X B → Result Unit × State
  pollFuture : State → Result (Poll (Except ε (Response M X))) × State
  dropFuture : State → Result Unit × State
  pollFrame : State → Result (Poll (Option (Except η δ))) × State
  isEndStream : State → Bool
  sizeHint : State → SizeHint
  dropBody : State → Result Unit × State
  external : Nat → State → State

/-- What a consumer does with an exchange, and what happens around it. -/
inductive Operation where
  | pollFuture
  | dropFuture
  | pollFrame
  | isEndStream
  | sizeHint
  | dropBody
  | external (n : Nat)
  | enterScope (scope : List SpanData)

/-- What an operation answers. It is idle where it has nothing to act on. -/
inductive Answer (M X ε δ η : Type) where
  | future (polled : Poll (Except ε (Response M X)))
  | frame (polled : Poll (Option (Except η δ)))
  | endStream (ended : Bool)
  | sizeHint (hint : SizeHint)
  | dropped
  | panicked (panic : Panic)
  | idle

variable {M V X B ε δ η : Type}

def Answer.ofDrop : Result Unit → Answer M X ε δ η
  | .ok () => .dropped
  | .error panic => .panicked panic

/-! ### The inner service alone -/

inductive Phase (M X : Type) where
  | future
  | body (head : Response M X)
  | gone

/-- An exchange with the inner service, without the middleware. -/
structure Bare (service : InnerService M X B ε δ η) where
  inner : service.State
  phase : Phase M X

def Bare.step (service : InnerService M X B ε δ η) (s : Bare service) :
    Operation → Answer M X ε δ η × Bare service
  | .pollFuture =>
    match s.phase with
    | .future =>
      match service.pollFuture s.inner with
      | (.error panic, inner) => (.panicked panic, ⟨inner, .gone⟩)
      | (.ok .pending, inner) => (.future .pending, ⟨inner, .future⟩)
      | (.ok (.ready (.error error)), inner) => (.future (.ready (.error error)), ⟨inner, .gone⟩)
      | (.ok (.ready (.ok response)), inner) =>
        (.future (.ready (.ok response)), ⟨inner, .body response⟩)
    | _ => (.idle, s)
  | .dropFuture =>
    match s.phase with
    | .future => (.ofDrop (service.dropFuture s.inner).1, ⟨(service.dropFuture s.inner).2, .gone⟩)
    | _ => (.idle, s)
  | .pollFrame =>
    match s.phase with
    | .body head =>
      match service.pollFrame s.inner with
      | (.error panic, inner) => (.panicked panic, ⟨inner, .body head⟩)
      | (.ok polled, inner) => (.frame polled, ⟨inner, .body head⟩)
    | _ => (.idle, s)
  | .isEndStream =>
    match s.phase with
    | .body _ => (.endStream (service.isEndStream s.inner), s)
    | _ => (.idle, s)
  | .sizeHint =>
    match s.phase with
    | .body _ => (.sizeHint (service.sizeHint s.inner), s)
    | _ => (.idle, s)
  | .dropBody =>
    match s.phase with
    | .body _ => (.ofDrop (service.dropBody s.inner).1, ⟨(service.dropBody s.inner).2, .gone⟩)
    | _ => (.idle, s)
  | .external n => (.idle, { s with inner := service.external n s.inner })
  | .enterScope _ => (.idle, s)

/-! ## The middleware -/

def TerminalGuard.drop (platform : Platform) (guard : TerminalGuard) : Effect TerminalGuard :=
  guard.finish platform .responseDropped

/-- The body handed to the consumer: the inner one with the guard. -/
structure ObservedBody where
  guard : TerminalGuard

namespace ObservedBody

/-- Wrap a body that may have ended already. -/
def new (platform : Platform) (guard : TerminalGuard) (ended : Bool) : Effect ObservedBody := do
  if ended then return ⟨← guard.finish platform .completed⟩
  else return ⟨guard⟩

/-- What a poll of the inner body means for the guard. Whether the body has ended
then is asked after a frame only. -/
def observe (platform : Platform) (body : ObservedBody) (polled : Poll (Option (Except η δ)))
    (ended : Bool) : Effect ObservedBody :=
  match polled with
  | .ready none => do return ⟨← body.guard.finish platform .completed⟩
  | .ready (some (.error _)) => do return ⟨← body.guard.finish platform .bodyError⟩
  | .ready (some (.ok _)) => do
    if ended then return ⟨← body.guard.finish platform .completed⟩
    else return body
  | .pending => return body

end ObservedBody

/-! ### The body in its box -/

/-- The error of axum's bodies: `Error::new` puts one error into another. -/
class BodyError (η : Type) where
  new : η → η

section

variable [BodyError η]

/-- A poll of a body through `Body::new`, which wraps an error once more. -/
def Poll.boxed : Poll (Option (Except η δ)) → Poll (Option (Except η δ))
  | .ready (some (.error error)) => .ready (some (.error (BodyError.new error)))
  | polled => polled

/-- What `Body::new` makes of the answers of a body. -/
def Answer.boxed : Answer M X ε δ η → Answer M X ε δ η
  | .frame polled => .frame polled.boxed
  | answer => answer

end

/-! ### Requests and answers -/

section

variable [Headers M V]

/-- The first clock reading, or the platform's where the clock panics. -/
def startedAt (platform : Platform) (config : ObservabilityConfig) : Effect Instant := do
  match ← catchUnwind .clock fun calls => config.clock calls () with
  | .ok started => return started
  | .error _ => invoke .now platform.now

/-- From the caller's request to the one the inner service gets, and the guard of
the exchange. -/
def prepare (platform : Platform) (config : ObservabilityConfig) (request : Request M X B) :
    Effect (Request M X B × TerminalGuard) := do
  let (requestId, headers) ← selectRequestId platform config request.headers
  let request := { request with headers := headers }
  let traceContext ← liftM (selectTraceContext request.headers config.traceContextLevel)
  let requestContext := RequestContext.new requestId traceContext
  let metadata := RequestMetadata.fromRequest request config
  let span := requestSpan platform (← get).scope requestContext
  let started ← startedAt platform config
  let extensions := { request.extensions with requestContext := some requestContext }
  return ({ request with extensions := extensions },
    TerminalGuard.new metadata requestContext started config span)

/-- The guard once it knows the response head. -/
def TerminalGuard.setHead (guard : TerminalGuard) (response : Response M X) : TerminalGuard :=
  let guard := guard.setStatus response.status
  match response.extensions.operationId with
  | some operationId => guard.setOperationId operationId
  | none => guard

/-- The response headers, with the identifier where the configuration asks for it. -/
def identifiedHeaders (config : ObservabilityConfig) (guard : TerminalGuard) (headers : M) :
    Effect M :=
  if config.responseHeader then do
    let requestId ← liftM guard.requestId
    let value ← liftM (expect (Headers.fromStr M requestId.asStr)
      "validated request ID is always a header value")
    return Headers.insert headers config.requestIdHeader value
  else return headers

/-- The rest of the call's future once the inner one has answered. -/
def respond (platform : Platform) (config : ObservabilityConfig) (guard : TerminalGuard)
    (answer : Except ε (Response M X)) (ended : Bool) :
    Effect (Except ε (Response M X × ObservedBody)) :=
  match answer with
  | .ok response => do
    let guard := guard.setHead response
    let headers ← identifiedHeaders config guard response.headers
    let body ← ObservedBody.new platform guard ended
    return .ok ({ response with headers := headers }, body)
  | .error error => do
    let guard ← guard.finish platform .serviceError
    let _ ← guard.drop platform
    return .error error

/-- Where an exchange stands: before the inner future has answered, while the body
lives, or after. -/
inductive Stage where
  | future (guard : TerminalGuard)
  | body (body : ObservedBody)
  | gone

/-- An exchange through the middleware. -/
structure Exchange (service : InnerService M X B ε δ η) where
  inner : service.State
  stage : Stage
  world : World

/-- Run code of the package. A panic in it would reach the consumer. -/
def Exchange.settle {service : InnerService M X B ε δ η} {α : Type} (inner : service.State)
    (world : World) (effect : Effect α) (next : α → Answer M X ε δ η × Stage) :
    Answer M X ε δ η × Exchange service :=
  match effect.run world with
  | .ok (a, world) => ((next a).1, ⟨inner, (next a).2, world⟩)
  | .error panic => (.panicked panic, ⟨inner, .gone, world⟩)

/-- What the consumer gets of an answered future, and how the exchange goes on. -/
def answered : Except ε (Response M X × ObservedBody) → Answer M X ε δ η × Stage
  | .ok (response, body) => (.future (.ready (.ok response)), .body body)
  | .error error => (.future (.ready (.error error)), .gone)

def Exchange.step (platform : Platform) (config : ObservabilityConfig)
    (service : InnerService M X B ε δ η) (s : Exchange service) :
    Operation → Answer M X ε δ η × Exchange service
  | .pollFuture =>
    match s.stage with
    | .future guard =>
      match service.pollFuture s.inner with
      | (.error panic, inner) =>
        -- unwinding drops the guard with the rest of the future
        settle inner s.world (guard.drop platform) fun _ => (.panicked panic, .gone)
      | (.ok .pending, inner) => (.future .pending, { s with inner := inner })
      | (.ok (.ready answer), inner) =>
        settle inner s.world (respond platform config guard answer (service.isEndStream inner))
          answered
    | _ => (.idle, s)
  | .dropFuture =>
    match s.stage with
    | .future guard =>
      settle (service.dropFuture s.inner).2 s.world (guard.drop platform) fun _ =>
        (.ofDrop (service.dropFuture s.inner).1, .gone)
    | _ => (.idle, s)
  | .pollFrame =>
    match s.stage with
    | .body body =>
      match service.pollFrame s.inner with
      | (.error panic, inner) => (.panicked panic, { s with inner := inner })
      | (.ok polled, inner) =>
        settle inner s.world (body.observe platform polled (service.isEndStream inner))
          fun body => (.frame polled, .body body)
    | _ => (.idle, s)
  | .isEndStream =>
    match s.stage with
    | .body _ => (.endStream (service.isEndStream s.inner), s)
    | _ => (.idle, s)
  | .sizeHint =>
    match s.stage with
    | .body _ => (.sizeHint (service.sizeHint s.inner), s)
    | _ => (.idle, s)
  | .dropBody =>
    match s.stage with
    | .body body =>
      settle (service.dropBody s.inner).2 s.world (body.guard.drop platform) fun _ =>
        (.ofDrop (service.dropBody s.inner).1, .gone)
    | _ => (.idle, s)
  | .external n => (.idle, { s with inner := service.external n s.inner })
  | .enterScope scope => (.idle, { s with world := { s.world with scope := scope } })

/-- A call of the service: its inner future, or a panic. -/
def ObservabilityService.call (platform : Platform) (config : ObservabilityConfig)
    (service : InnerService M X B ε δ η) (inner : service.State) (request : Request M X B)
    (world : World) : Result Unit × Exchange service :=
  match (prepare platform config request).run world with
  | .error panic => (.error panic, ⟨inner, .gone, world⟩)
  | .ok ((request, guard), world) =>
    match service.call inner request with
    | (.error panic, inner) => (.error panic, ⟨inner, .gone, world⟩)
    | (.ok (), inner) => (.ok (), ⟨inner, .future guard, world⟩)

/-! ## What preparing does -/

/-- What preparing a request has established: the selected identifier alone under
the configured name, the request otherwise untouched but for its context, and an
armed guard that has captured the rest and the start. -/
structure Prepared (platform : Platform) (config : ObservabilityConfig) (request : Request M X B)
    (w : World) (request' : Request M X B) (state : TerminalState) (w' : World) : Prop where
  selected : ∃ added, (selectRequestId platform config request.headers).run w =
      .ok ((state.requestContext.requestId, request'.headers), w.calledAll added) ∧
    (startedAt platform config).run (w.calledAll added) = .ok (state.started, w')
  inserted : ∃ value, Headers.valueBytes M value = asBytes state.requestContext.requestId.asStr ∧
    request'.headers = Headers.insert request.headers config.requestIdHeader value
  trace : selectTraceContext request'.headers config.traceContextLevel =
    .ok state.requestContext.traceContext
  passed : request' = { request with
    headers := request'.headers
    extensions := { request.extensions with requestContext := some state.requestContext } }
  captured : state.metadata =
    RequestMetadata.fromRequest { request with headers := request'.headers } config
  fresh : state.status = none
  configured : state.config = config
  span : state.span = requestSpan platform w.scope state.requestContext
  emitted : w'.emitted = w.emitted
  scope : w'.scope = w.scope

theorem startedAt_spec (platform : Platform) (config : ObservabilityConfig) (w : World) :
    Returns (startedAt platform config) w fun _ w' =>
      w'.emitted = w.emitted ∧ w'.scope = w.scope := by
  apply (catchUnwind_spec .clock _ w).bind
  intro reading w' hr
  obtain ⟨-, rfl⟩ := hr
  cases reading with
  | ok started => exact Returns.pure ⟨rfl, rfl⟩
  | error panic =>
    refine (invoke_spec .now platform.now _).mono fun _ _ h => ?_
    rw [h.2]
    exact ⟨rfl, rfl⟩

theorem prepare_spec (platform : Platform) (config : ObservabilityConfig)
    (request : Request M X B) (w : World) :
    Returns (prepare platform config request) w fun prepared w' =>
      ∃ state, prepared.2 = ⟨some state⟩ ∧
        Prepared platform config request w prepared.1 state w' := by
  refine (selectRequestId_spec platform config request.headers w).run.bind
    fun ⟨requestId, headers⟩ w₁ h => ?_
  obtain ⟨⟨added, value, -, rfl, hbytes, rfl⟩, hselected⟩ := h
  obtain ⟨trace, htrace⟩ : ∃ trace, selectTraceContext
      (Headers.insert request.headers config.requestIdHeader value) config.traceContextLevel =
        .ok trace := by
    rcases selectTraceContext_cases (Headers.insert request.headers config.requestIdHeader value)
      config.traceContextLevel with h | ⟨_, _, -, -, h⟩ <;> exact ⟨_, h⟩
  apply Returns.lift_bind htrace
  apply Returns.get_bind
  refine (startedAt_spec platform config _).run.bind fun started w' h =>
    Returns.pure ⟨_, rfl, ?_⟩
  obtain ⟨⟨hemitted, hscope⟩, hstarted⟩ := h
  exact ⟨⟨added, hselected, hstarted⟩, ⟨value, hbytes, rfl⟩, htrace, rfl, rfl, rfl, rfl, rfl,
    hemitted, hscope⟩

/-! ## What answering does -/

/-- The response a consumer gets for the inner one: the same but for the identifier
header, which is set where the configuration asks for it. -/
structure Delivered (config : ObservabilityConfig) (requestId : RequestId)
    (head head' : Response M X) : Prop where
  status : head'.status = head.status
  version : head'.version = head.version
  extensions : head'.extensions = head.extensions
  untouched : config.responseHeader = false → head'.headers = head.headers
  identified : config.responseHeader = true →
    ∃ value, Headers.getAll head'.headers config.requestIdHeader = [value] ∧
      Headers.valueBytes M value = asBytes requestId.asStr
  others : ∀ name, name ≠ config.requestIdHeader →
    Headers.getAll head'.headers name = Headers.getAll head.headers name

/-- The state of an exchange once a response head is there. -/
def TerminalState.withHead (state : TerminalState) (head : Response M X) : TerminalState :=
  { state with
    status := some head.status
    metadata := { state.metadata with
      operationId :=
        (head.extensions.operationId.map OperationId.asStr).or state.metadata.operationId } }

omit [Headers M V] in
theorem new_spec (platform : Platform) {guard : TerminalGuard} {state : TerminalState}
    (hstate : guard.state = some state) (hstatus : state.status.isSome = true) (ended : Bool)
    (w : World) :
    Returns (ObservedBody.new platform guard ended) w fun body w' =>
      (ended = false ∧ body.guard.state = some state ∧ w' = w) ∨
      (ended = true ∧ body.guard.state = none ∧
        ∃ emitted, state.Reported platform .completed w.calls w.scope emitted ∧
          w'.emitted = w.emitted ++ [emitted]) := by
  cases ended with
  | false => exact Returns.pure (Or.inl ⟨rfl, hstate, rfl⟩)
  | true =>
    refine (guard.finish_spec platform .completed hstate (fun _ => hstatus) w).bind
      fun guard' w' h => Returns.pure (Or.inr ⟨rfl, h.1, h.2⟩)

omit [Headers M V] in
theorem setHead_state {guard : TerminalGuard} {state : TerminalState}
    (hstate : guard.state = some state) (head : Response M X) :
    (guard.setHead head).state = some (state.withHead head) := by
  rw [TerminalGuard.setHead, TerminalState.withHead]
  cases head.extensions.operationId <;>
    simp [TerminalGuard.setStatus, TerminalGuard.setOperationId, hstate]

/-- The identifier of an armed guard can be set as a header. -/
theorem identifiedHeaders_spec (config : ObservabilityConfig) {guard : TerminalGuard}
    {state : TerminalState} (hstate : guard.state = some state) (headers : M) (w : World) :
    Returns (identifiedHeaders config guard headers) w fun headers' w' =>
      (∀ head : Response M X, head.headers = headers →
        Delivered config state.requestContext.requestId head { head with headers := headers' }) ∧
      w' = w := by
  unfold identifiedHeaders
  by_cases hon : config.responseHeader = true
  · rw [if_pos hon]
    have hid : guard.requestId = .ok state.requestContext.requestId := by
      rw [TerminalGuard.requestId, hstate]
      rfl
    obtain ⟨value, hvalue, hbytes⟩ := expect_fromStr_requestId M state.requestContext.requestId
    apply Returns.lift_bind hid
    apply Returns.lift_bind hvalue
    refine Returns.pure ⟨?_, rfl⟩
    rintro head rfl
    refine ⟨rfl, rfl, rfl, fun hoff => absurd hon (by simp [hoff]), fun _ => ⟨value, ?_, hbytes⟩,
      fun name hname => ?_⟩
    · rw [Headers.getAll_insert, if_pos rfl]
    · rw [Headers.getAll_insert, if_neg hname]
  · rw [if_neg hon]
    refine Returns.pure ⟨?_, rfl⟩
    rintro head rfl
    exact ⟨rfl, rfl, rfl, fun _ => rfl, fun h => absurd h hon, fun _ _ => rfl⟩

/-- **Answering with a response.**  No expectation on the way fails. -/
theorem respond_spec (platform : Platform) (config : ObservabilityConfig) {guard : TerminalGuard}
    {state : TerminalState} (hstate : guard.state = some state) (head : Response M X)
    (ended : Bool) (w : World) :
    Returns (respond platform config guard (.ok head : Except ε (Response M X)) ended) w
      fun answer w' => ∃ head' body, answer = .ok (head', body) ∧
        Delivered config state.requestContext.requestId head head' ∧
        ((ended = false ∧ body.guard.state = some (state.withHead head) ∧ w' = w) ∨
          (ended = true ∧ body.guard.state = none ∧
            ∃ emitted, (state.withHead head).Reported platform .completed w.calls w.scope emitted ∧
              w'.emitted = w.emitted ++ [emitted])) := by
  apply (identifiedHeaders_spec (X := X) config (setHead_state hstate head) head.headers w).bind
  intro headers w' h
  obtain ⟨hdelivered, rfl⟩ := h
  refine (new_spec platform (setHead_state hstate head) rfl ended w').bind fun body w'' hbody => ?_
  exact Returns.pure ⟨_, body, rfl, hdelivered head rfl, hbody⟩

end

end AxumObservability
