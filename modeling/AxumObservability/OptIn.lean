import AxumObservability.Privacy
import AxumObservability.ServerLog

/-!
# What a configuration opts into

The raw path, the address of the peer and the user agent identify a caller. A record has them
only where the application has asked for it, whichever builders it calls, and in whichever order.

* `configure_field`: an option has the value it was given last;
* `reported_shows`: what the line of a record shows of an opt-in;
* `server_withholds`: no line of a server shows what was not asked for.
-/

namespace AxumObservability

open Std Library.FieldMap Library.Json Library.Machines Library.Panics Library.Text

/-! ## Building a configuration -/

/-- One call of a builder. -/
inductive Setting where
  | fieldConvention (convention : FieldConvention)
  | traceContextLevel (level : TraceContextLevel)
  | requestIdHeader (name : HeaderName)
  | responseHeader (enabled : Bool)
  | rawPath (enabled : Bool)
  | peerIp (enabled : Bool)
  | userAgent (enabled : Bool)
  | requestIdGenerator (generator : Callback Unit (Option RequestId))
  | requestIdValidator (validator : Callback String Bool)
  | statusLevelMapper (mapper : Callback StatusCode Level)
  | clock (reading : Callback Unit Instant)
  | accessEnricher (enricher : Callback RequestContext Map)

def Setting.apply (config : ObservabilityConfig) : Setting → ObservabilityConfig
  | .fieldConvention convention => config.withFieldConvention convention
  | .traceContextLevel level => config.withTraceContextLevel level
  | .requestIdHeader name => config.withRequestIdHeader name
  | .responseHeader enabled => config.withResponseHeader enabled
  | .rawPath enabled => config.withRawPath enabled
  | .peerIp enabled => config.withPeerIp enabled
  | .userAgent enabled => config.withUserAgent enabled
  | .requestIdGenerator generator => config.withRequestIdGenerator generator
  | .requestIdValidator validator => config.withRequestIdValidator validator
  | .statusLevelMapper mapper => config.withStatusLevelMapper mapper
  | .clock reading => config.withClock reading
  | .accessEnricher enricher => config.withAccessEnricher enricher

/-- The configuration after a chain of builder calls. -/
def configure (platform : Platform) (settings : List Setting) : ObservabilityConfig :=
  settings.foldl Setting.apply (.default platform)

/-- **The last call counts.**  An option that some builder calls write has the value of the last
of these, or the default. -/
theorem configure_field {α : Type} (field : ObservabilityConfig → α) (written : Setting → Option α)
    (hwritten : ∀ config (setting : Setting),
      field (setting.apply config) = (written setting).getD (field config))
    (platform : Platform) (settings : List Setting) :
    field (configure platform settings) =
      (settings.filterMap written).getLast?.getD (field (.default platform)) := by
  induction settings using List.reverseRecOn with
  | nil => rfl
  | append_singleton settings setting ih =>
    rw [configure] at ih ⊢
    rw [List.foldl_append, List.foldl_cons, List.foldl_nil, hwritten, ih, List.filterMap_append]
    cases hsetting : written setting with
    | none => simp [hsetting]
    | some a => simp [hsetting]

/-! ## The opt-ins -/

variable {κ M V X B ε δ η : Type}

/-- Something of a request that a record has where it was asked for: its names in the record and
in the request object, the option and the calls that switch it, and what it shows. -/
structure OptIn (M X B : Type) {V : Type} [Headers M V] where
  name : String
  httpName : String
  option : ObservabilityConfig → Bool
  switched : Setting → Option Bool
  captured : RequestMetadata → Option String
  shown : Request M X B → Option String
  switches : ∀ config (setting : Setting),
    option (setting.apply config) = (switched setting).getD (option config)
  off : ∀ platform, option (.default platform) = false
  captures : ∀ (request : Request M X B) config,
    captured (.fromRequest request config) = if option config then shown request else none
  recorded : ∀ (state : TerminalState) float outcome finished enrichment,
    (name, (captured state.metadata).map Value.string) ∈
      (state.record float outcome finished enrichment).accessFields
  kept : ∀ (metadata : RequestMetadata) operationId,
    captured { metadata with operationId := operationId } = captured metadata
  derived : ∀ float m, httpRequestField float m httpName = m[name]?
  owned : name ∈ ownNames ∧ isRequestField name = false

namespace OptIn

section

variable [Headers M V]

def rawPath : OptIn M X B where
  name := "path"
  httpName := "requestUrl"
  option := ObservabilityConfig.rawPath
  switched
    | .rawPath enabled => some enabled
    | _ => none
  captured := RequestMetadata.path
  shown request := canonicalRawPath request.uri.path
  switches _ setting := by cases setting <;> rfl
  off _ := rfl
  captures _ _ := rfl
  recorded _ _ _ _ _ := by simp [TerminalState.record, AccessRecord.accessFields]
  kept _ _ := rfl
  derived _ _ := rfl
  owned := by decide

def peerIp : OptIn M X B where
  name := "peer_ip"
  httpName := "remoteIp"
  option := ObservabilityConfig.peerIp
  switched
    | .peerIp enabled => some enabled
    | _ => none
  captured := RequestMetadata.peerIp
  shown request := request.extensions.connectInfo.map SocketAddr.ip
  switches _ setting := by cases setting <;> rfl
  off _ := rfl
  captures _ config := by
    simp only [RequestMetadata.fromRequest, AxumObservability.peerIp]
    cases config.peerIp <;> rfl
  recorded _ _ _ _ _ := by simp [TerminalState.record, AccessRecord.accessFields]
  kept _ _ := rfl
  derived _ _ := rfl
  owned := by decide

def userAgent : OptIn M X B where
  name := "user_agent"
  httpName := "userAgent"
  option := ObservabilityConfig.userAgent
  switched
    | .userAgent enabled => some enabled
    | _ => none
  captured := RequestMetadata.userAgent
  shown request := exactlyOneHeader request.headers "user-agent"
  switches _ setting := by cases setting <;> rfl
  off _ := rfl
  captures _ _ := rfl
  recorded _ _ _ _ _ := by simp [TerminalState.record, AccessRecord.accessFields]
  kept _ _ := rfl
  derived _ _ := rfl
  owned := by decide

/-- Whether the last call that switches it has switched it on. -/
def asked (optIn : OptIn M X B) (settings : List Setting) : Bool :=
  (settings.filterMap optIn.switched).getLast?.getD false

theorem option_configure (optIn : OptIn M X B) (platform : Platform) (settings : List Setting) :
    optIn.option (configure platform settings) = optIn.asked settings := by
  rw [asked, configure_field optIn.option optIn.switched optIn.switches, optIn.off]

/-- A line shows the value, by its name or in the request object. -/
def Shows (optIn : OptIn M X B) (convention : FieldConvention) (m : Map) (v : Value) : Prop :=
  m[optIn.name]? = some v ∨ convention = .gcp ∧
    ((m["httpRequest"]?.bind Value.asObject).bind fun http => http[optIn.httpName]?) = some v

end

end OptIn

/-! ## The lines of records -/

section

variable [Headers M V] {platform : Platform} {state : TerminalState} {outcome : TerminalOutcome}
  {calls : List Call} {scope : List SpanData} {emitted : Emitted} {timestamp : String} {m : Map}

omit [Headers M V] in
/-- A record that cannot be read back leaves no request object. -/
theorem getElem?_httpRequest_undecoded {serde : SerdeJson} {float : FloatArithmetic}
    {level : Level} {text : String} (hdecode : serde.fromStr text = none)
    (hm : formatEvent serde float .gcp timestamp scope (accessEvent level text) = .ok m) :
    m["httpRequest"]? = none := by
  rw [getElem?_formatEvent hm, providerField_of_not_mem (by decide), Option.none_or,
    getElem?_portableFields_undecoded serde float .gcp timestamp scope level hdecode,
    envelopeField_of_not_mem (by decide), eventField_accessEvent .gcp level text _ (by decide)]
  rfl

/-- **What a record shows of an opt-in** is what was captured of the request. -/
theorem reported_shows (optIn : OptIn M X B)
    (h : state.Reported platform outcome calls scope emitted)
    (hm : formatEvent platform.serde platform.float platform.layer.fieldConvention timestamp
      emitted.scope emitted.event = .ok m) {v : Value}
    (hv : optIn.Shows platform.layer.fieldConvention m v) :
    ∃ text, optIn.captured state.metadata = some text ∧ v = .string text := by
  obtain ⟨serialized, htext, rfl⟩ := h
  obtain ⟨hown, hrequest⟩ := optIn.owned
  have hop := platform.serde.hop _ serialized htext
  by_cases hdepth : (state.terminalRecord outcome calls platform.float).toValue.depth < 128
  · rw [if_pos hdepth] at hop
    have hfield : (state.terminalRecord outcome calls platform.float).ownField
        platform.serde.readNumber optIn.name =
          (optIn.captured state.metadata).map Value.string := by
      have hrecorded : (optIn.name, (optIn.captured state.metadata).map Value.string) ∈
          (state.terminalRecord outcome calls platform.float).ownFields :=
        List.mem_append_right _ (optIn.recorded state ..)
      rw [AccessRecord.ownField_of_mem _ _ hrecorded]
      cases optIn.captured state.metadata <;> rfl
    have hshown : (optIn.captured state.metadata).map Value.string = some v := by
      rcases hv with hv | ⟨hgcp, hv⟩
      · rw [getElem?_line_own hop hm hown, requestField, hrequest, hfield] at hv
        simpa using hv
      · rw [hgcp] at hm
        rw [getElem?_line_httpRequest hop hm, Option.bind_some,
          ← mapNumbers_id (Object.toValue _), asObject_mapNumbers, getElem?_httpRequest,
          optIn.derived, AccessRecord.getElem?_ownMap, hfield] at hv
        have hid : Value.mapNumbers id = id := funext mapNumbers_id
        rwa [hid, Option.map_id] at hv
    obtain ⟨text, hcaptured, rfl⟩ := Option.map_eq_some_iff.mp hshown
    exact ⟨text, hcaptured, rfl⟩
  · rw [if_neg hdepth] at hop
    rcases hv with hv | ⟨hgcp, hv⟩
    · rw [getElem?_line_undecoded hop hm hown hrequest] at hv
      cases hv
    · rw [hgcp] at hm
      rw [getElem?_httpRequest_undecoded hop hm] at hv
      cases hv

end

/-- **Nothing is shown unasked.**  Whatever builders made the configurations of a server, and
over every interleaving, a line of a record shows the raw path, the address of the peer or the
user agent only where the last call that switches it has switched it on. What it shows then is
that of the request which the record is for. -/
theorem server_withholds [DecidableEq κ] [Headers M V] [BodyError η] (platform : Platform)
    (settings : κ → List Setting) (service : ReadyService M X B ε δ η)
    (clones : κ → service.State) (world : World) (inputs : List (ServerInput κ M X B)) :
    let config := fun k => configure platform (settings k)
    let start : Server service κ := .start clones world
    ∃ records, (start.run platform config inputs).world.emitted = world.emitted ++ records ∧
      List.Forall₂ (fun k emitted => ∀ timestamp, ∃ m line,
          WritesLine platform.serde platform.float platform.layer timestamp emitted.scope
            emitted.event m line ∧
          ∀ optIn ∈ [OptIn.rawPath, .peerIp, .userAgent], ∀ v,
            optIn.Shows platform.layer.fieldConvention m v →
              optIn.asked (settings k) = true ∧
              ∃ request called exchange ops request' state text,
                start.Calls platform config inputs k request called exchange ops ∧
                Prepared platform (config k) request called request' state exchange.world ∧
                optIn.shown { request with headers := request'.headers } = some text ∧
                v = .string text)
        ((Server.ledger platform config clones world inputs).entries.map Prod.fst) records := by
  intro config start
  obtain ⟨records, hrecords, hentered⟩ :=
    (Server.follows_ledger_all platform config clones world inputs).emitted
  refine ⟨records, hrecords, ?_⟩
  rw [List.forall₂_map_left_iff]
  have hentries : ∀ entry ∈ (Server.ledger platform config clones world inputs).entries,
      ∃ session, sessionOf entry.1 (start.acts platform config inputs) = some session ∧
        session.label = entry.2.1 := by
    intro entry hentry
    obtain ⟨session, hsession, hlabel, -⟩ :=
      ((Server.keeps_ledger platform config clones world inputs).entry _ _ _).mp hentry
    exact ⟨session, hsession, hlabel⟩
  refine ((List.forall₂_and_left _ _).mpr ⟨hentries, hentered⟩).imp ?_
  rintro ⟨k, state, event⟩ emitted ⟨⟨session, hsession, rfl⟩, before, -, scope, -, hreported⟩
    timestamp
  obtain ⟨request, called, exchange, request', hcalls, hprepared, -⟩ :=
    Server.prepared_of_session platform config clones (fun _ => True) trivial
      (fun input _ => input.within_all) hsession
  obtain ⟨m, line, hline⟩ := exists_writesLine platform.serde platform.float platform.layer
    timestamp emitted.scope emitted.event
  refine ⟨m, line, hline, fun optIn _ v hv => ?_⟩
  obtain ⟨text, hcaptured, rfl⟩ := reported_shows optIn hreported hline.object hv
  rw [TerminalState.atEvent_eq hprepared.fresh, optIn.kept, hprepared.captured, optIn.captures,
    optIn.option_configure] at hcaptured
  split at hcaptured
  · rename_i hasked
    exact ⟨hasked, request, called, exchange, _, request', session.label, text, hcalls, hprepared,
      hcaptured, rfl⟩
  · cases hcaptured

end AxumObservability
