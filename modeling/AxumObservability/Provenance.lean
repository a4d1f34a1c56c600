import AxumObservability.Selection

/-!
# Where generated identifiers come from

A generator returns identifiers it has built with a public constructor, or copies of
identifiers it was handed with the contexts of earlier requests. A custom validator
may have admitted such an identifier from outside the baseline grammar.

* `baseline_of_built`: every public constructor establishes the grammar;
* `SelectionRun.admitted`: an identifier outside the grammar is some caller's
  admitted value, as long as no generator copies one;
* `selectionRun_baseline_iff`: when all generated identifiers of a run keep the
  grammar.
-/

namespace AxumObservability

open Library.Panics Library.Text

/-! ## Public constructors -/

/-- The public constructors give `requestId`. -/
inductive RequestId.Built (requestId : RequestId) : Prop where
  | parse (text : String) (built : RequestId.parse text = .ok requestId)
  | fromStr (text : String) (built : RequestId.fromStr text = .ok requestId)
  | tryFromStr (text : String) (built : RequestId.tryFromStr text = .ok requestId)
  | tryFromString (text : String) (built : RequestId.tryFromString text = .ok requestId)

theorem baseline_of_built {requestId : RequestId} (h : requestId.Built) :
    Baseline requestId.asStr := by
  cases h with
  | parse text built => exact RequestId.baseline_of_parse built
  | fromStr text built => exact RequestId.baseline_of_parse built
  | tryFromStr text built => exact RequestId.baseline_of_parse built
  | tryFromString text built => exact RequestId.baseline_of_parse built

/-! ## Runs of selections -/

variable {M V : Type} [Headers M V]

/-- One request's selection: the configuration and headers it starts from, and the
identifier and headers it ends with. -/
structure Turn (M : Type) where
  config : ObservabilityConfig
  headers : M
  world : World
  requestId : RequestId
  headers' : M
  world' : World

namespace Turn

variable (turn : Turn M)

def values : List Bytes :=
  (Headers.getAll turn.headers turn.config.requestIdHeader).map (Headers.valueBytes M)

def Ran (platform : Platform) : Prop :=
  (selectRequestId platform turn.config turn.headers).run turn.world =
    .ok ((turn.requestId, turn.headers'), turn.world')

/-- The caller's value `v` passes the policy and is taken. -/
def Takes (v : String) : Prop := Accepted turn.config turn.world.calls turn.values v

/-- The generator's answer where the turn asks it. -/
def Generates (requestId : RequestId) : Prop :=
  turn.config.generator (turn.world.calls ++ validatorCalls turn.config turn.values) () =
    .ok (some requestId)

variable {turn}

theorem Ran.chosen {platform : Platform} (h : turn.Ran platform) : ∃ added,
    Chosen platform turn.config turn.world.calls turn.values turn.requestId added := by
  obtain ⟨_, _, hrun, added, _, hchosen, -⟩ :=
    selectRequestId_spec platform turn.config turn.headers turn.world
  cases h.symm.trans hrun
  exact ⟨added, hchosen⟩

theorem Ran.eq_of_takes {platform : Platform} (h : turn.Ran platform) {v : String}
    (hv : turn.Takes v) : turn.requestId.asStr = v := by
  obtain ⟨added, hchosen⟩ := h.chosen
  exact hchosen.calls.2.1 v hv

/-- Where no value is taken and the generator gives an identifier, it is the one. -/
theorem Ran.eq_of_generates {platform : Platform} (h : turn.Ran platform)
    (hrefused : ∀ v, ¬ turn.Takes v) {requestId : RequestId} (hid : turn.Generates requestId) :
    turn.requestId = requestId := by
  obtain ⟨added, hchosen⟩ := h.chosen
  cases hchosen with
  | accepted accepted => exact absurd accepted (hrefused _)
  | generated _ answer =>
    cases answer.symm.trans hid
    rfl
  | fallback _ answer _ => exact absurd hid (answer requestId)

end Turn

/-- What a generator can return: an identifier it has built, or a copy of one of
those it was handed. -/
def Obtainable (handed : List RequestId) (requestId : RequestId) : Prop :=
  requestId.Built ∨ requestId ∈ handed

/-- A run of selections, of any services in any order. The generators return what
they can obtain by then. -/
inductive SelectionRun (platform : Platform) : List (Turn M) → Prop where
  | nil : SelectionRun platform []
  | turn (earlier : List (Turn M)) (turn : Turn M) (run : SelectionRun platform earlier)
      (follows : ∀ last ∈ earlier.getLast?, last.world'.calls <+: turn.world.calls)
      (ran : turn.Ran platform)
      (obtainable : ∀ requestId, turn.Generates requestId →
        Obtainable (earlier.map Turn.requestId) requestId) :
      SelectionRun platform (earlier ++ [turn])

/-- No generator that is asked returns a copy of a value outside the grammar that an
earlier request's validator has admitted from its caller. -/
def CopiesNoBroadValue (run : List (Turn M)) : Prop :=
  ∀ earlier turn later, run = earlier ++ turn :: later → (∀ v, ¬ turn.Takes v) →
    ∀ requestId, turn.Generates requestId →
      ∀ source ∈ earlier, ∀ v, source.Takes v → ¬ Baseline v → requestId.asStr ≠ v

theorem CopiesNoBroadValue.init {run : List (Turn M)} {turn : Turn M}
    (h : CopiesNoBroadValue (run ++ [turn])) : CopiesNoBroadValue run := by
  intro earlier turn' later heq
  exact h earlier turn' (later ++ [turn]) (by rw [heq]; simp)

variable {platform : Platform}

theorem SelectionRun.ran {run : List (Turn M)} (h : SelectionRun platform run) :
    ∀ turn ∈ run, turn.Ran platform := by
  induction h with
  | nil => intro turn hturn; cases hturn
  | turn earlier turn _ _ ran _ ih =>
    intro turn' hturn
    rcases List.mem_append.mp hturn with hturn | hturn
    · exact ih turn' hturn
    · rw [List.mem_singleton.mp hturn]
      exact ran

/-- **Where an identifier outside the grammar comes from.**  By induction on the run:
as long as no generator copies one, it is the caller's own value, admitted by the
validator of its own turn. -/
theorem SelectionRun.admitted {run : List (Turn M)} (h : SelectionRun platform run)
    (hcopies : CopiesNoBroadValue run) :
    ∀ turn ∈ run, Baseline turn.requestId.asStr ∨ turn.Takes turn.requestId.asStr := by
  induction h with
  | nil => intro turn hturn; cases hturn
  | turn earlier turn run _ ran obtainable ih =>
    have hearlier := ih hcopies.init
    intro turn' hturn
    rcases List.mem_append.mp hturn with hturn | hturn
    · exact hearlier turn' hturn
    · rw [List.mem_singleton.mp hturn]
      by_cases htakes : ∃ v, turn.Takes v
      · obtain ⟨v, hv⟩ := htakes
        rw [ran.eq_of_takes hv]
        exact Or.inr hv
      · have hrefused : ∀ v, ¬ turn.Takes v := fun v hv => htakes ⟨v, hv⟩
        obtain ⟨added, hchosen⟩ := ran.chosen
        refine Or.inl (hchosen.baseline (fun v hv => absurd hv (hrefused v)) fun id hid => ?_)
        rcases obtainable id hid with hbuilt | hhanded
        · exact baseline_of_built hbuilt
        · obtain ⟨source, hsource, rfl⟩ := List.mem_map.mp hhanded
          rcases hearlier source hsource with hbaseline | htaken
          · exact hbaseline
          · by_contra hbroad
            exact hcopies earlier turn [] rfl hrefused _ hid source hsource _ htaken hbroad rfl

/-- **Generated identifiers keep the grammar exactly in the runs that copy no broad
value.**  Whatever the configurations, the headers and the generators: a turn that
does not take its caller's value selects an identifier of the baseline grammar,
unless its generator returns a copy of an admitted value outside it. -/
theorem selectionRun_baseline_iff (platform : Platform) (run : List (Turn M))
    (h : SelectionRun platform run) :
    (∀ turn ∈ run, (∀ v, ¬ turn.Takes v) → (RequestId.parse turn.requestId.asStr).isOk = true) ↔
      CopiesNoBroadValue run := by
  simp only [RequestId.parse_isOk_iff, validate_eq_ok_iff]
  constructor
  · intro hbaseline earlier turn later heq hrefused requestId hid source _ v _ hbroad hv
    have hturn : turn ∈ run := by
      rw [heq]
      simp
    have hselected := (h.ran turn hturn).eq_of_generates hrefused hid
    refine hbroad ?_
    rw [← hv, ← hselected]
    exact hbaseline turn hturn hrefused
  · intro hcopies turn hturn hrefused
    exact (h.admitted hcopies turn hturn).resolve_right (hrefused _)

/-! ### A copy of an admitted value -/

/-- A turn of the given service. -/
theorem exists_turn (platform : Platform) (config : ObservabilityConfig) (headers : M)
    (world : World) : ∃ turn : Turn M, turn.config = config ∧ turn.headers = headers ∧
      turn.world = world ∧ turn.Ran platform := by
  obtain ⟨⟨requestId, headers'⟩, world', hrun, -⟩ :=
    selectRequestId_spec platform config headers world
  exact ⟨⟨config, headers, world, requestId, headers', world'⟩, rfl, rfl, rfl, hrun⟩

/-- A service whose validator admits everything, and whose generator gives nothing. -/
def admittingConfig : ObservabilityConfig :=
  { ObservabilityConfig.default .reference with
    validator := some fun _ _ => .ok true
    generator := fun _ _ => .ok none }

/-- A service whose generator returns a copy of one identifier. -/
def copyingConfig (requestId : RequestId) : ObservabilityConfig :=
  { ObservabilityConfig.default .reference with generator := fun _ _ => .ok (some requestId) }

/-- A caller's identifier is admitted, and then a generator that was handed it returns a copy. -/
theorem exists_copy {headers : HeaderList} {requestId : RequestId}
    (hvalues : (Headers.getAll headers "x-request-id").map (Headers.valueBytes HeaderList) =
      [asBytes requestId.asStr]) (hnative : nativeFieldContent requestId.asStr = true) :
    ∃ first second : Turn HeaderList, SelectionRun .reference [first, second] ∧
      first.Takes requestId.asStr ∧ (∀ v, ¬ second.Takes v) ∧ second.Generates requestId ∧
      second.requestId = requestId := by
  obtain ⟨first, hconfig₁, hheaders₁, hworld₁, hran₁⟩ := exists_turn .reference admittingConfig
    headers .initial
  obtain ⟨second, hconfig₂, hheaders₂, hworld₂, hran₂⟩ := exists_turn .reference
    (copyingConfig requestId) ([] : HeaderList) first.world'
  have htaken : first.Takes requestId.asStr := by
    rw [Turn.Takes, Turn.values, hconfig₁, hheaders₁]
    exact ⟨hvalues, hnative, rfl⟩
  have hfirst : first.requestId = requestId := RequestId.ext (hran₁.eq_of_takes htaken)
  have hrefused : ∀ v, ¬ second.Takes v := by
    rintro v ⟨hv, -⟩
    rw [Turn.values, hconfig₂, hheaders₂] at hv
    cases hv
  have hgenerates : ∀ requestId', second.Generates requestId' ↔ requestId' = requestId := by
    intro requestId'
    rw [Turn.Generates, hconfig₂, copyingConfig, Except.ok.injEq, Option.some.injEq, eq_comm]
  have hgenerated := (hgenerates requestId).mpr rfl
  have hrun₁ : SelectionRun .reference ([] ++ [first]) := by
    refine .turn [] first .nil (by simp) hran₁ fun requestId' hid => ?_
    rw [Turn.Generates, hconfig₁] at hid
    cases hid
  have hrun : SelectionRun .reference ([first] ++ [second]) := by
    refine .turn [first] second hrun₁ ?_ hran₂ fun requestId' hid => Or.inr ?_
    · intro last hlast
      obtain rfl : first = last := by simpa using hlast
      rw [hworld₂]
    · rw [(hgenerates requestId').mp hid, List.map_singleton, hfirst]
      exact List.mem_singleton_self _
  exact ⟨first, second, hrun, htaken, hrefused, hgenerated,
    hran₂.eq_of_generates hrefused hgenerated⟩

def plainId : RequestId := ⟨"id-42", by decide +kernel⟩

def plainHeaders : HeaderList := [("x-request-id", ⟨asBytes "id-42", by decide +kernel⟩)]

/-- An admitted value of the grammar may be copied. -/
theorem selectionRun_baseline_iff_copied :
    ∃ first second : Turn HeaderList, first.Takes "id-42" ∧ (∀ v, ¬ second.Takes v) ∧
      second.Generates plainId ∧ CopiesNoBroadValue [first, second] ∧
      ∀ turn ∈ [first, second], (∀ v, ¬ turn.Takes v) →
        (RequestId.parse turn.requestId.asStr).isOk = true := by
  have hvalues : (Headers.getAll plainHeaders "x-request-id").map
      (Headers.valueBytes HeaderList) = [asBytes plainId.asStr] := rfl
  obtain ⟨first, second, hrun, htakes, hrefused, hgenerates, -⟩ :=
    exists_copy hvalues (by decide +kernel)
  have hran := hrun.ran first List.mem_cons_self
  have hcopies : CopiesNoBroadValue [first, second] := by
    intro earlier turn later heq _ requestId _ source hsource v hv hbroad
    have hsource : source = first := by
      match earlier with
      | [] => cases hsource
      | [only] =>
        rw [List.mem_singleton.mp hsource]
        exact (List.cons.inj heq).1.symm
      | _ :: _ :: _ => simp at heq
    rw [hsource] at hv
    rw [← hran.eq_of_takes hv, hran.eq_of_takes htakes] at hbroad
    exact absurd ((validate_eq_ok_iff _).mp (by decide +kernel)) hbroad
  exact ⟨first, second, htakes, hrefused, hgenerates, hcopies,
    (selectionRun_baseline_iff .reference [first, second] hrun).mpr hcopies⟩

def broadId : RequestId := ⟨"id:42", by decide +kernel⟩

def broadHeaders : HeaderList := [("x-request-id", ⟨asBytes "id:42", by decide +kernel⟩)]

/-- **A copied identifier outside the grammar.**  One request's validator admits
`id:42`; another request's generator returns a copy of that identifier, and it is
selected. -/
theorem selectionRun_broad :
    ∃ run : List (Turn HeaderList), SelectionRun .reference run ∧ ∃ turn ∈ run,
      (∀ v, ¬ turn.Takes v) ∧ turn.requestId.asStr = "id:42" ∧
        (RequestId.parse turn.requestId.asStr).isOk = false := by
  have hvalues : (Headers.getAll broadHeaders "x-request-id").map
      (Headers.valueBytes HeaderList) = [asBytes broadId.asStr] := rfl
  obtain ⟨first, second, hrun, -, hrefused, -, hsecond⟩ :=
    exists_copy hvalues (by decide +kernel)
  refine ⟨_, hrun, second, by simp, hrefused, by rw [hsecond]; rfl, ?_⟩
  rw [hsecond]
  decide +kernel

end AxumObservability
