import AxumObservability.Enrichment

/-!
# Durations on the terminal line

A duration of whole milliseconds passes through the record's text as an integer,
and under one convention it is also shown as decimal seconds.

* `formatGcpDuration_durationText`: the text of a duration has the fewest digits
  that are exact, and reads back as the duration;
* `gcpLatency_posInt`: the latency of whole milliseconds below the provider's
  limit;
* `finish_duration_iff`: when the terminal line shows the duration.
-/

namespace AxumObservability

open Library.Decimal Library.FieldMap Library.Json Library.Panics Library.Text

/-! ## The text of a duration -/

/-- Seconds and nanoseconds of a provider duration. -/
def decodeGcpDuration (text : String) : Option (Nat × Nat) := readFixed 9 's' text.toList

def fractionDigits (nanos : Nat) : Nat :=
  if nanos = 0 then 0
  else if nanos % 1000000 = 0 then 3
  else if nanos % 1000 = 0 then 6
  else 9

theorem toList_padZeros (width n : Nat) : (padZeros width n).toList = padded width n :=
  String.toList_ofList

theorem formatGcpDuration_zero (seconds : Nat) :
    (formatGcpDuration seconds 0).toList = padded 0 seconds ++ ['s'] := by
  rw [formatGcpDuration, if_pos rfl, String.toList_append, toList_padZeros]
  exact congrArg _ (by decide)

theorem formatGcpDuration_of_pos (seconds : Nat) {nanos : Nat} (h : nanos ≠ 0) :
    (formatGcpDuration seconds nanos).toList = padded 0 seconds ++ '.' ::
      (padded (fractionDigits nanos) (nanos / 10 ^ (9 - fractionDigits nanos)) ++ ['s']) := by
  have htext : ∀ width n : Nat,
      (padZeros 0 seconds ++ "." ++ padZeros width n ++ "s").toList =
        padded 0 seconds ++ '.' :: (padded width n ++ ['s']) := by
    intro width n
    have hpoint : ".".toList = ['.'] := by decide
    have hletter : "s".toList = ['s'] := by decide
    simp only [String.toList_append, toList_padZeros, hpoint, hletter, List.append_assoc,
      List.cons_append, List.nil_append]
  rw [formatGcpDuration, if_neg h, fractionDigits, if_neg h]
  split_ifs
  · exact htext 3 (nanos / 1000000)
  · exact htext 6 (nanos / 1000)
  · rw [htext 9 nanos, Nat.sub_self, Nat.pow_zero, Nat.div_one]

/-- The text of a duration: decimal seconds, a fraction of `digits` digits, the
letter. No smaller number of digits is exact. -/
structure DurationText (seconds nanos digits : Nat) (text : String) : Prop where
  tier : digits = 0 ∨ digits = 3 ∨ digits = 6 ∨ digits = 9
  exact : 10 ^ (9 - digits) ∣ nanos
  least : ∀ d, d = 0 ∨ d = 3 ∨ d = 6 ∨ d = 9 → 10 ^ (9 - d) ∣ nanos → digits ≤ d
  shape : ∃ fraction : List Char, fraction.length = digits ∧
    (∀ c ∈ fraction, c.isDigit = true) ∧
    text.toList = Nat.toDigits 10 seconds ++
      ((if digits = 0 then [] else '.' :: fraction) ++ ['s'])
  decoded : decodeGcpDuration text = some (seconds, nanos)

theorem fractionDigits_of_pos {nanos : Nat} (hpos : nanos ≠ 0) (hlt : nanos < 10 ^ 9) :
    (fractionDigits nanos = 3 ∨ fractionDigits nanos = 6 ∨ fractionDigits nanos = 9) ∧
      10 ^ (9 - fractionDigits nanos) ∣ nanos ∧
      ∀ d, d = 0 ∨ d = 3 ∨ d = 6 ∨ d = 9 → 10 ^ (9 - d) ∣ nanos → fractionDigits nanos ≤ d := by
  rw [fractionDigits, if_neg hpos]
  split_ifs with hmilli hmicro
  · refine ⟨by decide, by omega, ?_⟩
    rintro d (rfl | rfl | rfl | rfl) h <;> omega
  · refine ⟨by decide, by omega, ?_⟩
    rintro d (rfl | rfl | rfl | rfl) h <;> omega
  · refine ⟨by decide, by omega, ?_⟩
    rintro d (rfl | rfl | rfl | rfl) h <;> omega

/-- **The text of a duration is exact and as short as that allows.** -/
theorem formatGcpDuration_durationText (seconds : Nat) {nanos : Nat} (h : nanos < 10 ^ 9) :
    ∃ digits, DurationText seconds nanos digits (formatGcpDuration seconds nanos) := by
  by_cases hzero : nanos = 0
  · subst hzero
    refine ⟨0, Or.inl rfl, by decide, fun d _ _ => Nat.zero_le d, ⟨[], rfl, by simp, ?_⟩, ?_⟩
    · rw [formatGcpDuration_zero, padded_zero_left]
      rfl
    · rw [decodeGcpDuration, formatGcpDuration_zero, readFixed_whole 9 rfl]
  · obtain ⟨htier, hexact, hleast⟩ := fractionDigits_of_pos hzero h
    have htext := formatGcpDuration_of_pos seconds hzero
    generalize fractionDigits nanos = digits at htier hexact hleast htext
    have hpos : 0 < digits := by omega
    have hle : digits ≤ 9 := by omega
    have hfraction : nanos / 10 ^ (9 - digits) < 10 ^ digits := by
      rw [Nat.div_lt_iff_lt_mul (by positivity), ← Nat.pow_add, Nat.add_sub_cancel' hle]
      exact h
    refine ⟨digits, Or.inr htier, hexact, hleast, ⟨padded digits (nanos / 10 ^ (9 - digits)),
      length_padded hpos hfraction, fun c => isDigit_of_mem_padded, ?_⟩, ?_⟩
    · rw [htext, padded_zero_left, if_neg (by omega)]
      rfl
    · rw [decodeGcpDuration, htext, readFixed_fraction rfl hpos hle seconds hfraction,
        Nat.div_mul_cancel hexact]

theorem formatGcpDuration_injective {seconds nanos seconds' nanos' : Nat} (h : nanos < 10 ^ 9)
    (h' : nanos' < 10 ^ 9)
    (heq : formatGcpDuration seconds nanos = formatGcpDuration seconds' nanos') :
    seconds = seconds' ∧ nanos = nanos' := by
  obtain ⟨_, d⟩ := formatGcpDuration_durationText seconds h
  obtain ⟨_, d'⟩ := formatGcpDuration_durationText seconds' h'
  have hboth := d.decoded
  rw [heq, d'.decoded] at hboth
  cases hboth
  exact ⟨rfl, rfl⟩

/-! ## Whole milliseconds -/

/-- A duration of whole milliseconds is recorded as an integer. -/
theorem durationMilliseconds_whole (float : FloatArithmetic) {duration : Duration}
    {milliseconds : Nat} (h : duration.nanos = milliseconds * 10 ^ 6) :
    durationMilliseconds float duration = .integer milliseconds := by
  have hmod : duration.subsecNanos % 1000000 = 0 := by
    rw [Duration.subsecNanos, h]
    omega
  rw [durationMilliseconds, if_pos hmod, Duration.asMillis, h, Nat.mul_div_cancel _ (by decide)]

theorem gcpLatency_posInt (float : FloatArithmetic) {milliseconds : Nat}
    (h : milliseconds < 2 ^ 64) :
    gcpLatency float (.number (.posInt milliseconds)) =
      if 315576000001000 ≤ milliseconds then none
      else some (formatGcpDuration (milliseconds / 1000) (milliseconds % 1000 * 1000000)) := by
  rw [gcpLatency, asU64, if_pos h]
  rfl

/-- What the request object of a line says about a duration of whole milliseconds. -/
def ShowsLatency (m : Map) (milliseconds : Nat) : Prop :=
  ∃ http : Map, m["httpRequest"]? = some http.toValue ∧
    (http["latency"]? = none ↔ 315576000001000 ≤ milliseconds) ∧
    ∀ v, http["latency"]? = some v → ∃ text seconds nanos, v = .string text ∧
      decodeGcpDuration text = some (seconds, nanos) ∧
      seconds * 10 ^ 9 + nanos = milliseconds * 10 ^ 6

theorem showsLatency_httpRequest (float : FloatArithmetic) {m source : Map} {milliseconds : Nat}
    (hm : m["httpRequest"]? = some (httpRequest float source).toValue)
    (hsource : source["duration_ms"]? = some (.number (.posInt milliseconds)))
    (hrange : milliseconds < 2 ^ 64) : ShowsLatency m milliseconds := by
  have hlatency : (httpRequest float source)["latency"]? =
      (gcpLatency float (.number (.posInt milliseconds))).map .string := by
    rw [getElem?_httpRequest, httpRequestField, if_pos rfl, hsource]
    rfl
  rw [gcpLatency_posInt float hrange] at hlatency
  refine ⟨_, hm, ?_, ?_⟩
  · rw [hlatency]
    split_ifs with hmax <;> simp [hmax]
  · intro v hv
    rw [hlatency] at hv
    split_ifs at hv with hmax
    · cases hv
    · cases hv
      have hnanos : milliseconds % 1000 * 1000000 < 10 ^ 9 := by omega
      obtain ⟨_, d⟩ := formatGcpDuration_durationText (milliseconds / 1000) hnanos
      exact ⟨_, _, _, rfl, d.decoded, by omega⟩

/-! ## The terminal line -/

/-- The time from the start of an exchange to the clock reading at its end. -/
def TerminalState.duration (state : TerminalState) (outcome : TerminalOutcome)
    (calls : List Call) : Duration :=
  (state.finished (calls ++ state.levelCalls outcome)).saturatingDurationSince state.started

/-- **Whole milliseconds reach the terminal line exactly when the record does.**
The text of a duration is exact, as short as that allows and read back without
loss, and its arithmetic stays in range. The line shows the milliseconds as an
integer, and the latency for them, exactly when no value of the enrichment nests
more than 125 containers. -/
theorem finish_duration_iff (platform : Platform) (state : TerminalState)
    (outcome : TerminalOutcome) (timestamp : String) (w : World) (milliseconds : Nat)
    (hstatus : outcome = .completed → state.status.isSome = true)
    (hwhole : (state.duration outcome w.calls).nanos = milliseconds * 10 ^ 6)
    (hrange : milliseconds < 2 ^ 64) :
    (∀ seconds nanos, nanos < 10 ^ 9 →
      ∃ digits, DurationText seconds nanos digits (formatGcpDuration seconds nanos)) ∧
    (∀ seconds nanos seconds' nanos', nanos < 10 ^ 9 → nanos' < 10 ^ 9 →
      formatGcpDuration seconds nanos = formatGcpDuration seconds' nanos' →
        seconds = seconds' ∧ nanos = nanos') ∧
    ((state.duration outcome w.calls).asMillis < 2 ^ 128 ∧ milliseconds / 1000 < 2 ^ 64 ∧
      milliseconds % 1000 * 1000000 < 2 ^ 64) ∧
    ∃ guard w' emitted m line,
      ((⟨some state⟩ : TerminalGuard).finish platform outcome).run w = .ok (guard, w') ∧
      w'.emitted = w.emitted ++ [emitted] ∧
      WritesLine platform.serde platform.float platform.layer timestamp emitted.scope
        emitted.event m line ∧
      ((m["duration_ms"]? = some (.number (.posInt milliseconds)) ∧
          (platform.layer.fieldConvention = .gcp → ShowsLatency m milliseconds)) ↔
        ∀ (key : String) (v : Value),
          (state.enrichment (w.calls ++ state.levelCalls outcome ++ [.clock]))[key]? = some v →
            v.depth ≤ 125) := by
  refine ⟨fun seconds nanos h => formatGcpDuration_durationText seconds h,
    fun _ _ _ _ h h' heq => formatGcpDuration_injective h h' heq, ⟨?_, by omega, by omega⟩, ?_⟩
  · rw [Duration.asMillis, hwhole, Nat.mul_div_cancel _ (by decide)]
    exact Nat.lt_trans hrange (by decide)
  obtain ⟨guard, w', serialized, m, line, hrun, htext, hemitted, hline⟩ :=
    exists_terminalLine platform state outcome timestamp w hstatus
  set record := state.terminalRecord outcome w.calls platform.float with hrecord
  refine ⟨guard, w', _, m, line, hrun, hemitted, hline, ?_⟩
  change _ ↔ ∀ (key : String) (v : Value), record.enrichment[key]? = some v → v.depth ≤ 125
  rw [← record.depth_toValue_le_iff 125]
  have hop := platform.serde.hop _ serialized htext
  by_cases hlt : record.toValue.depth < 128
  · rw [if_pos hlt] at hop
    refine iff_of_true ?_ (Nat.le_of_lt_succ hlt)
    have hduration : record.durationMs = .integer milliseconds :=
      durationMilliseconds_whole platform.float hwhole
    have hown : record.ownField platform.serde.readNumber "duration_ms" =
        some (.number (.posInt milliseconds)) := by
      rw [record.ownField_of_mem platform.serde.readNumber
        (o := some (.number record.durationMs.toNumber))
        (by simp [AccessRecord.ownFields, AccessRecord.accessFields]), hduration]
      simp [Value.mapNumbers, DurationMilliseconds.toNumber,
        platform.serde.readNumber_fits (.posInt milliseconds) hrange]
    refine ⟨?_, fun hgcp => ?_⟩
    · rw [getElem?_line_own hop hline.object (by decide), hown, requestField, if_neg (by decide),
        Option.none_or]
    · have hobject := hline.object
      rw [hgcp] at hobject
      refine showsLatency_httpRequest platform.float (getElem?_line_httpRequest hop hobject) ?_
        hrange
      rw [record.getElem?_ownMap, hown]
  · rw [if_neg hlt] at hop
    refine iff_of_false (fun h => ?_) (by omega)
    have hduration := h.1
    rw [getElem?_line_undecoded hop hline.object (by decide) rfl] at hduration
    cases hduration

/-! ### Five milliseconds, and a deep enrichment -/

def fiveMillisecondsState : TerminalState :=
  { droppedState ∅ with config := { ObservabilityConfig.default .reference with
      clock := fun _ _ => .ok ⟨⟨5000000, by decide⟩⟩ } }

theorem finish_duration_five :
    ∃ guard w' emitted m line,
      ((⟨some fiveMillisecondsState⟩ : TerminalGuard).finish { Platform.reference with
        layer := .fromConvention .whole .gcp } .responseDropped).run .initial = .ok (guard, w') ∧
      w'.emitted = [emitted] ∧
      WritesLine .reference .whole (.fromConvention .whole .gcp) "2026-01-01T00:00:00Z"
        emitted.scope emitted.event m line ∧
      m["duration_ms"]? = some (.number (.posInt 5)) ∧ ShowsLatency m 5 := by
  obtain ⟨-, -, -, guard, w', emitted, m, line, hrun, hemitted, hline, hiff⟩ :=
    finish_duration_iff { Platform.reference with layer := .fromConvention .whole .gcp }
      fiveMillisecondsState .responseDropped "2026-01-01T00:00:00Z" .initial 5 nofun rfl (by decide)
  obtain ⟨hduration, hlatency⟩ := hiff.mpr fun key v hv => by
    change (∅ : Map)[key]? = some v at hv
    simp at hv
  exact ⟨guard, w', emitted, m, line, hrun, hemitted, hline, hduration, hlatency rfl⟩

/-- **With a deep enrichment the line has no duration**, whole milliseconds or not. -/
theorem finish_duration_deep :
    ∃ guard w' emitted m line,
      ((⟨some (droppedState deepEnrichment)⟩ : TerminalGuard).finish .reference
        .responseDropped).run .initial = .ok (guard, w') ∧
      w'.emitted = [emitted] ∧
      WritesLine .reference .whole Platform.reference.layer "2026-01-01T00:00:00Z"
        emitted.scope emitted.event m line ∧
      ((droppedState deepEnrichment).duration .responseDropped []).nanos = 0 * 10 ^ 6 ∧
      m["duration_ms"]? ≠ some (.number (.posInt 0)) := by
  obtain ⟨guard, w', emitted, m, line, hrun, hemitted, hline, hnone⟩ := exists_deepLine
  refine ⟨guard, w', emitted, m, line, hrun, hemitted, hline, rfl, ?_⟩
  rw [hnone "duration_ms" (by decide) rfl]
  exact nofun

end AxumObservability
