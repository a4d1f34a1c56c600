import AxumObservability.Linearization

/-!
# Lost events

The layer drops an event that has no timestamp, or whose write fails, and says so on the
standard error where it is asked to. What it says has nothing of the event in it.

* `serially_keeps_line`: a line that was written whole stays whole;
* `Threads.step_explained`: why a step decides about its event as it does;
* `run_accounts`: over every interleaving each event is written, reported as dropped, or lost
  to a panic of the writer.
-/

namespace AxumObservability

open Library.Machines Library.Panics Library.Text

/-! ## Whole lines in a serial history -/

section

variable {serde : SerdeJson} {float : FloatArithmetic} {layer : JsonLayer} {e : LoggedEvent}
  {out out' : LogOutput}

/-- Handling an event takes nothing back. -/
theorem settle_extends {settlement : Settlement}
    (h : layer.settle serde float e settlement out = .ok out') : out.sink <+: out'.sink := by
  cases settlement with
  | written outcome =>
    rcases onEvent_cases h with ⟨-, hsink⟩ | ⟨json, taken, -, hsink⟩
    · rw [hsink]
    · rw [hsink]
      exact List.prefix_append _ _
  | unwound accepted =>
    rw [JsonLayer.settle] at h
    rcases formatLine_spec serde float layer e with ⟨failure, -, hformat⟩ | ⟨line, hformat, -⟩
    · rw [hformat] at h
      cases h
      rw [reportInternalFailure_sink]
    · rw [hformat] at h
      cases h
      exact List.prefix_append _ _

/-- Every event can be settled in every way. -/
theorem exists_settle (serde : SerdeJson) (float : FloatArithmetic) (layer : JsonLayer)
    (e : LoggedEvent) (settlement : Settlement) (out : LogOutput) :
    ∃ out', layer.settle serde float e settlement out = .ok out' := by
  cases settlement with
  | written outcome => exact exists_onEvent serde float _ e.number e.timestamp e.scope e.event out
  | unwound accepted =>
    rw [JsonLayer.settle]
    rcases formatLine_spec serde float layer e with ⟨failure, -, hformat⟩ | ⟨line, hformat, -⟩
    · exact ⟨_, by rw [hformat]; rfl⟩
    · exact ⟨_, by rw [hformat]; rfl⟩

theorem serially_extends {serial : List (LoggedEvent × Settlement)}
    (h : layer.serially serde float serial out = .ok out') : out.sink <+: out'.sink := by
  induction serial generalizing out with
  | nil =>
    cases h
    exact List.prefix_rfl
  | cons x serial ih =>
    obtain ⟨e, settlement⟩ := x
    obtain ⟨out₁, h₁⟩ := exists_settle serde float layer e settlement out
    rw [JsonLayer.serially, h₁, ok_bind] at h
    exact (settle_extends h₁).trans (ih h)

/-- **Whole lines stay whole.**  Whatever is handled before and after, the line of an event
whose write succeeded is in the output in one piece. -/
theorem serially_keeps_line {serial : List (LoggedEvent × Settlement)} {line : Bytes}
    (hformat : layer.formatLine serde float e = .ok (.ok line))
    (hmem : (e, .written .ok) ∈ serial) (h : layer.serially serde float serial out = .ok out') :
    line <:+: out'.sink := by
  induction serial generalizing out with
  | nil => cases hmem
  | cons x serial ih =>
    obtain ⟨e', settlement⟩ := x
    obtain ⟨out₁, h₁⟩ := exists_settle serde float layer e' settlement out
    rw [JsonLayer.serially, h₁, ok_bind] at h
    rcases List.mem_cons.mp hmem with heq | hmem
    · cases heq
      have hformat' : JsonLayer.formatLine serde float
        { layer with writer := fun _ _ _ _ => .ok } e = .ok (.ok line) := hformat
      rw [JsonLayer.settle, onEvent_eq_formatLine, hformat', ok_bind] at h₁
      have hsink : out₁.sink = out.sink ++ line := by
        cases h₁
        rfl
      obtain ⟨rest, hrest⟩ := serially_extends h
      exact ⟨out.sink, rest, by rw [← hrest, hsink]⟩
    · exact ih hmem h

end

/-! ## Causes -/

/-- An action that makes the layer drop an event: it has no timestamp, or its writer takes
nothing or fails. -/
inductive Action.Fails : Action → InternalFailure → Prop where
  | timestamp (e : LoggedEvent) (failure : InternalFailure)
    (missing : e.timestamp = .error failure) : Fails (.onEvent e) failure
  | writeZero : Fails (.write (.accepted 0)) (.write "WriteZero")
  | write (kind : String) : Fails (.write (.error kind)) (.write kind)

/-- A panic that keeps a line from being written: no writer is made, or the writer panics. -/
inductive Action.Unwinds : Action → Prop where
  | makeWriterFor : Unwinds (.makeWriterFor true)
  | write : Unwinds (.write .panicked)

/-- An action explains what becomes of an event: it is written, dropped for a reason, or lost
to a panic. -/
inductive Action.Explains : Action → Note → Prop where
  | written (action : Action) : Explains action (.returned (.ok ()))
  | dropped {action : Action} {note : Note} (failure : InternalFailure)
    (reason : note.failure = some failure) (fails : action.Fails failure) : Explains action note
  | lost {action : Action} (unwinds : action.Unwinds) : Explains action .unwound

theorem Work.writeAll_explained (work : Work) (action : Action)
    (h : work.writeAll.1.settles = true) : action.Explains work.writeAll.1 := by
  unfold Work.writeAll at h ⊢
  split at h
  · cases h
  · rename_i hwhole
    rw [if_neg hwhole]
    exact .written action

/-- What decides an undecided record is explained by the action that does. -/
theorem Work.step_explained {layer : JsonLayer} {work : Work} {out : LogOutput} {action : Action}
    (hunsettled : work.stage.unsettled = true)
    (h : (work.step layer out action).1.settles = true) :
    action.Explains (work.step layer out action).1 := by
  obtain ⟨line, accepted, flushed, returned, stage⟩ := work
  cases action with
  | onEvent e => cases h
  | lock => cases h
  | unlock => cases h
  | makeWriterFor panics =>
    cases stage with
    | making =>
      cases panics with
      | false => exact Work.writeAll_explained _ _ h
      | true => exact .lost .makeWriterFor
    | _ => cases h
  | write call =>
    cases stage with
    | writing =>
      cases call with
      | accepted n =>
        cases n with
        | zero => exact .dropped _ rfl .writeZero
        | succ n => exact Work.writeAll_explained _ _ h
      | interrupted => cases h
      | error kind => exact .dropped _ rfl (.write kind)
      | panicked => exact .lost .write
    | _ => cases h
  | flush n =>
    cases stage with
    | writing => cases h
    | dropping => cases hunsettled
    | _ => cases h
  | dropWriter panics =>
    cases stage with
    | dropping => cases hunsettled
    | _ => cases h

variable {θ : Type} [DecidableEq θ] {serde : SerdeJson} {float : FloatArithmetic}
  {layer : JsonLayer} {s : Threads θ} {history : List (θ × Action × Note)} {t : θ}
  {action : Action}

/-- What decides an undecided event is explained by the action that does. -/
theorem Threads.step_explained {line : Bytes} (hline : (s.stage t).unsettled = some line)
    (h : (s.step serde float layer t action).1.settles = true) :
    action.Explains (s.step serde float layer t action).1 := by
  cases hstage : s.stage t with
  | idle =>
    rw [hstage] at hline
    cases hline
  | waiting line =>
    simp only [Threads.step, hstage] at h
    split at h <;> cases h
  | holding work =>
    rw [hstage, ThreadStage.unsettled] at hline
    have hunsettled : work.stage.unsettled = true := by
      by_contra hsettled
      simp [hsettled] at hline
    simp only [Threads.step, hstage] at h ⊢
    split at h
    · cases h
    · exact Work.step_explained hunsettled h

/-- A thread drops an event that has no timestamp. -/
theorem Threads.step_unformatted {failure : InternalFailure}
    (h : (s.step serde float layer t action).1 = .unformatted failure) : action.Fails failure := by
  cases hstage : s.stage t with
  | idle =>
    cases action with
    | onEvent e =>
      rcases formatLine_spec serde float layer e with ⟨failure', hmissing, hformat⟩ |
        ⟨line, hformat, -⟩
      · simp only [Threads.step, hstage, hformat] at h
        cases h
        exact .timestamp e failure hmissing
      · simp only [Threads.step, hstage, hformat] at h
        cases h
    | _ => simp only [Threads.step, hstage] at h; cases h
  | waiting line =>
    simp only [Threads.step, hstage] at h
    split at h <;> cases h
  | holding work =>
    have hnote := (work.step_settles layer s.out action).kind
    simp only [Threads.step, hstage] at h
    split at h
    · cases h
    · rw [h] at hnote
      cases hnote

/-- The event that a step decides is the one its thread is at work on, or one that has no
line. -/
theorem mem_point {t' : θ} {e : LoggedEvent} {note note' : Note}
    (h : (t', e, note') ∈ point history (t, action, note)) : t' = t ∧ note' = note ∧
      ((∃ failure, note = .unformatted failure) ∨
        note.settles = true ∧ atWork t history = some e) := by
  unfold point at h
  split at h
  · cases List.mem_singleton.mp h
    rename_i heq
    cases heq
    exact ⟨rfl, rfl, Or.inl ⟨_, rfl⟩⟩
  · rename_i heq
    cases heq
    split at h
    · rename_i hsettles
      simp only [Option.mem_toList, Option.map_eq_some_iff] at h
      obtain ⟨e', hwork, heq⟩ := h
      cases heq
      exact ⟨rfl, rfl, Or.inr ⟨hsettles, hwork⟩⟩
    · cases h

/-- Every decided event is explained by an action of its thread. -/
def Explained (history : List (θ × Action × Note)) : Prop :=
  ∀ t e note, (t, e, note) ∈ linearized history →
    ∃ action, (t, action, note) ∈ history ∧ action.Explains note

theorem Explained.step (h : Explained history) (hlinear : Linear serde float layer s history)
    (t : θ) (action : Action) :
    Explained (history ++ [(t, action, (s.step serde float layer t action).1)]) := by
  intro t' e note hmem
  rw [linearized_concat] at hmem
  rcases List.mem_append.mp hmem with hmem | hmem
  · obtain ⟨action', hbefore, hexplains⟩ := h t' e note hmem
    exact ⟨action', List.mem_append_left _ hbefore, hexplains⟩
  · obtain ⟨rfl, rfl, hpoint⟩ := mem_point hmem
    refine ⟨action, List.mem_append_right _ List.mem_cons_self, ?_⟩
    rcases hpoint with ⟨failure, hnote⟩ | ⟨hsettles, hwork⟩
    · exact .dropped failure (by rw [hnote]; rfl) (Threads.step_unformatted hnote)
    · have hworking := hlinear.working t'
      rw [hwork] at hworking
      cases hline : (s.stage t').unsettled with
      | none => rw [hline] at hworking; cases hworking
      | some line => exact Threads.step_explained hline hsettles

/-! ## Whole runs -/

theorem run_explained (serde : SerdeJson) (float : FloatArithmetic) (layer : JsonLayer)
    (ops : List (θ × Action)) :
    Explained ((historyMachine θ serde float layer).answers Threads.initial ops) := by
  induction ops using List.reverseRecOn with
  | nil => exact nofun
  | append_singleton ops op ih =>
    have hlinear := (exists_linear serde float layer ops).2
    rw [← (historyMachine_run serde float layer Threads.initial ops).1] at hlinear
    have happend := Machine.answers_append (m := historyMachine θ serde float layer)
      Threads.initial ops [op]
    rw [happend]
    exact ih.step hlinear op.1 op.2

theorem mem_of_mem_history {note : Note} {ops : List (θ × Action)}
    (h : (t, action, note) ∈ (historyMachine θ serde float layer).answers s ops) :
    (t, action) ∈ ops := by
  induction ops generalizing s with
  | nil => cases h
  | cons op ops ih =>
    rcases List.mem_cons.mp h with heq | hmem
    · cases heq
      exact List.mem_cons_self
    · exact List.mem_cons_of_mem op (ih hmem)

/-- **Every event is accounted for.**  For every set of threads, every interleaving of their
steps and every behaviour of the writer, the standard error has one text for each event that
was dropped, in the order in which they were, and nothing where it is not asked for; a text
tells of a missing timestamp or of what the writer returned and of nothing else. Each decided
event has its line in the output in one piece, or its thread met the failure that is reported,
or a panic of the writer. -/
theorem run_accounts (θ : Type) [DecidableEq θ] (serde : SerdeJson) (float : FloatArithmetic)
    (layer : JsonLayer) (ops : List (θ × Action)) :
    let s : Threads θ := (threadMachine θ serde float layer).run Threads.initial ops
    let history := (historyMachine θ serde float layer).answers Threads.initial ops
    s.out.diagnostics = diagnosticsOf layer (linearized history) ∧
    (∀ text ∈ s.out.diagnostics, layer.logInternalErrors = true ∧
      ∃ op ∈ ops, ∃ failure, op.2.Fails failure ∧ internalDiagnostic true failure = some text) ∧
    ∀ t e note, (t, e, note) ∈ linearized history →
      (note = .returned (.ok ()) ∧ ∃ line, layer.formatLine serde float e = .ok (.ok line) ∧
        line <:+: s.out.sink ++ s.buffer) ∨
      (∃ action failure, note.failure = some failure ∧ (t, action) ∈ ops ∧
        action.Fails failure ∧
        ∀ text, internalDiagnostic layer.logInternalErrors failure = some text →
          text ∈ s.out.diagnostics) ∨
      note = .unwound ∧ ∃ action, (t, action) ∈ ops ∧ action.Unwinds := by
  intro s history
  obtain ⟨-, hlinear⟩ := exists_linear serde float layer ops
  have hexplained := run_explained serde float layer ops
  have hdiagnosed : s.out.diagnostics = diagnosticsOf layer (linearized history) :=
    hlinear.diagnosed
  refine ⟨hdiagnosed, fun text htext => ?_, fun t e note hmem => ?_⟩
  · rw [hdiagnosed, diagnosticsOf, List.mem_filterMap] at htext
    obtain ⟨⟨t, e, note⟩, hmem, htext⟩ := htext
    obtain ⟨action, hhistory, hexplains⟩ := hexplained t e note hmem
    obtain ⟨failure, hfailure, htext⟩ := Option.bind_eq_some_iff.mp htext
    have henabled : layer.logInternalErrors = true := by
      by_contra hdisabled
      simp [internalDiagnostic, hdisabled] at htext
    rw [henabled] at htext
    refine ⟨henabled, (t, action), mem_of_mem_history hhistory, failure, ?_, htext⟩
    cases hexplains with
    | written => cases hfailure
    | dropped failure' hreason hfails =>
      rw [hfailure] at hreason
      cases hreason
      exact hfails
    | lost => cases hfailure
  · obtain ⟨action, hhistory, hexplains⟩ := hexplained t e note hmem
    have hop := mem_of_mem_history hhistory
    cases hexplains with
    | written =>
      refine Or.inl ⟨rfl, ?_⟩
      obtain ⟨line, hformat⟩ := hlinear.formatted t e _ hmem rfl
      obtain ⟨serial, out, hserial, hrun, -, hsink⟩ := hlinear.serial
      obtain ⟨⟨e', settlement⟩, hmem', rfl, hnoted⟩ := exists_mem_of_forall₂ hserial hmem
      cases hnoted
      refine ⟨line, hformat, ?_⟩
      rw [hsink]
      exact (serially_keeps_line hformat hmem' hrun).trans (List.prefix_append _ _).isInfix
    | dropped failure hreason hfails =>
      refine Or.inr (Or.inl ⟨action, failure, hreason, hop, hfails, fun text htext => ?_⟩)
      rw [hdiagnosed, diagnosticsOf, List.mem_filterMap]
      exact ⟨(t, e, note), hmem, by rw [hreason]; exact htext⟩
    | lost hunwinds => exact Or.inr (Or.inr ⟨rfl, action, hop, hunwinds⟩)

end AxumObservability
