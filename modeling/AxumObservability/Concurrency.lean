import AxumObservability.Framing
import AxumObservability.Library.Machines

/-!
# Concurrent events

Threads hand their events to one layer. Each formats its line on its own, takes the
record lock, makes a writer, writes its line piece by piece, drops the writer and
releases the lock; the writer may fail or panic at every call.

* `Work.step_spec`: what the holder of the lock does to its record and the sink;
* `Log.step`: what one step does to the blocks written so far;
* `run_blocks`: over every interleaving the output is a sequence of blocks, one for each
  event that has taken the lock.
-/

namespace AxumObservability

open Library.Json Library.Machines Library.Panics Library.Text

/-! ## Formatting apart from writing -/

/-- The line of an event, before the record lock is taken. -/
def JsonLayer.formatLine (serde : SerdeJson) (float : FloatArithmetic) (layer : JsonLayer)
    (e : LoggedEvent) : Result (Except InternalFailure Bytes) :=
  match e.timestamp with
  | .error failure => return .error failure
  | .ok timestamp => do
    let output ← formatEvent serde float layer.fieldConvention timestamp e.scope e.event
    return serializeLine serde output

/-- An event is handled by formatting it and then writing its line. -/
theorem onEvent_eq_formatLine (serde : SerdeJson) (float : FloatArithmetic) (layer : JsonLayer)
    (e : LoggedEvent) (out : LogOutput) :
    layer.onEvent serde float e.number e.timestamp e.scope e.event out = (do
      match ← layer.formatLine serde float e with
      | .ok line => return layer.writeLine e.number e.event.metadata line out
      | .error failure => return layer.reportInternalFailure failure out) := by
  unfold JsonLayer.onEvent JsonLayer.formatLine
  cases e.timestamp with
  | error failure => rfl
  | ok timestamp =>
    obtain ⟨m, hm, -⟩ :=
      formatEvent_spec serde float layer.fieldConvention timestamp e.scope e.event
    cases hline : serializeLine serde m <;> simp [hm, hline]

/-- An event with a timestamp has a line, and no other event has. -/
theorem formatLine_spec (serde : SerdeJson) (float : FloatArithmetic) (layer : JsonLayer)
    (e : LoggedEvent) :
    (∃ failure, e.timestamp = .error failure ∧
      layer.formatLine serde float e = .ok (.error failure)) ∨
    ∃ line, layer.formatLine serde float e = .ok (.ok line) ∧ ∃ timestamp m,
      e.timestamp = .ok timestamp ∧
        WritesLine serde float layer timestamp e.scope e.event m line := by
  unfold JsonLayer.formatLine
  cases e.timestamp with
  | error failure => exact Or.inl ⟨failure, rfl, rfl⟩
  | ok timestamp =>
    obtain ⟨m, line, hline⟩ := exists_writesLine serde float layer timestamp e.scope e.event
    refine Or.inr ⟨line, ?_, timestamp, m, rfl, hline⟩
    simp only [hline.object, ok_bind, hline.bytes, pure_eq_ok]

/-! ## One record -/

/-- What one call of a writer's `write` does. It takes the first `n` bytes it is offered, or
all of them. -/
inductive WriteCall where
  | accepted (n : Nat)
  | interrupted
  | error (kind : String)
  | panicked

/-- What the holder of the record lock is about to do. -/
inductive WorkStage where
  | making
  | writing
  | dropping
  | releasing (unwinding : Bool)

/-- The work on one record under the lock: how much of its line the writer has accepted, how
much of that is in the sink, and what `write_all` has returned, if it has. -/
structure Work where
  line : Bytes
  accepted : Nat
  flushed : Nat
  returned : Option (Except String Unit)
  stage : WorkStage

/-- What a thread does next, or what its writer does to it. -/
inductive Action where
  | onEvent (e : LoggedEvent)
  | lock
  | makeWriterFor (panics : Bool)
  | write (call : WriteCall)
  | flush (n : Nat)
  | dropWriter (panics : Bool)
  | unlock

/-- What came of an action. It is idle where the thread is not there to take it. -/
inductive Note where
  | idle
  | formatted (e : LoggedEvent) (line : Bytes)
  | unformatted (failure : InternalFailure)
  | locked (line : Bytes)
  | worked
  | returned (result : Except String Unit)
  | unwound
  | unlocked

namespace Work

/-- A record whose lock has just been taken. -/
def start (line : Bytes) : Work := ⟨line, 0, 0, none, .making⟩

/-- `write_all` goes on as long as something remains. -/
def writeAll (work : Work) : Note × Work :=
  if work.accepted < work.line.length then (.worked, { work with stage := .writing })
  else (.returned (.ok ()), { work with returned := some (.ok ()), stage := .dropping })

/-- `write_all` gives up, and the failure is reported. -/
def failed (layer : JsonLayer) (kind : String) (work : Work) (out : LogOutput) :
    Note × Work × LogOutput :=
  (.returned (.error kind), { work with returned := some (.error kind), stage := .dropping },
    layer.reportInternalFailure (.write kind) out)

/-- The bytes that the writer holds back. -/
def buffer (work : Work) : Bytes := (work.line.take work.accepted).drop work.flushed

/-- The writer hands on the first `n` bytes that it holds back. -/
def flush (n : Nat) (work : Work) (out : LogOutput) : Work × LogOutput :=
  ({ work with flushed := min work.accepted (work.flushed + n) },
    { out with sink := out.sink ++ work.buffer.take n })

/-- The steps between taking the lock and releasing it. -/
def step (layer : JsonLayer) (work : Work) (out : LogOutput) : Action → Note × Work × LogOutput
  | .makeWriterFor panics =>
    match work.stage with
    | .making =>
      if panics then (.unwound, { work with stage := .releasing true }, out)
      else (work.writeAll.1, work.writeAll.2, out)
    | _ => (.idle, work, out)
  | .write call =>
    match work.stage with
    | .writing =>
      match call with
      | .accepted 0 => work.failed layer "WriteZero" out
      | .accepted (n + 1) =>
        let work := { work with accepted := min work.line.length (work.accepted + (n + 1)) }
        (work.writeAll.1, work.writeAll.2, out)
      | .interrupted => (.worked, work, out)
      | .error kind => work.failed layer kind out
      | .panicked => (.unwound, { work with stage := .dropping }, out)
    | _ => (.idle, work, out)
  | .flush n =>
    match work.stage with
    | .writing | .dropping => (.worked, work.flush n out)
    | _ => (.idle, work, out)
  | .dropWriter panics =>
    match work.stage with
    | .dropping =>
      -- nothing is held back beyond the writer's life
      let (work', out) := work.flush work.buffer.length out
      (if panics then .unwound else .worked,
        { work' with stage := .releasing (panics || work.returned.isNone) }, out)
    | _ => (.idle, work, out)
  | _ => (.idle, work, out)

end Work

/-! ## Threads -/

inductive ThreadStage where
  | idle
  | waiting (line : Bytes)
  | holding (work : Work)

/-- The lock around the writing of a record. -/
structure RecordWriteLock (θ : Type) where
  holder : Option θ
  poisoned : Bool

/-- A layer with the threads that use it. -/
structure Threads (θ : Type) where
  stage : θ → ThreadStage
  recordWriteLock : RecordWriteLock θ
  out : LogOutput

variable {θ : Type}

namespace Threads

def initial : Threads θ := ⟨fun _ => .idle, ⟨none, false⟩, .empty⟩

/-- The bytes that the one living writer holds back. -/
def buffer (s : Threads θ) : Bytes :=
  match s.recordWriteLock.holder.map s.stage with
  | some (.holding work) => work.buffer
  | _ => []

variable [DecidableEq θ]

def setStage (s : Threads θ) (t : θ) (stage : ThreadStage) : Threads θ :=
  { s with stage := Function.update s.stage t stage }

@[simp] theorem stage_setStage (s : Threads θ) (t : θ) (stage : ThreadStage) :
    (s.setStage t stage).stage t = stage := by
  simp [setStage]

theorem stage_setStage_of_ne (s : Threads θ) {t t' : θ} (h : t' ≠ t) (stage : ThreadStage) :
    (s.setStage t stage).stage t' = s.stage t' := by
  simp [setStage, h]

/-- One step of a thread. -/
def step (serde : SerdeJson) (float : FloatArithmetic) (layer : JsonLayer) (s : Threads θ) (t : θ)
    (action : Action) : Note × Threads θ :=
  match s.stage t with
  | .idle =>
    match action with
    | .onEvent e =>
      match layer.formatLine serde float e with
      | .error _ => (.unwound, s)
      | .ok (.error failure) =>
        (.unformatted failure, { s with out := layer.reportInternalFailure failure s.out })
      | .ok (.ok line) => (.formatted e line, s.setStage t (.waiting line))
    | _ => (.idle, s)
  | .waiting line =>
    match action, s.recordWriteLock.holder with
    | .lock, none =>
      -- a poisoned lock is taken as well
      (.locked line, { s.setStage t (.holding (.start line)) with
        recordWriteLock := { s.recordWriteLock with holder := some t } })
    | _, _ => (.idle, s)
  | .holding work =>
    match action, work.stage with
    | .unlock, .releasing unwinding =>
      (.unlocked, { s.setStage t .idle with
        recordWriteLock := ⟨none, s.recordWriteLock.poisoned || unwinding⟩ })
    | _, _ =>
      ((work.step layer s.out action).1,
        { s.setStage t (.holding (work.step layer s.out action).2.1) with
          out := (work.step layer s.out action).2.2 })

end Threads

/-- The threads as a machine: any thread may take any step next. -/
def threadMachine (θ : Type) [DecidableEq θ] (serde : SerdeJson) (float : FloatArithmetic)
    (layer : JsonLayer) : Machine (θ × Action) (θ × Note) where
  State := Threads θ
  step s i := ((i.1, (s.step serde float layer i.1 i.2).1), (s.step serde float layer i.1 i.2).2)

/-! ## What the holder does -/

namespace Note

/-- The line with which the lock was taken. -/
def lockedLine : Note → Option Bytes
  | .locked line => some line
  | _ => none

/-- What `write_all` returned. -/
def result : Note → Option (Except String Unit)
  | .returned result => some result
  | _ => none

def formattedLine : Note → Option Bytes
  | .formatted _ line => some line
  | _ => none

end Note

/-- The work on a record is in order. -/
structure Work.Valid (work : Work) : Prop where
  flushed : work.flushed ≤ work.accepted
  accepted : work.accepted ≤ work.line.length
  whole : work.returned = some (.ok ()) → work.accepted = work.line.length
  unreturned : work.stage = .making ∨ work.stage = .writing → work.returned = none
  unwritten : work.stage = .making → work.accepted = 0
  released : ∀ unwinding, work.stage = .releasing unwinding → work.flushed = work.accepted
  finished : work.stage = .releasing false → work.returned.isSome = true

/-- The diagnostics that a result of `write_all` leads to. -/
def JsonLayer.writeDiagnostics (layer : JsonLayer) : Option (Except String Unit) → List String
  | some (.error kind) => (internalDiagnostic layer.logInternalErrors (.write kind)).toList
  | _ => []

/-- From one state of the work on a record to the next. What the writer hands on in
between is in the sink. -/
structure Work.Advances (layer : JsonLayer) (work : Work) (out : LogOutput) (note : Note)
    (work' : Work) (out' : LogOutput) : Prop where
  valid : work'.Valid
  line : work'.line = work.line
  sink : ∃ chunk, out'.sink = out.sink ++ chunk ∧
    work.line.take work'.flushed = work.line.take work.flushed ++ chunk
  diagnostics : out'.diagnostics = out.diagnostics ++ layer.writeDiagnostics note.result
  returned : work'.returned = work.returned.or note.result
  once : work.returned = none ∨ note.result = none
  unlocked : note.lockedLine = none
  unformatted : note.formattedLine = none

theorem Work.valid_start (line : Bytes) : (Work.start line).Valid :=
  ⟨Nat.zero_le _, Nat.zero_le _, nofun, fun _ => rfl, fun _ => rfl, nofun, nofun⟩

theorem reportInternalFailure_write (layer : JsonLayer) (kind : String) (out : LogOutput) :
    layer.reportInternalFailure (.write kind) out =
      ⟨out.sink, out.diagnostics ++ layer.writeDiagnostics (some (.error kind))⟩ := by
  obtain ⟨sink, diagnostics⟩ := out
  unfold JsonLayer.reportInternalFailure JsonLayer.writeDiagnostics
  cases h : internalDiagnostic layer.logInternalErrors (.write kind) <;> simp [h]

variable {work : Work}

/-- A step that leaves the line and the sink as they are. -/
theorem Work.Advances.of_stage (layer : JsonLayer) (stage : WorkStage)
    (h : Work.Valid { work with stage := stage }) (out : LogOutput) {note : Note}
    (hresult : note.result = none) (hlocked : note.lockedLine = none)
    (hformatted : note.formattedLine = none) :
    work.Advances layer out note { work with stage := stage } out where
  valid := h
  line := rfl
  sink := ⟨[], by simp⟩
  diagnostics := by rw [hresult, JsonLayer.writeDiagnostics, List.append_nil]; nofun
  returned := by rw [hresult, Option.or_none]
  once := Or.inr hresult
  unlocked := hlocked
  unformatted := hformatted

theorem Work.Valid.idle (h : work.Valid) (layer : JsonLayer) (out : LogOutput) :
    work.Advances layer out .idle work out :=
  Work.Advances.of_stage layer work.stage h out rfl rfl rfl

theorem Work.Valid.writeAll (h : work.Valid) (hreturned : work.returned = none)
    (layer : JsonLayer) (out : LogOutput) :
    work.Advances layer out work.writeAll.1 work.writeAll.2 out := by
  unfold Work.writeAll
  split
  · refine Work.Advances.of_stage layer .writing ?_ out rfl rfl rfl
    exact ⟨h.flushed, h.accepted, h.whole, fun _ => hreturned, nofun, nofun, nofun⟩
  · rename_i hall
    exact {
      valid := ⟨h.flushed, h.accepted, fun _ => Nat.le_antisymm h.accepted (Nat.le_of_not_lt hall),
        by simp, nofun, nofun, nofun⟩
      line := rfl
      sink := ⟨[], by simp⟩
      diagnostics := by simp [Note.result, JsonLayer.writeDiagnostics]
      returned := by simp [hreturned, Note.result]
      once := Or.inl hreturned
      unlocked := rfl
      unformatted := rfl }

theorem Work.Valid.failed (h : work.Valid) (hreturned : work.returned = none)
    (layer : JsonLayer) (kind : String) (out : LogOutput) :
    work.Advances layer out (work.failed layer kind out).1 (work.failed layer kind out).2.1
      (work.failed layer kind out).2.2 where
  valid := ⟨h.flushed, h.accepted, nofun, by simp [Work.failed], nofun, nofun, nofun⟩
  line := rfl
  sink := ⟨[], by simp [Work.failed, reportInternalFailure_write]⟩
  diagnostics := by simp [Work.failed, reportInternalFailure_write, Note.result]
  returned := by simp [hreturned, Work.failed, Note.result]
  once := Or.inl hreturned
  unlocked := rfl
  unformatted := rfl

/-- What a writer hands on follows what is in the sink already. -/
theorem Work.Valid.flush (h : work.Valid) (n : Nat) (out : LogOutput) :
    work.line.take (work.flush n out).1.flushed =
      work.line.take work.flushed ++ work.buffer.take n := by
  have hsplit := List.take_add (l := work.line.take work.accepted) (i := work.flushed) (j := n)
  rw [List.take_take, List.take_take, Nat.min_eq_left h.flushed] at hsplit
  rw [Work.buffer, ← hsplit, Work.flush, Nat.min_comm]

theorem Work.Valid.flushed_all (h : work.Valid) (out : LogOutput) :
    (work.flush work.buffer.length out).1.flushed = work.accepted := by
  have hflushed := h.flushed
  have haccepted := h.accepted
  simp only [Work.flush, Work.buffer, List.length_drop, List.length_take]
  omega

/-- A flush, with what the writer does next. -/
theorem Work.Valid.flushes (h : work.Valid) (layer : JsonLayer) (n : Nat) (out : LogOutput)
    (stage : WorkStage) (hvalid : Work.Valid { (work.flush n out).1 with stage := stage })
    {note : Note} (hresult : note.result = none) (hlocked : note.lockedLine = none)
    (hformatted : note.formattedLine = none) :
    work.Advances layer out note { (work.flush n out).1 with stage := stage }
      (work.flush n out).2 where
  valid := hvalid
  line := rfl
  sink := ⟨work.buffer.take n, rfl, h.flush n out⟩
  diagnostics := by
    rw [hresult, JsonLayer.writeDiagnostics, List.append_nil]
    · rfl
    · nofun
  returned := by rw [hresult, Option.or_none]; rfl
  once := Or.inr hresult
  unlocked := hlocked
  unformatted := hformatted

/-- **What the holder does.**  Whatever the writer does at a call, the work stays in order
and nothing but its line gets to the sink, front to back. -/
theorem Work.step_spec (layer : JsonLayer) (h : work.Valid) (out : LogOutput)
    (action : Action) :
    work.Advances layer out (work.step layer out action).1 (work.step layer out action).2.1
      (work.step layer out action).2.2 := by
  obtain ⟨line, accepted, flushed, returned, stage⟩ := work
  cases action with
  | onEvent e => exact h.idle layer out
  | lock => exact h.idle layer out
  | unlock => exact h.idle layer out
  | makeWriterFor panics =>
    cases stage with
    | making =>
      cases panics with
      | false => exact h.writeAll (h.unreturned (Or.inl rfl)) layer out
      | true =>
        refine Work.Advances.of_stage layer (.releasing true) ?_ out rfl rfl rfl
        have hnone : accepted = 0 := h.unwritten rfl
        have hflushed : flushed ≤ accepted := h.flushed
        exact ⟨h.flushed, h.accepted, h.whole, by simp, nofun, fun _ _ => by simp; omega, nofun⟩
    | _ => exact h.idle layer out
  | write call =>
    cases stage with
    | writing =>
      have hreturned : returned = none := h.unreturned (Or.inr rfl)
      cases call with
      | accepted n =>
        cases n with
        | zero => exact h.failed hreturned layer _ out
        | succ n =>
          have hmore : Work.Valid ⟨line, min line.length (accepted + (n + 1)), flushed, returned,
              .writing⟩ := by
            have hflushed : flushed ≤ accepted := h.flushed
            have haccepted : accepted ≤ line.length := h.accepted
            refine ⟨?_, Nat.min_le_left _ _, ?_, h.unreturned, nofun, nofun, nofun⟩
            · simp only
              omega
            · simp [hreturned]
          have hadvances := hmore.writeAll hreturned layer out
          exact ⟨hadvances.valid, hadvances.line, hadvances.sink, hadvances.diagnostics,
            hadvances.returned, hadvances.once, hadvances.unlocked, hadvances.unformatted⟩
      | interrupted => exact Work.Advances.of_stage layer .writing h out rfl rfl rfl
      | error kind => exact h.failed hreturned layer kind out
      | panicked =>
        refine Work.Advances.of_stage layer .dropping ?_ out rfl rfl rfl
        exact ⟨h.flushed, h.accepted, h.whole, by simp, nofun, nofun, nofun⟩
    | _ => exact h.idle layer out
  | flush n =>
    have hflushed : min accepted (flushed + n) ≤ accepted := Nat.min_le_left _ _
    cases stage with
    | writing =>
      exact h.flushes layer n out .writing
        ⟨hflushed, h.accepted, h.whole, h.unreturned, nofun, nofun, nofun⟩ rfl rfl rfl
    | dropping =>
      exact h.flushes layer n out .dropping
        ⟨hflushed, h.accepted, h.whole, h.unreturned, nofun, nofun, nofun⟩ rfl rfl rfl
    | _ => exact h.idle layer out
  | dropWriter panics =>
    cases stage with
    | dropping =>
      have hall := h.flushed_all out
      have hvalid : ∀ panics : Bool, Work.Valid { (Work.flush _ _ out).1 with
          stage := .releasing (panics || returned.isNone) } := fun panics =>
        ⟨Nat.le_of_eq hall, h.accepted, h.whole, by simp, nofun, fun _ _ => hall,
          by cases returned <;> simp [Work.flush]⟩
      cases panics with
      | false => exact h.flushes layer _ out _ (hvalid _) rfl rfl rfl
      | true => exact h.flushes layer _ out _ (hvalid _) rfl rfl rfl
    | _ => exact h.idle layer out

/-- The work on one record, as a machine. -/
def workMachine (layer : JsonLayer) : Machine Action Note where
  State := Work × LogOutput
  step s action := ((s.1.step layer s.2 action).1, (s.1.step layer s.2 action).2)

/-- What a record has added to the output since its lock was taken. -/
structure Work.Adds (layer : JsonLayer) (line : Bytes) (out : LogOutput) (work : Work)
    (out' : LogOutput) : Prop where
  valid : work.Valid
  line_eq : work.line = line
  sink : out'.sink = out.sink ++ line.take work.flushed
  diagnostics : out'.diagnostics = out.diagnostics ++ layer.writeDiagnostics work.returned

theorem Work.Adds.step {layer : JsonLayer} {line : Bytes} {out out' : LogOutput}
    (h : work.Adds layer line out out') (action : Action) :
    (work.step layer out' action).2.1.Adds layer line out (work.step layer out' action).2.2 := by
  have hadvances := work.step_spec layer h.valid out' action
  obtain ⟨chunk, hsink, hchunk⟩ := hadvances.sink
  refine ⟨hadvances.valid, hadvances.line.trans h.line_eq, ?_, ?_⟩
  · rw [hsink, h.sink, ← h.line_eq, hchunk, List.append_assoc]
  · rw [hadvances.diagnostics, h.diagnostics, hadvances.returned]
    rcases hadvances.once with hnone | hnone
    · simp [hnone, JsonLayer.writeDiagnostics]
    · simp [hnone, JsonLayer.writeDiagnostics]

/-- **Step by step and at once.**  A record whose writer never panics ends as one write of
its line with some outcome, however the writer has split it. -/
theorem Work.run_writeLine (layer : JsonLayer) (number : Nat) (metadata : Metadata) (line : Bytes)
    (out : LogOutput) (actions : List Action) :
    let final : Work × LogOutput := (workMachine layer).run (Work.start line, out) actions
    final.1.stage = .releasing false → ∃ outcome,
      final.2 = JsonLayer.writeLine { layer with writer := fun _ _ _ _ => outcome } number
        metadata line out := by
  intro final hreleasing
  have hstart : (Work.start line).Adds layer line out out :=
    ⟨Work.valid_start line, rfl, by simp [Work.start], by
      simp [Work.start, JsonLayer.writeDiagnostics]⟩
  have hadds : final.1.Adds layer line out final.2 := Machine.run_invariant
    (m := workMachine layer) (P := fun s => s.1.Adds layer line out s.2)
    (fun _ action h => h.step action) hstart actions
  have hflushed := hadds.valid.released false hreleasing
  obtain ⟨result, hresult⟩ := Option.isSome_iff_exists.mp (hadds.valid.finished hreleasing)
  have hfinal : final.2 = ⟨out.sink ++ line.take final.1.accepted,
      out.diagnostics ++ layer.writeDiagnostics (some result)⟩ := by
    rw [← hflushed, ← hresult, ← hadds.sink, ← hadds.diagnostics]
  cases result with
  | ok =>
    refine ⟨.ok, hfinal.trans ?_⟩
    rw [hadds.valid.whole hresult, hadds.line_eq, List.take_length, JsonLayer.writeDiagnostics,
      List.append_nil]
    · rfl
    · nofun
  | error kind =>
    have hreported := reportInternalFailure_write layer kind
      ⟨out.sink ++ line.take final.1.accepted, out.diagnostics⟩
    exact ⟨.error kind final.1.accepted, hfinal.trans hreported.symm⟩

/-! ## Blocks -/

/-- What the sink gets of one record: the thread that took the lock for it, its line, the
bytes that the writer has accepted, and what `write_all` returned, if it has. -/
structure Block (θ : Type) where
  thread : θ
  line : Bytes
  bytes : Bytes
  returned : Option (Except String Unit)

/-- A block is the whole line where `write_all` succeeded, and a front part of it
otherwise. -/
structure Block.Valid (block : Block θ) : Prop where
  part : block.bytes <+: block.line
  whole : block.returned = some (.ok ()) → block.bytes = block.line

def Work.block (work : Work) (t : θ) : Block θ :=
  ⟨t, work.line, work.line.take work.accepted, work.returned⟩

theorem Work.Valid.block {work : Work} (h : work.Valid) (t : θ) : (work.block t).Valid where
  part := List.take_prefix _ _
  whole := fun hreturned => by
    simp only [Work.block]
    rw [h.whole hreturned, List.take_length]

/-- The lines for which the lock was taken, in order. -/
def acquisitions (trace : List (θ × Note)) : List (θ × Bytes) :=
  trace.filterMap fun n => n.2.lockedLine.map (n.1, ·)

/-- What the calls of `write_all` returned, in order. -/
def results (trace : List (θ × Note)) : List (θ × Except String Unit) :=
  trace.filterMap fun n => n.2.result.map (n.1, ·)

theorem acquisitions_concat (trace : List (θ × Note)) (t : θ) (note : Note) :
    acquisitions (trace ++ [(t, note)]) =
      acquisitions trace ++ (note.lockedLine.map (t, ·)).toList := by
  cases h : note.lockedLine <;> simp [acquisitions, h]

theorem results_concat (trace : List (θ × Note)) (t : θ) (note : Note) :
    results (trace ++ [(t, note)]) = results trace ++ (note.result.map (t, ·)).toList := by
  cases h : note.result <;> simp [results, h]

variable [DecidableEq θ]

/-- The lines that a thread formatted. -/
def formattedBy (t : θ) (trace : List (θ × Note)) : List Bytes :=
  trace.filterMap fun n => if n.1 = t then n.2.formattedLine else none

/-- The lines of a thread's blocks. -/
def linesOf (t : θ) (blocks : List (Block θ)) : List Bytes :=
  blocks.filterMap fun block => if block.thread = t then some block.line else none

theorem formattedBy_concat (t' : θ) (trace : List (θ × Note)) (t : θ) (note : Note) :
    formattedBy t' (trace ++ [(t, note)]) =
      formattedBy t' trace ++ if t = t' then note.formattedLine.toList else [] := by
  by_cases h : t = t' <;> cases hn : note.formattedLine <;> simp [formattedBy, h, hn]

theorem linesOf_concat (t : θ) (blocks : List (Block θ)) (block : Block θ) :
    linesOf t (blocks ++ [block]) =
      linesOf t blocks ++ if block.thread = t then [block.line] else [] := by
  by_cases h : block.thread = t <;> simp [linesOf, h]

omit [DecidableEq θ] in
/-- The blocks with the one in progress. -/
def withCurrent (done : List (Block θ)) (current : Option (θ × Work)) : List (Block θ) :=
  done ++ (current.map fun c => c.2.block c.1).toList

omit [DecidableEq θ] in
@[simp] theorem withCurrent_none (done : List (Block θ)) : withCurrent done none = done := by
  simp [withCurrent]

omit [DecidableEq θ] in
@[simp] theorem withCurrent_some (done : List (Block θ)) (t : θ) (work : Work) :
    withCurrent done (some (t, work)) = done ++ [work.block t] := rfl

/-- The line that a thread still waits to write. -/
def ThreadStage.pending : ThreadStage → List Bytes
  | .waiting line => [line]
  | _ => []

/-- **The log.**  `done` are the blocks of the records whose lock is released, and `current`
is the work of the holder. -/
structure Log (serde : SerdeJson) (float : FloatArithmetic) (layer : JsonLayer) (s : Threads θ)
    (trace : List (θ × Note)) (done : List (Block θ)) (current : Option (θ × Work)) : Prop where
  holder : s.recordWriteLock.holder = current.map Prod.fst
  holding : ∀ t work, s.stage t = .holding work ↔ current = some (t, work)
  valid : ∀ t work, current = some (t, work) → work.Valid
  blocks : ∀ block ∈ done, block.Valid
  sink : s.out.sink = done.flatMap Block.bytes ++
    current.elim [] fun c => c.2.line.take c.2.flushed
  acquisitions : acquisitions trace = (withCurrent done current).map
    fun block => (block.thread, block.line)
  results : results trace = (withCurrent done current).filterMap
    fun block => block.returned.map (block.thread, ·)
  formatted : ∀ t, formattedBy t trace = linesOf t (withCurrent done current) ++
    (s.stage t).pending
  lines : ∀ t e line, (t, .formatted e line) ∈ trace → ∃ timestamp m,
    e.timestamp = .ok timestamp ∧ WritesLine serde float layer timestamp e.scope e.event m line

section

variable {serde : SerdeJson} {float : FloatArithmetic} {layer : JsonLayer} {s : Threads θ}
  {trace : List (θ × Note)} {done : List (Block θ)} {current : Option (θ × Work)}

theorem Log.initial (serde : SerdeJson) (float : FloatArithmetic) (layer : JsonLayer) :
    Log serde float layer (Threads.initial : Threads θ) [] [] none where
  holder := rfl
  holding := fun _ _ => ⟨nofun, nofun⟩
  valid := nofun
  blocks := nofun
  sink := rfl
  acquisitions := rfl
  results := rfl
  formatted := fun _ => rfl
  lines := nofun

/-- A thread that gives up or takes the place of the holder is the only one in it. -/
theorem Threads.holding_setStage {t : θ} {stage : ThreadStage} {current' : Option (θ × Work)}
    (h : ∀ t' work, s.stage t' = .holding work ↔ current = some (t', work))
    (hbefore : ∀ t' work, current = some (t', work) → t' = t)
    (hafter : ∀ t' work, current' = some (t', work) ↔ t' = t ∧ stage = .holding work) (t' : θ)
    (work : Work) : (s.setStage t stage).stage t' = .holding work ↔ current' = some (t', work) := by
  rw [hafter]
  by_cases ht : t' = t
  · subst ht
    simp
  · rw [stage_setStage_of_ne s ht, h]
    exact iff_of_false (fun hcurrent => ht (hbefore t' work hcurrent)) fun hnew => ht hnew.1

/-- A step that formats nothing adds no line. -/
theorem Log.lines_concat (h : Log serde float layer s trace done current) {t : θ} {note : Note}
    (hnote : note.formattedLine = none) (t' : θ) (e : LoggedEvent) (line : Bytes)
    (hmem : (t', .formatted e line) ∈ trace ++ [(t, note)]) : ∃ timestamp m,
      e.timestamp = .ok timestamp ∧
        WritesLine serde float layer timestamp e.scope e.event m line := by
  rcases List.mem_append.mp hmem with hmem | hmem
  · exact h.lines t' e line hmem
  · cases List.mem_singleton.mp hmem
    cases hnote

/-- A step that touches no record. -/
theorem Log.quiet (h : Log serde float layer s trace done current) {s' : Threads θ} (t : θ)
    {note : Note} (hstage : s'.stage = s.stage)
    (hlock : s'.recordWriteLock = s.recordWriteLock) (hsink : s'.out.sink = s.out.sink)
    (hresult : note.result = none) (hlocked : note.lockedLine = none)
    (hformatted : note.formattedLine = none) :
    Log serde float layer s' (trace ++ [(t, note)]) done current where
  holder := by rw [hlock]; exact h.holder
  holding := by rw [hstage]; exact h.holding
  valid := h.valid
  blocks := h.blocks
  sink := by rw [hsink]; exact h.sink
  acquisitions := by rw [acquisitions_concat, hlocked, h.acquisitions]; simp
  results := by rw [results_concat, hresult, h.results]; simp
  formatted := fun t' => by
    rw [formattedBy_concat, hformatted, hstage, h.formatted]
    simp
  lines := h.lines_concat hformatted

/-- A thread has formatted a line. -/
theorem Log.formats (h : Log serde float layer s trace done current) {t : θ}
    (hstage : s.stage t = .idle) {e : LoggedEvent} {line : Bytes}
    (hline : ∃ timestamp m, e.timestamp = .ok timestamp ∧
      WritesLine serde float layer timestamp e.scope e.event m line) :
    Log serde float layer (s.setStage t (.waiting line)) (trace ++ [(t, .formatted e line)]) done
      current where
  holder := h.holder
  holding := fun t' work => by
    rw [← h.holding]
    by_cases ht : t' = t
    · subst ht
      simp [hstage]
    · rw [Threads.stage_setStage_of_ne s ht]
  valid := h.valid
  blocks := h.blocks
  sink := h.sink
  acquisitions := by rw [acquisitions_concat, h.acquisitions]; simp [Note.lockedLine]
  results := by rw [results_concat, h.results]; simp [Note.result]
  formatted := fun t' => by
    rw [formattedBy_concat, h.formatted]
    by_cases ht : t' = t
    · subst ht
      simp [hstage, ThreadStage.pending, Note.formattedLine]
    · simp [Threads.stage_setStage_of_ne s ht, Ne.symm ht]
  lines := fun t' e' line' hmem => by
    rcases List.mem_append.mp hmem with hmem | hmem
    · exact h.lines t' e' line' hmem
    · cases List.mem_singleton.mp hmem
      exact hline

/-- A thread that waits has taken the lock. -/
theorem Log.locks (h : Log serde float layer s trace done current) {t : θ} {line : Bytes}
    (hstage : s.stage t = .waiting line) (hfree : s.recordWriteLock.holder = none) :
    Log serde float layer { s.setStage t (.holding (.start line)) with
      recordWriteLock := { s.recordWriteLock with holder := some t } }
      (trace ++ [(t, .locked line)]) done (some (t, .start line)) := by
  obtain rfl : current = none := by
    rw [h.holder] at hfree
    exact Option.map_eq_none_iff.mp hfree
  exact {
    holder := rfl
    holding := Threads.holding_setStage h.holding nofun (by simp [eq_comm])
    valid := fun t' work heq => by
      cases heq
      exact Work.valid_start line
    blocks := h.blocks
    sink := h.sink
    acquisitions := by
      rw [acquisitions_concat, h.acquisitions]
      simp [Note.lockedLine, Work.block, Work.start]
    results := by
      rw [results_concat, h.results]
      simp [Note.result, Work.block, Work.start]
    formatted := fun t' => by
      rw [formattedBy_concat, h.formatted, withCurrent_some, linesOf_concat]
      by_cases ht : t' = t
      · subst ht
        simp [hstage, ThreadStage.pending, Note.formattedLine, Work.block, Work.start]
      · simp [Threads.stage_setStage_of_ne s ht, Ne.symm ht, Work.block]
    lines := h.lines_concat rfl }

/-- The holder has gone on with its record. -/
theorem Log.works (h : Log serde float layer s trace done current) {t : θ} {work work' : Work}
    {out' : LogOutput} {note : Note} (hstage : s.stage t = .holding work)
    (hadvances : work.Advances layer s.out note work' out') :
    Log serde float layer { s.setStage t (.holding work') with out := out' }
      (trace ++ [(t, note)]) done (some (t, work')) := by
  obtain rfl := (h.holding t work).mp hstage
  obtain ⟨chunk, hsink, hchunk⟩ := hadvances.sink
  exact {
    holder := h.holder
    holding := Threads.holding_setStage h.holding (by simp [eq_comm]) (by simp [eq_comm])
    valid := fun t' work heq => by
      cases heq
      exact hadvances.valid
    blocks := h.blocks
    sink := by
      have hbefore := h.sink
      simp only [Option.elim_some, hadvances.line] at hbefore ⊢
      rw [hsink, hbefore, hchunk, List.append_assoc]
    acquisitions := by
      rw [acquisitions_concat, hadvances.unlocked, h.acquisitions]
      simp [Work.block, hadvances.line]
    results := by
      rw [results_concat, h.results]
      rcases hadvances.once with hnone | hnone
      · cases hresult : note.result <;> simp [Work.block, hadvances.returned, hnone, hresult]
      · cases hreturned : work.returned <;>
          simp [Work.block, hadvances.returned, hnone, hreturned]
    formatted := fun t' => by
      rw [formattedBy_concat, h.formatted, hadvances.unformatted, withCurrent_some,
        withCurrent_some, linesOf_concat, linesOf_concat]
      by_cases ht : t' = t
      · subst ht
        simp [hstage, ThreadStage.pending, Work.block, hadvances.line]
      · simp [Threads.stage_setStage_of_ne s ht, Ne.symm ht, Work.block]
    lines := h.lines_concat hadvances.unformatted }

/-- The holder has released the lock: its block is done. -/
theorem Log.unlocks (h : Log serde float layer s trace done current) {t : θ} {work : Work}
    {unwinding : Bool} (hstage : s.stage t = .holding work)
    (hreleasing : work.stage = .releasing unwinding) (poisoned : Bool) :
    Log serde float layer { s.setStage t .idle with recordWriteLock := ⟨none, poisoned⟩ }
      (trace ++ [(t, .unlocked)]) (done ++ [work.block t]) none := by
  obtain rfl := (h.holding t work).mp hstage
  have hvalid := h.valid t work rfl
  exact {
    holder := rfl
    holding := Threads.holding_setStage h.holding (by simp [eq_comm]) (by simp)
    valid := nofun
    blocks := fun block hblock => by
      rcases List.mem_append.mp hblock with hblock | hblock
      · exact h.blocks block hblock
      · cases List.mem_singleton.mp hblock
        exact hvalid.block t
    sink := by
      have hbefore := h.sink
      simp only [Option.elim_some, hvalid.released unwinding hreleasing] at hbefore
      refine hbefore.trans ?_
      simp [Work.block]
    acquisitions := by
      rw [acquisitions_concat, h.acquisitions]
      simp [Note.lockedLine]
    results := by
      rw [results_concat, h.results]
      simp [Note.result]
    formatted := fun t' => by
      rw [formattedBy_concat, h.formatted]
      by_cases ht : t' = t
      · subst ht
        simp [hstage, ThreadStage.pending, Note.formattedLine]
      · simp [Threads.stage_setStage_of_ne s ht, Note.formattedLine]
    lines := h.lines_concat rfl }

/-- **One step.**  Whichever thread goes on and whatever its writer does, the log stays one:
the step begins a block, adds to the current one, closes it, or touches none. -/
theorem Log.step (h : Log serde float layer s trace done current) (t : θ) (action : Action) :
    ∃ done' current', Log serde float layer (s.step serde float layer t action).2
      (trace ++ [(t, (s.step serde float layer t action).1)]) done' current' := by
  have hidle : s.step serde float layer t action = (.idle, s) → ∃ done' current',
      Log serde float layer (s.step serde float layer t action).2
        (trace ++ [(t, (s.step serde float layer t action).1)]) done' current' := by
    intro heq
    rw [heq]
    exact ⟨done, current, h.quiet t rfl rfl rfl rfl rfl rfl⟩
  cases hstage : s.stage t with
  | idle =>
    cases action with
    | onEvent e =>
      rcases formatLine_spec serde float layer e with ⟨failure, -, hformat⟩ | ⟨line, hformat, hline⟩
      · simp only [Threads.step, hstage, hformat]
        exact ⟨done, current, h.quiet t rfl rfl (reportInternalFailure_sink _ _ _) rfl rfl rfl⟩
      · simp only [Threads.step, hstage, hformat]
        exact ⟨done, current, h.formats hstage hline⟩
    | _ => exact hidle (by simp only [Threads.step, hstage])
  | waiting line =>
    cases action with
    | lock =>
      cases hfree : s.recordWriteLock.holder with
      | some t' => exact hidle (by simp only [Threads.step, hstage, hfree])
      | none =>
        simp only [Threads.step, hstage, hfree]
        exact ⟨done, _, h.locks hstage hfree⟩
    | _ => exact hidle (by simp only [Threads.step, hstage])
  | holding work =>
    have hvalid := h.valid t work ((h.holding t work).mp hstage)
    have hworks := fun action => h.works hstage (work.step_spec layer hvalid s.out action)
    cases action with
    | unlock =>
      cases hreleasing : work.stage with
      | releasing unwinding =>
        simp only [Threads.step, hstage, hreleasing]
        exact ⟨_, none, h.unlocks hstage hreleasing _⟩
      | _ =>
        simp only [Threads.step, hstage, hreleasing]
        exact ⟨done, _, hworks .unlock⟩
    | _ =>
      simp only [Threads.step, hstage]
      exact ⟨done, _, hworks _⟩

/-- The output with what the living writer holds back is the blocks, one after another. -/
theorem Log.output (h : Log serde float layer s trace done current) :
    s.out.sink ++ s.buffer = (withCurrent done current).flatMap Block.bytes := by
  rw [h.sink, Threads.buffer, h.holder]
  cases hcurrent : current with
  | none => simp
  | some c =>
    obtain ⟨t, work⟩ := c
    have hvalid := h.valid t work hcurrent
    have hstage := (h.holding t work).mpr hcurrent
    have hsplit := List.take_append_drop work.flushed (work.line.take work.accepted)
    rw [List.take_take, Nat.min_eq_left hvalid.flushed] at hsplit
    simp [hstage, Work.block, Work.buffer, hsplit]

theorem Log.valid_withCurrent (h : Log serde float layer s trace done current) :
    ∀ block ∈ withCurrent done current, block.Valid := by
  cases hcurrent : current with
  | none => simpa using h.blocks
  | some c =>
    obtain ⟨t, work⟩ := c
    rw [withCurrent_some]
    intro block hblock
    rcases List.mem_append.mp hblock with hblock | hblock
    · exact h.blocks block hblock
    · cases List.mem_singleton.mp hblock
      exact (h.valid t work hcurrent).block t

end

/-- **Concurrent events are blocks, one after another.**  For every set of threads, every
interleaving of their steps and every behaviour of the writer: the output, with what the
living writer still holds back, is one block for each time the lock was taken, in that
order. A block is the whole line of its event where `write_all` succeeded, and a front part
of it otherwise; the line is a JSON object and one line feed. Each line that a thread has
formatted has exactly one block, unless the thread still waits with it; and a free lock is
taken by whichever thread waits, poisoned or not. -/
theorem run_blocks (θ : Type) [DecidableEq θ] (serde : SerdeJson) (float : FloatArithmetic)
    (layer : JsonLayer) (ops : List (θ × Action)) :
    let s : Threads θ := (threadMachine θ serde float layer).run Threads.initial ops
    let trace := (threadMachine θ serde float layer).answers Threads.initial ops
    ∃ blocks : List (Block θ),
      s.out.sink ++ s.buffer = blocks.flatMap Block.bytes ∧
      (blocks.map fun block => (block.thread, block.line)) = acquisitions trace ∧
      (blocks.filterMap fun block => block.returned.map (block.thread, ·)) = results trace ∧
      (∀ block ∈ blocks, block.Valid) ∧
      (∀ t, formattedBy t trace = linesOf t blocks ++ (s.stage t).pending) ∧
      (∀ t e line, (t, .formatted e line) ∈ trace → ∃ timestamp m json,
        e.timestamp = .ok timestamp ∧
          WritesLine serde float layer timestamp e.scope e.event m line ∧
          serde.toVec m.toValue = some json ∧ line = json ++ [lineFeed]) ∧
      (∀ t e timestamp, s.stage t = .idle → e.timestamp = .ok timestamp →
        ∃ line, (s.step serde float layer t (.onEvent e)).1 = .formatted e line) ∧
      (s.recordWriteLock.holder = none → s.buffer = [] ∧ ∀ t line, s.stage t = .waiting line →
        (s.step serde float layer t .lock).1 = .locked line) := by
  intro s trace
  obtain ⟨done, current, h⟩ := Machine.history (m := threadMachine θ serde float layer)
    (P := fun s trace => ∃ done current, Log serde float layer s trace done current)
    (fun s trace op h => by
      obtain ⟨done, current, h⟩ := h
      exact h.step op.1 op.2)
    ⟨[], none, Log.initial serde float layer⟩ ops
  refine ⟨withCurrent done current, h.output, h.acquisitions.symm, h.results.symm,
    h.valid_withCurrent, h.formatted, fun t e line hmem => ?_, fun t e timestamp hidle htime => ?_,
    fun hfree => ⟨?_, fun t line hwaiting => ?_⟩⟩
  · obtain ⟨timestamp, m, htime, hline⟩ := h.lines t e line hmem
    obtain ⟨json, hjson, heq⟩ := hline.exists_json
    exact ⟨timestamp, m, json, htime, hline, hjson, heq⟩
  · rcases formatLine_spec serde float layer e with ⟨failure, herror, -⟩ | ⟨line, hformat, -⟩
    · cases herror.symm.trans htime
    · exact ⟨line, by simp only [Threads.step, hidle, hformat]⟩
  · rw [Threads.buffer, hfree]
    rfl
  · simp only [Threads.step, hwaiting, hfree]

end AxumObservability
