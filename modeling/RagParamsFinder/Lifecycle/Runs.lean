/-
  One run of the pipeline (`_run_single`, `server/core/pipeline/orchestrator.py`) as a
  program of small operations, and a run inside the sweep's thread pool.

  A run inserts its status row, then works through `runOps`: control checks, phase updates,
  the embedding with its own checks between batches, the chunks, and one result for each
  query. An exception at any point leads to one of the two handlers, which write the settling
  phase and raise again. What a run computes (text, chunks, embeddings, hits) is left out;
  that computing it may raise is not. The write-once golden count touches no field kept here.

  Proved: `runStep_op`. A step of a run accesses the shared state by one of five operations.
-/
import RagParamsFinder.Lifecycle.Shared

namespace RagParamsFinder

/-! ## The program of a run -/

inductive RunOp where
  | checkControl
  | updatePhase (phase : Phase)
  | embed
  | storeChunks
  | insertResult (query : String)
  deriving DecidableEq, Repr

/-- The operations of `_run_single` after the status row is inserted. -/
def runOps (queries : List String) : List RunOp :=
  [.checkControl, .updatePhase .parsing, .checkControl, .updatePhase .chunking,
    .checkControl, .updatePhase .embedding, .embed,
    .checkControl, .updatePhase .storing, .storeChunks,
    .checkControl, .updatePhase .querying] ++
  queries.flatMap (fun q => [.checkControl, .insertResult q]) ++
  [.updatePhase .complete]

/-- How the future of a run ends. -/
inductive RunResult where
  | ok
  | cancelled
  | paused
  | sieUnavailable (message : String)
  | error
  deriving DecidableEq, Repr

/-- Where a run stands. `interrupted` and `failing` are the handlers before their write. -/
inductive RunPc where
  | insertRow
  | ops (rest : List RunOp)
  | interrupted (paused : Bool)
  | failing (sie : Bool) (message : String)
  deriving DecidableEq, Repr

inductive WorkerState where
  | waiting
  | running (pc : RunPc)
  | done (result : RunResult)
  deriving DecidableEq, Repr

/-- A future of the pool, with the run it is for. -/
structure RunFuture where
  runId : Nat
  params : RunParams
  worker : WorkerState
  deriving DecidableEq

def RunFuture.isWaiting (f : RunFuture) : Bool := f.worker = .waiting

def RunFuture.isRunning (f : RunFuture) : Bool :=
  match f.worker with
  | .running _ => true
  | _ => false

def RunFuture.isDone (f : RunFuture) : Bool :=
  match f.worker with
  | .done _ => true
  | _ => false

theorem RunFuture.isRunning_of {f : RunFuture} (hw : f.isWaiting = false)
    (hd : f.isDone = false) : f.isRunning = true := by
  unfold RunFuture.isWaiting at hw
  unfold RunFuture.isDone at hd
  unfold RunFuture.isRunning
  cases hs : f.worker with
  | waiting => simp [hs] at hw
  | running pc => rfl
  | done r => simp [hs] at hd

/-! ## Steps -/

/-- What a running run does next: the operation at hand; the end of the embedding, or
    storing no chunk; or raising, `sie` for `SIEUnavailableError`. -/
inductive RunAct where
  | go
  | next
  | raise (sie : Bool) (message : String)
  deriving DecidableEq, Repr

/-- A control check of a run: go on, or enter the handler. -/
def checkedPc (signal : Signal) (rest : List RunOp) : RunPc :=
  match signal with
  | .clear => .ops rest
  | .cancelled => .interrupted false
  | .paused => .interrupted true

/-- One operation of the pipeline. -/
def runOpStep (s : Shared) (runId : Nat) (op : RunOp) (rest : List RunOp) :
    RunAct → Option (Op × WorkerState)
  | .go =>
      match op with
      | .checkControl => some (.read, .running (checkedPc (checkControl s.control) rest))
      | .updatePhase phase => some (.updateRunPhase runId phase none, .running (.ops rest))
      | .embed => some (.read, .running (checkedPc (checkControl s.control) (op :: rest)))
      | .storeChunks => some (.insertChunks runId, .running (.ops rest))
      | .insertResult query => some (.insertResult runId query, .running (.ops rest))
  | .next =>
      match op with
      | .embed => some (.read, .running (.ops rest))
      | .storeChunks => some (.read, .running (.ops rest))
      | _ => none
  | .raise sie message => some (.read, .running (.failing sie message))

/-- The text the interruption handlers store. -/
def interruptionText (paused : Bool) : String :=
  if paused then "Paused by user" else "Cancelled by user"

/-- A step of a run that has begun. -/
def runStep (queries : List String) (s : Shared) (f : RunFuture) (pc : RunPc) (act : RunAct) :
    Option (Op × WorkerState) :=
  match pc, act with
  | .insertRow, .go =>
      some (.insertRunStatus f.runId f.params, .running (.ops (runOps queries)))
  | .insertRow, .raise _ _ => some (.read, .done .error)
  | .ops [], .go => some (.read, .done .ok)
  | .ops (op :: rest), act => runOpStep s f.runId op rest act
  | .interrupted paused, .go =>
      some (.updateRunPhase f.runId .interrupted (some (interruptionText paused)),
        .done (if paused then .paused else .cancelled))
  | .failing sie message, .go =>
      some (.updateRunPhase f.runId .failed (some message),
        .done (if sie then .sieUnavailable message else .error))
  -- the handler's own write raises
  | .interrupted _, .raise _ _ => some (.read, .done .error)
  | .failing _ _, .raise _ _ => some (.read, .done .error)
  | _, _ => none

/-- The operations by which a run accesses the shared state. -/
def Op.ofRun : Op → Bool
  | .read => true
  | .insertRunStatus _ _ => true
  | .updateRunPhase _ _ _ => true
  | .insertChunks _ => true
  | .insertResult _ _ => true
  | _ => false

theorem Op.statusAfter_ofRun {op : Op} (h : op.ofRun = true) (old : ExperimentStatus) :
    op.statusAfter old = old := by
  cases op <;> first | rfl | cases h

theorem Op.controlAfter_ofRun {op : Op} (h : op.ofRun = true) (old : Option SweepControl) :
    op.controlAfter old = old := by
  cases op <;> first | rfl | cases h

theorem Op.queuedAfter_ofRun {op : Op} (h : op.ofRun = true) (old : List SweepTask) :
    op.queuedAfter old = old := by
  cases op <;> first | rfl | cases h

theorem runOpStep_op {s : Shared} {runId : Nat} {op : RunOp} {rest : List RunOp} {act : RunAct}
    {o : Op} {w : WorkerState} (h : runOpStep s runId op rest act = some (o, w)) :
    o.ofRun = true ∧ ∃ pc, w = .running pc := by
  cases act with
  | go => cases op <;> (cases h; exact ⟨rfl, _, rfl⟩)
  | next =>
      cases op with
      | embed => cases h; exact ⟨rfl, _, rfl⟩
      | storeChunks => cases h; exact ⟨rfl, _, rfl⟩
      | _ => cases h
  | raise sie message => cases h; exact ⟨rfl, _, rfl⟩

theorem runOpStep_row {s : Shared} {runId : Nat} {op : RunOp} {rest : List RunOp} {act : RunAct}
    {i : Nat} {params : RunParams} {w : WorkerState} :
    runOpStep s runId op rest act ≠ some (.insertRunStatus i params, w) := by
  intro h
  cases act with
  | go => cases op <;> cases h
  | next => cases op <;> cases h
  | raise sie message => cases h

/-- The one row a run inserts is its own. -/
theorem runStep_row {queries : List String} {s : Shared} {f : RunFuture} {pc : RunPc}
    {act : RunAct} {runId : Nat} {params : RunParams} {w : WorkerState}
    (h : runStep queries s f pc act = some (.insertRunStatus runId params, w)) :
    runId = f.runId := by
  unfold runStep at h
  split at h
  any_goals cases h
  · rfl
  · exact absurd h runOpStep_row

/-- A step of a run is one of a run's operations, and does not put it back in the queue. -/
theorem runStep_op {queries : List String} {s : Shared} {f : RunFuture} {pc : RunPc}
    {act : RunAct} {o : Op} {w : WorkerState} (h : runStep queries s f pc act = some (o, w)) :
    o.ofRun = true ∧ w ≠ .waiting := by
  unfold runStep at h
  split at h
  · cases h; exact ⟨rfl, by simp⟩
  · cases h; exact ⟨rfl, by simp⟩
  · cases h; exact ⟨rfl, by simp⟩
  · obtain ⟨ho, pc', rfl⟩ := runOpStep_op h
    exact ⟨ho, by simp⟩
  · cases h; exact ⟨rfl, by simp⟩
  · cases h; exact ⟨rfl, by simp⟩
  · cases h; exact ⟨rfl, by simp⟩
  · cases h; exact ⟨rfl, by simp⟩
  · cases h

end RagParamsFinder
