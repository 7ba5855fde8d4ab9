/-
  What the threads of the server share about one experiment: its stored document, run rows,
  results and chunks, its entry in `_sweep_controls` (`server/core/pipeline/
  experiment_control.py`), and its tasks in the queue of the sweep executor.

  Every access of a thread is one `Op`, named after the source's call; an `Op` runs at once
  and between two of them any other thread may run. `serial` numbers the calls of
  `schedule_sweep`; an entry of `_sweep_controls` remembers the sweep it was created for,
  which the source does not. `resumed`, `acked` and `created` are history too: the status was
  last set by a resume, a cancel has marked the experiment, the document has been inserted.

  Proved: what each `Op` does to the status, the entry and the queue (`status_run`,
  `control_run`, `queued_run`), so that no later proof unfolds `Op.run` for them.
-/
import RagParamsFinder.Pipeline.FinalStatus
import RagParamsFinder.Pipeline.Signatures

namespace RagParamsFinder

/-! ## Control entries -/

/-- `_SweepControl`: two events, and the sweep the entry was created for. -/
structure SweepControl where
  cancel : Bool
  pause : Bool
  owner : Nat
  deriving DecidableEq, Repr

/-- What `check_control` raises. -/
inductive Signal where
  | clear
  | cancelled
  | paused
  deriving DecidableEq, Repr

/-- `check_control`. -/
def checkControl : Option SweepControl → Signal
  | none => .clear
  | some c => if c.cancel then .cancelled else if c.pause then .paused else .clear

/-- A cancel has set the flag of the entry. -/
def flagged (control : Option SweepControl) : Bool := control.any (·.cancel)

/-! ## Shared state -/

/-- Which store keeps the run state. `chunksCascade`: the chunks are in the same Postgres
    database, under its foreign key. -/
structure Deployment where
  store : RunStateStore
  chunksCascade : Bool
  cascade_postgres : chunksCascade = true → store = .postgres

/-- Whether the run-state tables have the foreign key to `experiments`. -/
def Deployment.foreignKeys (dep : Deployment) : Bool := dep.store ≠ .mongo

/-- Run state and chunks in MongoDB. -/
def Deployment.mongo : Deployment := ⟨.mongo, false, by decide⟩

/-- `run_sweep` or `resume_sweep`. -/
inductive SweepKind where
  | run
  | resume
  deriving DecidableEq, Repr

/-- A task of the sweep executor. -/
structure SweepTask where
  serial : Nat
  kind : SweepKind
  deriving DecidableEq, Repr

/-- A row of `run_status`. -/
structure RunRow where
  runId : Nat
  params : RunParams
  phase : Phase
  errorMessage : Option String
  deriving DecidableEq

structure Shared where
  doc : Option ExperimentDoc
  rows : List RunRow
  results : List (Nat × String)
  chunks : List Nat
  control : Option SweepControl
  queued : List SweepTask
  now : Nat
  nextSerial : Nat
  nextRun : Nat
  resumed : Bool
  acked : Bool
  created : Bool
  deriving DecidableEq

def Shared.initial : Shared where
  doc := none
  rows := []
  results := []
  chunks := []
  control := none
  queued := []
  now := 0
  nextSerial := 0
  nextRun := 0
  resumed := false
  acked := false
  created := false

def Shared.status (s : Shared) : Option ExperimentStatus := s.doc.map (·.status)

/-- The phases of the run rows, as the status derivations read them. -/
def Shared.phases (s : Shared) : List Phase := s.rows.map (·.phase)

/-- The signatures of the completed rows. -/
def Shared.completedSignatures (s : Shared) : List ParamSignature :=
  (s.rows.filter (·.phase = .complete)).map fun r => paramsSignature r.params

/-! ## Operations -/

inductive Op where
  | read
  | tick
  | registerSweepControl (serial : Nat)
  | unregisterSweepControl
  | requestCancel
  | requestPause
  | insertExperiment (runCount : Nat)
  | updateExperiment (u : ExperimentUpdate)
  | markExperimentCancelled
  | markExperimentPaused
  | markExperimentRunning
  | submitSweep (task : SweepTask)
  | takeTask
  | newRunId
  | insertRunStatus (runId : Nat) (params : RunParams)
  | updateRunPhase (runId : Nat) (phase : Phase) (errorMessage : Option String)
  | insertChunks (runId : Nat)
  | insertResult (runId : Nat) (query : String)
  | deleteChunks
  | deleteResults
  | deleteRunStatus
  | deleteExperiment
  deriving DecidableEq

/-- Register if the experiment has no entry. -/
def registerControl (control : Option SweepControl) (serial : Nat) : Option SweepControl :=
  match control with
  | some c => some c
  | none => some ⟨false, false, serial⟩

/-- A registration by `schedule_sweep` also uses up a serial; the one at the start of
    `_execute_sweep` is for a serial already used. -/
def Op.run (dep : Deployment) (s : Shared) : Op → Shared
  | .read => s
  | .tick => { s with now := s.now + 1 }
  | .registerSweepControl serial =>
      { s with
        control := registerControl s.control serial
        nextSerial := max s.nextSerial (serial + 1) }
  | .unregisterSweepControl => { s with control := none }
  | .requestCancel => { s with control := s.control.map fun c => { c with cancel := true } }
  | .requestPause => { s with control := s.control.map fun c => { c with pause := true } }
  | .insertExperiment runCount =>
      { s with doc := some (.created runCount), created := true, resumed := false }
  | .updateExperiment u =>
      { s with doc := s.doc.map (·.update u), resumed := s.resumed && u.status.isNone }
  | .markExperimentCancelled =>
      { s with
        doc := s.doc.map (·.markTerminal .cancelled s.now), resumed := false, acked := true }
  | .markExperimentPaused =>
      { s with doc := s.doc.map (·.markTerminal .paused s.now), resumed := false }
  | .markExperimentRunning => { s with doc := s.doc.map (·.markRunning), resumed := true }
  | .submitSweep task => { s with queued := s.queued ++ [task] }
  | .takeTask => { s with queued := s.queued.tail }
  | .newRunId => { s with nextRun := s.nextRun + 1 }
  | .insertRunStatus runId params => { s with rows := s.rows ++ [⟨runId, params, .queued, none⟩] }
  | .updateRunPhase runId phase errorMessage =>
      { s with
        rows := s.rows.map fun r =>
          if r.runId = runId then { r with phase := phase, errorMessage := errorMessage } else r }
  | .insertChunks runId => { s with chunks := s.chunks ++ [runId] }
  | .insertResult runId query => { s with results := s.results ++ [(runId, query)] }
  | .deleteChunks => { s with chunks := [] }
  | .deleteResults => { s with results := [] }
  | .deleteRunStatus => { s with rows := [] }
  | .deleteExperiment =>
      { s with
        doc := none
        rows := if dep.foreignKeys then [] else s.rows
        results := if dep.foreignKeys then [] else s.results
        chunks := if dep.chunksCascade then [] else s.chunks }

/-- An insert under a foreign key fails without the experiment's row. -/
def Op.accepted (dep : Deployment) (s : Shared) : Op → Bool
  | .insertRunStatus _ _ => !dep.foreignKeys || s.doc.isSome
  | .insertResult _ _ => !dep.foreignKeys || s.doc.isSome
  | .insertChunks _ => !dep.chunksCascade || s.doc.isSome
  | _ => true

/-! ## What the operations do -/

/-- The status after an operation on a document of status `old`. -/
def Op.statusAfter (old : ExperimentStatus) : Op → ExperimentStatus
  | .updateExperiment u => u.status.getD old
  | .markExperimentCancelled => .cancelled
  | .markExperimentPaused => .paused
  | .markExperimentRunning => .running
  | _ => old

/-- An operation on a stored document changes its status as `statusAfter` says; only
    creation and deletion change whether there is a document. -/
theorem status_run (dep : Deployment) (s : Shared) (op : Op)
    (hi : ∀ n, op ≠ .insertExperiment n) (hd : op ≠ .deleteExperiment) :
    (op.run dep s).status = s.status.map op.statusAfter := by
  obtain ⟨doc⟩ := s
  cases op with
  | insertExperiment n => exact absurd rfl (hi n)
  | deleteExperiment => exact absurd rfl hd
  | _ => cases doc <;> rfl

/-- Which operations touch the control entry. -/
def Op.controlAfter (old : Option SweepControl) : Op → Option SweepControl
  | .registerSweepControl serial => registerControl old serial
  | .unregisterSweepControl => none
  | .requestCancel => old.map fun c => { c with cancel := true }
  | .requestPause => old.map fun c => { c with pause := true }
  | _ => old

theorem control_run (dep : Deployment) (s : Shared) (op : Op) :
    (op.run dep s).control = op.controlAfter s.control := by
  cases op <;> rfl

def Op.queuedAfter (old : List SweepTask) : Op → List SweepTask
  | .submitSweep task => old ++ [task]
  | .takeTask => old.tail
  | _ => old

theorem queued_run (dep : Deployment) (s : Shared) (op : Op) :
    (op.run dep s).queued = op.queuedAfter s.queued := by
  cases op <;> rfl

end RagParamsFinder
