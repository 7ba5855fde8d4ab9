/-
  Experiment documents and their updates (`server/api/experiments.py`, the `update_experiment`
  and `mark_experiment_*` of the run-state stores).

  A document keeps the fields that the sweep lifecycle writes. Times are readings of one
  clock that never goes back.
-/
import RagParamsFinder.Models.Registry

namespace RagParamsFinder

structure ExperimentDoc where
  status : ExperimentStatus
  runCount : Nat
  failedCount : Option Nat
  completionReason : Option String
  startedAt : Option Nat
  completedAt : Option Nat
  errorMessage : Option String
  deriving DecidableEq, Repr

/-- The argument of `update_experiment`: `none` for a key that it does not name. -/
structure ExperimentUpdate where
  status : Option ExperimentStatus := none
  runCount : Option Nat := none
  failedCount : Option Nat := none
  completionReason : Option String := none
  startedAt : Option Nat := none
  completedAt : Option Nat := none
  errorMessage : Option String := none
  deriving DecidableEq, Repr

/-- `update_experiment`, on the document it finds. -/
def ExperimentDoc.update (d : ExperimentDoc) (u : ExperimentUpdate) : ExperimentDoc where
  status := u.status.getD d.status
  runCount := u.runCount.getD d.runCount
  failedCount := u.failedCount <|> d.failedCount
  completionReason := u.completionReason <|> d.completionReason
  startedAt := u.startedAt <|> d.startedAt
  completedAt := u.completedAt <|> d.completedAt
  errorMessage := u.errorMessage <|> d.errorMessage

/-- `mark_experiment_cancelled` and `mark_experiment_paused`. -/
def ExperimentDoc.markTerminal (d : ExperimentDoc) (status : ExperimentStatus) (now : Nat) :
    ExperimentDoc :=
  { d with status := status, completedAt := some now }

/-- `mark_experiment_running`. -/
def ExperimentDoc.markRunning (d : ExperimentDoc) : ExperimentDoc :=
  { d with status := .running, completedAt := none }

/-- The document that `create_experiment` inserts. -/
def ExperimentDoc.created (runCount : Nat) : ExperimentDoc where
  status := .running
  runCount := runCount
  failedCount := none
  completionReason := none
  startedAt := none
  completedAt := none
  errorMessage := none

end RagParamsFinder
