/-
  The sweep thread (`server/core/pipeline/orchestrator.py`): `resume_sweep`,
  `_execute_sweep`, `_run_sweep_inner` with `_submit_next`, and `_run_bayesian_inner`.

  A `Sweep` is the thread between two accesses of the shared state: its place in the source
  (`Pc`) and its local variables. `Sweep.step` is one access; `go` is the normal outcome of
  the call, `raise` an exception of the store or of a preflight check that is not one of the
  two classes `_execute_sweep` catches, `mismatch` one of those. The sampler's suggestion and
  the order in which finished futures are looked at are arbitrary.

  The exception paths differ: before `_execute_sweep` has registered, an exception ends the
  thread and leaves the entry; inside the `with` block it first waits for the pool (`leave`);
  everything else unregisters on the way out. A Bayesian trial that fails ends its loop: Optuna
  refuses values for a failed trial, and the `ValueError` leaves through the `finally` block.
  `failureSeen`, `checkedSince` and `heard` are history: a failed run has been looked at; a
  control check was made after a cancel was acknowledged; a control check, of the thread or of
  a run it has looked at, was made after a cancel had set the flag of the entry.
-/
import RagParamsFinder.Lifecycle.Runs

namespace RagParamsFinder

/-! ## Plans -/

def ExperimentConfig.isBayesian (cfg : ExperimentConfig) : Bool :=
  cfg.execution.searchStrategy = .bayesian

/-- `grid_equivalent_count`. -/
def gridEquivalentCount (cfg : ExperimentConfig) : Nat :=
  cfg.chunking.params.chunkSizes.length * cfg.chunking.params.overlaps.length

/-- `resolve_bayesian_n_trials`. -/
def resolveBayesianNTrials (cfg : ExperimentConfig) : Nat :=
  match cfg.execution.nTrials with
  | none => gridEquivalentCount cfg
  | some n => min n (gridEquivalentCount cfg)

/-- `_planned_run_count`. -/
def plannedRunCount (cfg : ExperimentConfig) : Nat :=
  if cfg.isBayesian then resolveBayesianNTrials cfg else (expandSweep cfg).length

/-- `_bayesian_trial_to_run_params`: the template with another size and overlap. -/
def trialParams (template : RunParams) (chunkSize overlap : Int) : RunParams :=
  { template with chunkSize := chunkSize, overlap := overlap }

/-! ## The thread -/

/-- Who called `_submit_next`: the first loop, with so many rounds left, or the refill. -/
inductive Caller where
  | initial (left : Nat)
  | refill
  deriving DecidableEq, Repr

inductive Pc where
  | completedSignatures
  | register
  | cancelledInDb
  | startCheck
  | preflight
  | failPreflight (message : String)
  -- the grid loop
  | submitNext (caller : Caller)
  | submitCheck (caller : Caller) (params : RunParams)
  | submitStarted (caller : Caller) (params : RunParams)
  | submitPut (caller : Caller) (params : RunParams)
  | wait
  | process (done : List Nat)
  | loopCheck
  | leave
  -- the Bayesian loop
  | ask
  | trialCheck (params : RunParams)
  | trialStarted (params : RunParams)
  | trialPut (params : RunParams)
  | trialRun
  | trialScore
  | trialAfter
  | bestTrial
  -- the end of both
  | countRuns
  | summaries (runs : List Phase)
  | finalWrite (u : ExperimentUpdate)
  | unregister
  deriving DecidableEq

structure Sweep where
  task : SweepTask
  pc : Pc
  skip : List ParamSignature
  runIter : List RunParams
  firstRunSet : Bool
  cancelled : Bool
  paused : Bool
  stop : Bool
  infra : Option String
  futures : List RunFuture
  runIds : List Nat
  visited : List (Int × Int)
  asks : Nat
  failureSeen : Bool
  checkedSince : Bool
  heard : Bool
  deriving DecidableEq

/-- The thread as the executor starts it: `resume_sweep` reads the completed signatures. -/
def Sweep.start (task : SweepTask) : Sweep where
  task := task
  pc := match task.kind with
    | .run => .register
    | .resume => .completedSignatures
  skip := []
  runIter := []
  firstRunSet := false
  cancelled := false
  paused := false
  stop := false
  infra := none
  futures := []
  runIds := []
  visited := []
  asks := 0
  failureSeen := false
  checkedSince := false
  heard := false

inductive SweepAct where
  | go
  | raise
  | mismatch (message : String)
  | process (runId : Nat)
  | suggest (chunkSize overlap : Int)
  deriving DecidableEq, Repr

/-! ## Local moves -/

def Sweep.goto (t : Sweep) (pc : Pc) : Sweep := { t with pc := pc }

/-- The history of a control check: what had happened by then. -/
def Sweep.noteCheck (s : Shared) (t : Sweep) : Sweep :=
  { t with checkedSince := t.checkedSince || s.acked, heard := t.heard || flagged s.control }

/-- A control check: go on at `clear`, or set the flag and `stop_after_failure`. -/
def Sweep.checked (s : Shared) (t : Sweep) (clear stopped : Pc) : Sweep :=
  match checkControl s.control with
  | .clear => { t.noteCheck s with pc := clear }
  | .cancelled => { t.noteCheck s with cancelled := true, stop := true, pc := stopped }
  | .paused => { t.noteCheck s with paused := true, stop := true, pc := stopped }

/-- The check at the start, where a pause raises past both handlers of `_execute_sweep`. -/
def Sweep.startChecked (s : Shared) (t : Sweep) : Sweep :=
  { t.noteCheck s with pc := if checkControl s.control = .clear then .preflight else .unregister }

/-- Where `_submit_next` returns to. -/
def Caller.resume : Caller → Bool → Pc
  | .initial (n + 1), true => .submitNext (.initial n)
  | .initial 0, true => .wait
  | .initial _, false => .wait
  | .refill, true => .submitNext .refill
  | .refill, false => .wait

/-- What the loop does with the result of a future: set the flags. A run ends as cancelled
    when a control check of its own finds the flag. -/
def Sweep.observe (cfg : ExperimentConfig) (t : Sweep) : RunResult → Sweep
  | .ok => t
  | .cancelled => { t with cancelled := true, stop := true, heard := true }
  | .paused => { t with paused := true, stop := true }
  | .sieUnavailable message =>
      { t with infra := some message, stop := true, failureSeen := true }
  | .error =>
      { t with stop := t.stop || decide (cfg.execution.onError = .stop), failureSeen := true }

/-- The result of a future that is done. -/
def RunFuture.result (f : RunFuture) : Option RunResult :=
  match f.worker with
  | .done r => some r
  | _ => none

/-- The runs whose future is done. -/
def doneRuns (futures : List RunFuture) : List Nat :=
  (futures.filter (·.isDone)).map (·.runId)

/-- Look at one future of the set that `wait` returned. -/
def Sweep.processOne (cfg : ExperimentConfig) (t : Sweep) (done : List Nat) (runId : Nat) :
    Option Sweep :=
  if runId ∈ done then
    match t.futures.find? fun f => f.runId = runId with
    | none => none
    | some f =>
        f.result.map fun r =>
          let t' := { t.observe cfg r with futures := t.futures.filter fun g => g.runId ≠ runId }
          let rest := done.erase runId
          if rest ≠ [] then t'.goto (.process rest)
          else if t'.stop then t'.goto .wait
          else t'.goto .loopCheck
  else none

/-- After preflight: the run list of a grid sweep, or the template of a Bayesian one, where
    `expanded[0]` raises on an empty expansion. -/
def Sweep.begin (cfg : ExperimentConfig) (t : Sweep) : Sweep :=
  if cfg.isBayesian then
    if (expandSweep cfg).isEmpty then t.goto .unregister else t.goto .ask
  else
    { t with
      runIter := runnableRuns cfg t.skip
      pc := .submitNext (.initial (cfg.execution.parallelism - 1)) }

/-- `next(run_iter)` in `_submit_next`. -/
def Sweep.submitNext (t : Sweep) (caller : Caller) : Sweep :=
  if t.stop then t.goto (caller.resume false)
  else
    match t.runIter with
    | [] => t.goto (caller.resume false)
    | p :: rest => { t with runIter := rest, pc := .submitCheck caller p }

/-- The end of the trial loop: the budgets of the sampler. -/
def Sweep.exhausted (cfg : ExperimentConfig) (t : Sweep) : Bool :=
  decide (gridEquivalentCount cfg ≤ t.visited.length) ||
    decide (resolveBayesianNTrials cfg ≤ t.runIds.length) ||
    decide (resolveBayesianNTrials cfg * 3 ≤ t.asks)

/-- A suggestion: pruned if visited, else tried. -/
def Sweep.tryCandidate (cfg : ExperimentConfig) (t : Sweep) (chunkSize overlap : Int) :
    Option Sweep :=
  match expandSweep cfg with
  | [] => none
  | template :: _ =>
      if (chunkSize, overlap) ∈ t.visited then some { t with asks := t.asks + 1, pc := .ask }
      else
        some
          { t with
            asks := t.asks + 1
            visited := t.visited ++ [(chunkSize, overlap)]
            pc := .trialCheck (trialParams template chunkSize overlap) }

/-- The outcome of the run of a trial. A trial without a score is reported by
    `study.tell(trial, nan, state=FAIL)`, which raises `ValueError`: the loop is left through the
    `finally` that settles. -/
def Sweep.trialDone (cfg : ExperimentConfig) (t : Sweep) (r : RunResult) : Sweep :=
  let t' := { t.observe cfg r with futures := [] }
  match r with
  | .ok => t'.goto .trialScore
  | _ => t'.goto .bestTrial

/-- A trial that raised before its run: the same call of `study.tell` raises. -/
def Sweep.trialLost (t : Sweep) : Sweep := t.goto .bestTrial

/-- A trial whose score could not be read: a failed trial. -/
def Sweep.trialUnscored (cfg : ExperimentConfig) (t : Sweep) : Sweep :=
  { t with stop := t.stop || decide (cfg.execution.onError = .stop), pc := .bestTrial }

/-- Whether the end reads the run rows at all. -/
def Sweep.readsRuns (cfg : ExperimentConfig) (t : Sweep) : Bool :=
  !cfg.isBayesian || t.cancelled || t.paused || !t.runIds.isEmpty

/-- The status part of the end, on the phases read. -/
def Sweep.outcome (cfg : ExperimentConfig) (t : Sweep) (runs summaries : List Phase) :
    ExperimentStatus × Nat × String :=
  if cfg.isBayesian then
    bayesianOutcome t.cancelled t.paused runs (resolveBayesianNTrials cfg) t.runIds.length
  else gridOutcome t.cancelled t.paused runs summaries (expandSweep cfg).length

/-- The final update, ready to be written. -/
def Sweep.settle (cfg : ExperimentConfig) (t : Sweep) (s : Shared) (runs summaries : List Phase) :
    Sweep :=
  t.goto (.finalWrite
    (finalUpdate (t.outcome cfg runs summaries) (plannedRunCount cfg) t.infra s.now))

/-! ## Steps -/

/-- The start: until the loop of the search strategy. -/
def Sweep.stepStart (cfg : ExperimentConfig) (s : Shared) (t : Sweep) :
    SweepAct → Option (Op × Option Sweep)
  | .go =>
      match t.pc with
      | .completedSignatures =>
          some (.read, some { t with skip := s.completedSignatures, pc := .register })
      | .register =>
          some (.registerSweepControl t.task.serial,
            some (t.goto (if cfg.isBayesian then .startCheck else .cancelledInDb)))
      | .cancelledInDb =>
          some (.read,
            some (t.goto (if s.status = some .cancelled then .unregister else .startCheck)))
      | .startCheck => some (.read, some (t.startChecked s))
      | .preflight => some (.read, some (t.begin cfg))
      | .failPreflight message =>
          some (.updateExperiment (preflightFailure (plannedRunCount cfg) message s.now),
            some (t.goto .unregister))
      | _ => none
  | .raise =>
      match t.pc with
      | .completedSignatures => some (.read, none)
      | .cancelledInDb => some (.read, some (t.goto .unregister))
      | .preflight => some (.read, some (t.goto .unregister))
      | _ => none
  | .mismatch message =>
      match t.pc with
      | .preflight => some (.read, some (t.goto (.failPreflight message)))
      | _ => none
  | _ => none

/-- The grid loop. -/
def Sweep.stepGrid (cfg : ExperimentConfig) (s : Shared) (t : Sweep) :
    SweepAct → Option (Op × Option Sweep)
  | .go =>
      match t.pc with
      | .submitNext caller => some (.read, some (t.submitNext caller))
      | .submitCheck caller p =>
          some (.read, some (t.checked s
            (if t.firstRunSet then .submitPut caller p else .submitStarted caller p)
            (caller.resume false)))
      | .submitStarted caller p =>
          some (.updateExperiment { startedAt := some s.now },
            some { t with firstRunSet := true, pc := .submitPut caller p })
      | .submitPut caller p =>
          some (.newRunId,
            some
              { t with
                runIds := t.runIds ++ [s.nextRun]
                futures := t.futures ++ [⟨s.nextRun, p, .waiting⟩]
                pc := caller.resume true })
      | .wait =>
          if t.futures = [] then some (.read, some (t.goto .countRuns))
          else if doneRuns t.futures = [] then none
          else some (.read, some (t.goto (.process (doneRuns t.futures))))
      | .loopCheck => some (.read, some (t.checked s (.submitNext .refill) .wait))
      | .leave =>
          if t.futures.all (·.isDone) then some (.read, some (t.goto .unregister)) else none
      | _ => none
  | .raise =>
      match t.pc with
      | .submitStarted _ _ => some (.read, some (t.goto .leave))
      | _ => none
  | .process runId =>
      match t.pc with
      | .process done => (t.processOne cfg done runId).map fun t' => (.read, some t')
      | _ => none
  | _ => none

/-- The Bayesian loop. -/
def Sweep.stepBayesian (cfg : ExperimentConfig) (s : Shared) (t : Sweep) :
    SweepAct → Option (Op × Option Sweep)
  | .go =>
      match t.pc with
      | .ask => if t.exhausted cfg then some (.read, some (t.goto .bestTrial)) else none
      | .trialCheck p =>
          if t.stop then some (.read, some (t.goto .bestTrial))
          else
            some (.read, some (t.checked s
              (if t.runIds.isEmpty then .trialStarted p else .trialPut p) .bestTrial))
      | .trialStarted p =>
          some (.updateExperiment { startedAt := some s.now }, some (t.goto (.trialPut p)))
      | .trialPut p =>
          some (.newRunId,
            some
              { t with
                runIds := t.runIds ++ [s.nextRun]
                futures := [⟨s.nextRun, p, .running .insertRow⟩]
                pc := .trialRun })
      | .trialRun =>
          match t.futures with
          | [f] => f.result.map fun r => (.read, some (t.trialDone cfg r))
          | _ => none
      | .trialScore => some (.read, some (t.goto .trialAfter))
      | .trialAfter => some (.read, some (t.checked s .ask .bestTrial))
      | .bestTrial => some (.read, some (t.goto .countRuns))
      | _ => none
  | .raise =>
      match t.pc with
      -- `study.ask()` raises inside the outer `try`, whose `finally` still settles
      | .ask => some (.read, some (t.goto .bestTrial))
      | .trialStarted _ => some (.read, some t.trialLost)
      | .trialScore => some (.read, some (t.trialUnscored cfg))
      | .bestTrial => if t.runIds.isEmpty then none else some (.read, some (t.goto .unregister))
      | _ => none
  | .suggest chunkSize overlap =>
      match t.pc with
      | .ask =>
          if t.exhausted cfg then none
          else if chunkSize ∈ cfg.chunking.params.chunkSizes ∧
              overlap ∈ cfg.chunking.params.overlaps then
            (t.tryCandidate cfg chunkSize overlap).map fun t' => (.read, some t')
          else none
      | _ => none
  | _ => none

/-- The end: counting, the final write, and unregistering. -/
def Sweep.stepEnd (cfg : ExperimentConfig) (s : Shared) (t : Sweep) :
    SweepAct → Option (Op × Option Sweep)
  | .go =>
      match t.pc with
      | .countRuns =>
          some (.read, some
            (if cfg.isBayesian || t.cancelled || t.paused then t.settle cfg s s.phases []
             else t.goto (.summaries s.phases)))
      | .summaries runs => some (.read, some (t.settle cfg s runs s.phases))
      | .finalWrite u => some (.updateExperiment u, some (t.goto .unregister))
      | .unregister => some (.unregisterSweepControl, none)
      | _ => none
  | .raise =>
      match t.pc with
      | .countRuns =>
          if t.readsRuns cfg then some (.read, some (t.goto .unregister)) else none
      | .summaries _ => some (.read, some (t.goto .unregister))
      | _ => none
  | _ => none

/-- One access of the sweep thread. -/
def Sweep.step (cfg : ExperimentConfig) (s : Shared) (t : Sweep) (act : SweepAct) :
    Option (Op × Option Sweep) :=
  match t.pc with
  | .completedSignatures => t.stepStart cfg s act
  | .register => t.stepStart cfg s act
  | .cancelledInDb => t.stepStart cfg s act
  | .startCheck => t.stepStart cfg s act
  | .preflight => t.stepStart cfg s act
  | .failPreflight _ => t.stepStart cfg s act
  | .submitNext _ => t.stepGrid cfg s act
  | .submitCheck _ _ => t.stepGrid cfg s act
  | .submitStarted _ _ => t.stepGrid cfg s act
  | .submitPut _ _ => t.stepGrid cfg s act
  | .wait => t.stepGrid cfg s act
  | .process _ => t.stepGrid cfg s act
  | .loopCheck => t.stepGrid cfg s act
  | .leave => t.stepGrid cfg s act
  | .ask => t.stepBayesian cfg s act
  | .trialCheck _ => t.stepBayesian cfg s act
  | .trialStarted _ => t.stepBayesian cfg s act
  | .trialPut _ => t.stepBayesian cfg s act
  | .trialRun => t.stepBayesian cfg s act
  | .trialScore => t.stepBayesian cfg s act
  | .trialAfter => t.stepBayesian cfg s act
  | .bestTrial => t.stepBayesian cfg s act
  | .countRuns => t.stepEnd cfg s act
  | .summaries _ => t.stepEnd cfg s act
  | .finalWrite _ => t.stepEnd cfg s act
  | .unregister => t.stepEnd cfg s act

end RagParamsFinder
