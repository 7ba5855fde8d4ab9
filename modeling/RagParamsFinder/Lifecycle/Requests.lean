/-
  The API requests on one experiment (`server/api/experiments.py`,
  `server/api/experiments_lifecycle.py`, `server/api/experiments_shared.py`), each as the
  accesses of the shared state its handler makes, with what it has read in between.

  `create` may wait between its insert and its `schedule_sweep` for as long as it likes, as
  an experiment does that waits for its embedding batches. `read` is a store or registry
  access; an exception ends the request. A GET reads a document and, for the detail view, its
  runs; the list view reads the runs only when the document is to be reconciled.

  Proved: `Request.go_cases`, the accesses of a request one by one, and from it what a
  request does to the status and to the control entry.
-/
import RagParamsFinder.Lifecycle.Sweep

namespace RagParamsFinder

/-- A request in progress: the access it makes next. -/
inductive Request where
  | createInsert
  | createRegister
  | createSubmit (serial : Nat)
  | cancelRead
  | cancelSignal
  | cancelMark
  | cancelOk
  | pauseRead
  | pauseSignal
  | pauseMark
  | resumeRead
  | resumeMark
  | resumeRegister
  | resumeSubmit (serial : Nat)
  | deleteRead
  | deleteChunks
  | deleteResults
  | deleteRunStatus
  | deleteExperiment
  | deleteOk
  | getDoc (detail : Bool)
  | getRuns (doc : ExperimentDoc)
  | getTest (doc : ExperimentDoc) (runs : List Phase)
  | getMoreRuns (doc : ExperimentDoc)
  | getWrite (status : ExperimentStatus) (failed : Nat) (reason : String)
  | done
  deriving DecidableEq, Repr

/-- What a client can send. -/
inductive Endpoint where
  | create
  | cancel
  | pause
  | resume
  | delete
  | getExperiment
  | listExperiments
  deriving DecidableEq, Repr

def Endpoint.request : Endpoint → Request
  | .create => .createInsert
  | .cancel => .cancelRead
  | .pause => .pauseRead
  | .resume => .resumeRead
  | .delete => .deleteRead
  | .getExperiment => .getDoc true
  | .listExperiments => .getDoc false

/-- The guard of `delete_experiment`: it refuses a missing or a running experiment. -/
def deletable (status : Option ExperimentStatus) : Bool :=
  match status with
  | none => false
  | some .running => false
  | some _ => true

/-- `_normalize_stale_running_status` once it has runs: write what they resolve to. -/
def resolveRuns (doc : ExperimentDoc) (runs : List Phase) : Request :=
  match normalizeStaleRunning runs doc.runCount with
  | none => .done
  | some (status, failed, reason) => .getWrite status failed reason

/-- `_normalize_stale_running_status` at its test of `is_sweep_in_flight`. -/
def testInFlight (control : Option SweepControl) (doc : ExperimentDoc) (runs : List Phase) :
    Request :=
  if doc.status ≠ .running then .done
  else if control.isSome then .done
  else if runs.isEmpty then .getMoreRuns doc
  else resolveRuns doc runs

/-- One access of a request that does not raise. -/
def Request.go (cfg : ExperimentConfig) (s : Shared) : Request → Option (Op × Request)
  | .createInsert =>
      if s.created then none else some (.insertExperiment (plannedRunCount cfg), .createRegister)
  | .createRegister => some (.registerSweepControl s.nextSerial, .createSubmit s.nextSerial)
  | .createSubmit serial => some (.submitSweep ⟨serial, .run⟩, .done)
  | .cancelRead =>
      some (.read, if s.status = some .running then .cancelSignal else .done)
  | .cancelSignal => some (.requestCancel, .cancelMark)
  | .cancelMark => some (.markExperimentCancelled, .cancelOk)
  | .pauseRead => some (.read, if s.status = some .running then .pauseSignal else .done)
  | .pauseSignal => some (.requestPause, if s.control.isSome then .done else .pauseMark)
  | .pauseMark => some (.markExperimentPaused, .done)
  | .resumeRead =>
      some (.read,
        if s.status = some .paused ∧ cfg.isBayesian = false then .resumeMark else .done)
  | .resumeMark => some (.markExperimentRunning, .resumeRegister)
  | .resumeRegister => some (.registerSweepControl s.nextSerial, .resumeSubmit s.nextSerial)
  | .resumeSubmit serial => some (.submitSweep ⟨serial, .resume⟩, .done)
  | .deleteRead => some (.read, if deletable s.status then .deleteChunks else .done)
  | .deleteChunks => some (.deleteChunks, .deleteResults)
  | .deleteResults => some (.deleteResults, .deleteRunStatus)
  | .deleteRunStatus => some (.deleteRunStatus, .deleteExperiment)
  | .deleteExperiment => some (.deleteExperiment, .deleteOk)
  | .getDoc detail =>
      some (.read,
        match s.doc with
        | none => .done
        | some doc => if detail then .getRuns doc else .getTest doc [])
  | .getRuns doc => some (.read, .getTest doc s.phases)
  | .getTest doc runs => some (.read, testInFlight s.control doc runs)
  | .getMoreRuns doc => some (.read, resolveRuns doc s.phases)
  | .getWrite status failed reason =>
      some (.updateExperiment
        { status := some status, failedCount := some failed, completionReason := some reason,
          completedAt := some s.now }, .done)
  | .cancelOk => none
  | .deleteOk => none
  | .done => none

/-- One access of a request; one that raises ends it. -/
def Request.step (cfg : ExperimentConfig) (s : Shared) (r : Request) (raises : Bool) :
    Option (Op × Request) :=
  if raises then (r.go cfg s).map fun _ => (.read, .done) else r.go cfg s

/-! ## What one access of a request can be -/

/-- An access of a request: the request, the operation, and the request after it. -/
inductive RequestStep (cfg : ExperimentConfig) (s : Shared) : Request → Op → Request → Prop
  | createInsert (hc : s.created = false) :
      RequestStep cfg s .createInsert (.insertExperiment (plannedRunCount cfg)) .createRegister
  | createRegister :
      RequestStep cfg s .createRegister (.registerSweepControl s.nextSerial)
        (.createSubmit s.nextSerial)
  | createSubmit (serial : Nat) :
      RequestStep cfg s (.createSubmit serial) (.submitSweep ⟨serial, .run⟩) .done
  | cancelRead (hs : s.status = some .running) :
      RequestStep cfg s .cancelRead .read .cancelSignal
  | cancelRefused (hs : s.status ≠ some .running) : RequestStep cfg s .cancelRead .read .done
  | cancelSignal : RequestStep cfg s .cancelSignal .requestCancel .cancelMark
  | cancelMark : RequestStep cfg s .cancelMark .markExperimentCancelled .cancelOk
  | pauseRead (hs : s.status = some .running) : RequestStep cfg s .pauseRead .read .pauseSignal
  | pauseRefused (hs : s.status ≠ some .running) : RequestStep cfg s .pauseRead .read .done
  | pauseSignalled (hc : s.control.isSome = true) :
      RequestStep cfg s .pauseSignal .requestPause .done
  | pauseUnsignalled (hc : s.control = none) :
      RequestStep cfg s .pauseSignal .requestPause .pauseMark
  | pauseMark : RequestStep cfg s .pauseMark .markExperimentPaused .done
  | resumeRead (hs : s.status = some .paused) (hb : cfg.isBayesian = false) :
      RequestStep cfg s .resumeRead .read .resumeMark
  | resumeRefused (hs : ¬ (s.status = some .paused ∧ cfg.isBayesian = false)) :
      RequestStep cfg s .resumeRead .read .done
  | resumeMark : RequestStep cfg s .resumeMark .markExperimentRunning .resumeRegister
  | resumeRegister :
      RequestStep cfg s .resumeRegister (.registerSweepControl s.nextSerial)
        (.resumeSubmit s.nextSerial)
  | resumeSubmit (serial : Nat) :
      RequestStep cfg s (.resumeSubmit serial) (.submitSweep ⟨serial, .resume⟩) .done
  | deleteRead (hd : deletable s.status = true) :
      RequestStep cfg s .deleteRead .read .deleteChunks
  | deleteRefused (hd : deletable s.status = false) : RequestStep cfg s .deleteRead .read .done
  | deleteChunks : RequestStep cfg s .deleteChunks .deleteChunks .deleteResults
  | deleteResults : RequestStep cfg s .deleteResults .deleteResults .deleteRunStatus
  | deleteRunStatus : RequestStep cfg s .deleteRunStatus .deleteRunStatus .deleteExperiment
  | deleteExperiment : RequestStep cfg s .deleteExperiment .deleteExperiment .deleteOk
  | getMissing (detail : Bool) (hd : s.doc = none) : RequestStep cfg s (.getDoc detail) .read .done
  | getDetail (doc : ExperimentDoc) (hd : s.doc = some doc) :
      RequestStep cfg s (.getDoc true) .read (.getRuns doc)
  | getListed (doc : ExperimentDoc) (hd : s.doc = some doc) :
      RequestStep cfg s (.getDoc false) .read (.getTest doc [])
  | getRuns (doc : ExperimentDoc) : RequestStep cfg s (.getRuns doc) .read (.getTest doc s.phases)
  -- nothing to reconcile, or the runs do not settle
  | getLeave (doc : ExperimentDoc) (runs : List Phase) :
      RequestStep cfg s (.getTest doc runs) .read .done
  | getMoreRuns (doc : ExperimentDoc) (hd : doc.status = .running) (hc : s.control = none) :
      RequestStep cfg s (.getTest doc []) .read (.getMoreRuns doc)
  | getResolve (doc : ExperimentDoc) (runs : List Phase) (status : ExperimentStatus)
      (failed : Nat) (reason : String) (hd : doc.status = .running) (hc : s.control = none)
      (hn : normalizeStaleRunning runs doc.runCount = some (status, failed, reason)) :
      RequestStep cfg s (.getTest doc runs) .read (.getWrite status failed reason)
  | getMoreLeave (doc : ExperimentDoc) : RequestStep cfg s (.getMoreRuns doc) .read .done
  | getMoreResolve (doc : ExperimentDoc) (status : ExperimentStatus) (failed : Nat)
      (reason : String)
      (hn : normalizeStaleRunning s.phases doc.runCount = some (status, failed, reason)) :
      RequestStep cfg s (.getMoreRuns doc) .read (.getWrite status failed reason)
  | getWrite (status : ExperimentStatus) (failed : Nat) (reason : String) :
      RequestStep cfg s (.getWrite status failed reason)
        (.updateExperiment
          { status := some status, failedCount := some failed, completionReason := some reason,
            completedAt := some s.now }) .done

variable {cfg : ExperimentConfig} {dep : Deployment} {s : Shared} {r r' : Request} {op : Op}

theorem testInFlight_cases (doc : ExperimentDoc) (runs : List Phase) :
    RequestStep cfg s (.getTest doc runs) .read (testInFlight s.control doc runs) := by
  unfold testInFlight
  split
  · exact .getLeave doc runs
  · rename_i hd
    split
    · exact .getLeave doc runs
    · rename_i hc
      have hd : doc.status = .running := by simpa using hd
      have hc : s.control = none := by simpa using hc
      split
      · rename_i hr
        rw [List.isEmpty_iff] at hr
        subst hr
        exact .getMoreRuns doc hd hc
      · unfold resolveRuns
        split
        · exact .getLeave doc runs
        · rename_i hn
          exact .getResolve doc runs _ _ _ hd hc hn

theorem Request.go_cases (h : r.go cfg s = some (op, r')) : RequestStep cfg s r op r' := by
  unfold Request.go at h
  cases r with
  | createInsert =>
      simp only at h
      split at h
      · cases h
      · rename_i hc; cases h; exact .createInsert (by simpa using hc)
  | cancelRead =>
      cases h
      split
      · exact .cancelRead ‹_›
      · exact .cancelRefused ‹_›
  | pauseRead =>
      cases h
      split
      · exact .pauseRead ‹_›
      · exact .pauseRefused ‹_›
  | pauseSignal =>
      cases h
      split
      · exact .pauseSignalled ‹_›
      · rename_i hc; exact .pauseUnsignalled (by simpa using hc)
  | resumeRead =>
      cases h
      split
      · rename_i hs; exact .resumeRead hs.1 hs.2
      · exact .resumeRefused ‹_›
  | deleteRead =>
      cases h
      split
      · exact .deleteRead ‹_›
      · rename_i hd; exact .deleteRefused (by simpa using hd)
  | getDoc detail =>
      cases h
      split
      · exact .getMissing detail ‹_›
      · cases detail
        · exact .getListed _ ‹_›
        · exact .getDetail _ ‹_›
  | getTest doc runs => cases h; exact testInFlight_cases doc runs
  | getMoreRuns doc =>
      cases h
      unfold resolveRuns
      split
      · exact .getMoreLeave doc
      · rename_i hn; exact .getMoreResolve doc _ _ _ hn
  | cancelOk => cases h
  | deleteOk => cases h
  | done => cases h
  | _ => cases h; constructor

/-- A request that raises leaves the shared state, and is over. -/
theorem Request.step_raises (h : r.step cfg s true = some (op, r')) : op = .read ∧ r' = .done := by
  simp only [Request.step, if_true, Option.map_eq_some_iff] at h
  obtain ⟨_, _, h⟩ := h
  cases h
  exact ⟨rfl, rfl⟩

theorem Request.step_go (h : r.step cfg s false = some (op, r')) : r.go cfg s = some (op, r') := by
  simpa [Request.step] using h

/-! ## What the requests do to the shared state -/

/-- The status a request's next access leaves. -/
def Request.statusAfter (r : Request) (old : Option ExperimentStatus) :
    Option ExperimentStatus :=
  match r with
  | .createInsert => some .running
  | .deleteExperiment => none
  | .cancelMark => old.map fun _ => .cancelled
  | .pauseMark => old.map fun _ => .paused
  | .resumeMark => old.map fun _ => .running
  | .getWrite status _ _ => old.map fun _ => status
  | _ => old

theorem RequestStep.status_run (h : RequestStep cfg s r op r') :
    (op.run dep s).status = r.statusAfter s.status := by
  obtain ⟨doc⟩ := s
  cases h <;> first | rfl | (cases doc <;> rfl)

/-- The control entry a request's next access leaves. -/
def Request.controlAfter (r : Request) (s : Shared) : Option SweepControl :=
  match r with
  | .createRegister => registerControl s.control s.nextSerial
  | .resumeRegister => registerControl s.control s.nextSerial
  | .cancelSignal => s.control.map fun c => { c with cancel := true }
  | .pauseSignal => s.control.map fun c => { c with pause := true }
  | _ => s.control

theorem RequestStep.control_run (h : RequestStep cfg s r op r') :
    (op.run dep s).control = r.controlAfter s := by
  cases h <;> rfl

end RagParamsFinder
