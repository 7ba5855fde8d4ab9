/-
  What one step of the sweep thread can be, said once: `SweepStep` has one constructor for
  each access the thread makes, with the place it is made from and what becomes of the
  thread. The later modules derive their invariants from it and do not unfold the thread.

  Proved: `Sweep.step_cases`, the inversion; `SweepStep.exit_cases`, the steps that bring the
  thread to a settling write or to the way out; `SweepStep.statusAfter_eq` and
  `SweepStep.controlAfter_eq`, who writes the status and the control entry;
  `SweepStep.move`, what becomes of the variables, and from it `SweepStep.task_eq`,
  `SweepStep.futures_sublist`, and `SweepStep.halted` and `SweepStep.signalled`: a thread that
  has stopped submits no more runs.
-/
import RagParamsFinder.Lifecycle.Sweep

namespace RagParamsFinder

/-- A step of the sweep thread `t`: the act, the access, and the thread after it. -/
inductive SweepStep (cfg : ExperimentConfig) (s : Shared) (t : Sweep) :
    SweepAct → Op → Option Sweep → Prop
  -- the start
  | completedSignatures (hpc : t.pc = .completedSignatures) :
      SweepStep cfg s t .go .read (some { t with skip := s.completedSignatures, pc := .register })
  | signaturesRaise (hpc : t.pc = .completedSignatures) : SweepStep cfg s t .raise .read none
  | register (hpc : t.pc = .register) :
      SweepStep cfg s t .go (.registerSweepControl t.task.serial)
        (some (t.goto (if cfg.isBayesian then .startCheck else .cancelledInDb)))
  | cancelledInDb (hpc : t.pc = .cancelledInDb) :
      SweepStep cfg s t .go .read
        (some (t.goto (if s.status = some .cancelled then .unregister else .startCheck)))
  | cancelledRaise (hpc : t.pc = .cancelledInDb) :
      SweepStep cfg s t .raise .read (some (t.goto .unregister))
  | startCheck (hpc : t.pc = .startCheck) :
      SweepStep cfg s t .go .read (some (t.startChecked s))
  | preflight (hpc : t.pc = .preflight) : SweepStep cfg s t .go .read (some (t.begin cfg))
  | preflightRaise (hpc : t.pc = .preflight) :
      SweepStep cfg s t .raise .read (some (t.goto .unregister))
  | mismatch (message : String) (hpc : t.pc = .preflight) :
      SweepStep cfg s t (.mismatch message) .read (some (t.goto (.failPreflight message)))
  | failPreflight (message : String) (hpc : t.pc = .failPreflight message) :
      SweepStep cfg s t .go
        (.updateExperiment (preflightFailure (plannedRunCount cfg) message s.now))
        (some (t.goto .unregister))
  -- the grid loop
  | submitNext (caller : Caller) (hpc : t.pc = .submitNext caller) :
      SweepStep cfg s t .go .read (some (t.submitNext caller))
  | submitCheck (caller : Caller) (p : RunParams) (hpc : t.pc = .submitCheck caller p) :
      SweepStep cfg s t .go .read
        (some (t.checked s
          (if t.firstRunSet then .submitPut caller p else .submitStarted caller p)
          (caller.resume false)))
  | submitStarted (caller : Caller) (p : RunParams) (hpc : t.pc = .submitStarted caller p) :
      SweepStep cfg s t .go (.updateExperiment { startedAt := some s.now })
        (some { t with firstRunSet := true, pc := .submitPut caller p })
  | submitRaise (caller : Caller) (p : RunParams) (hpc : t.pc = .submitStarted caller p) :
      SweepStep cfg s t .raise .read (some (t.goto .leave))
  | submitPut (caller : Caller) (p : RunParams) (hpc : t.pc = .submitPut caller p) :
      SweepStep cfg s t .go .newRunId
        (some
          { t with
            runIds := t.runIds ++ [s.nextRun]
            futures := t.futures ++ [⟨s.nextRun, p, .waiting⟩]
            pc := caller.resume true })
  | exhausted (hpc : t.pc = .wait) (hf : t.futures = []) :
      SweepStep cfg s t .go .read (some (t.goto .countRuns))
  | wait (hpc : t.pc = .wait) (hd : doneRuns t.futures ≠ []) :
      SweepStep cfg s t .go .read (some (t.goto (.process (doneRuns t.futures))))
  | process (runId : Nat) (done : List Nat) (t' : Sweep) (hpc : t.pc = .process done)
      (hp : t.processOne cfg done runId = some t') :
      SweepStep cfg s t (.process runId) .read (some t')
  | loopCheck (hpc : t.pc = .loopCheck) :
      SweepStep cfg s t .go .read (some (t.checked s (.submitNext .refill) .wait))
  | leave (hpc : t.pc = .leave) (hd : t.futures.all (·.isDone) = true) :
      SweepStep cfg s t .go .read (some (t.goto .unregister))
  -- the Bayesian loop
  | askEnd (hpc : t.pc = .ask) (he : t.exhausted cfg = true) :
      SweepStep cfg s t .go .read (some (t.goto .bestTrial))
  | askRaise (hpc : t.pc = .ask) : SweepStep cfg s t .raise .read (some (t.goto .bestTrial))
  | suggest (chunkSize overlap : Int) (t' : Sweep) (hpc : t.pc = .ask)
      (he : t.exhausted cfg = false)
      (hm : chunkSize ∈ cfg.chunking.params.chunkSizes ∧ overlap ∈ cfg.chunking.params.overlaps)
      (ht : t.tryCandidate cfg chunkSize overlap = some t') :
      SweepStep cfg s t (.suggest chunkSize overlap) .read (some t')
  | trialStop (p : RunParams) (hpc : t.pc = .trialCheck p) (hs : t.stop = true) :
      SweepStep cfg s t .go .read (some (t.goto .bestTrial))
  | trialCheck (p : RunParams) (hpc : t.pc = .trialCheck p) (hs : t.stop = false) :
      SweepStep cfg s t .go .read
        (some (t.checked s (if t.runIds.isEmpty then .trialStarted p else .trialPut p) .bestTrial))
  | trialStarted (p : RunParams) (hpc : t.pc = .trialStarted p) :
      SweepStep cfg s t .go (.updateExperiment { startedAt := some s.now })
        (some (t.goto (.trialPut p)))
  | trialLost (p : RunParams) (hpc : t.pc = .trialStarted p) :
      SweepStep cfg s t .raise .read (some t.trialLost)
  | trialPut (p : RunParams) (hpc : t.pc = .trialPut p) :
      SweepStep cfg s t .go .newRunId
        (some
          { t with
            runIds := t.runIds ++ [s.nextRun]
            futures := [⟨s.nextRun, p, .running .insertRow⟩]
            pc := .trialRun })
  | trialRun (f : RunFuture) (r : RunResult) (hpc : t.pc = .trialRun) (hf : t.futures = [f])
      (hr : f.result = some r) :
      SweepStep cfg s t .go .read (some (t.trialDone cfg r))
  | trialScore (hpc : t.pc = .trialScore) :
      SweepStep cfg s t .go .read (some (t.goto .trialAfter))
  | trialUnscored (hpc : t.pc = .trialScore) :
      SweepStep cfg s t .raise .read (some (t.trialUnscored cfg))
  | trialAfter (hpc : t.pc = .trialAfter) :
      SweepStep cfg s t .go .read (some (t.checked s .ask .bestTrial))
  | bestTrial (hpc : t.pc = .bestTrial) :
      SweepStep cfg s t .go .read (some (t.goto .countRuns))
  | bestTrialRaise (hpc : t.pc = .bestTrial) (hr : t.runIds.isEmpty = false) :
      SweepStep cfg s t .raise .read (some (t.goto .unregister))
  -- the end of both
  | countSettle (hpc : t.pc = .countRuns)
      (hc : (cfg.isBayesian || t.cancelled || t.paused) = true) :
      SweepStep cfg s t .go .read (some (t.settle cfg s s.phases []))
  | countRuns (hpc : t.pc = .countRuns)
      (hc : (cfg.isBayesian || t.cancelled || t.paused) = false) :
      SweepStep cfg s t .go .read (some (t.goto (.summaries s.phases)))
  | countRaise (hpc : t.pc = .countRuns) (hr : t.readsRuns cfg = true) :
      SweepStep cfg s t .raise .read (some (t.goto .unregister))
  | summaries (runs : List Phase) (hpc : t.pc = .summaries runs) :
      SweepStep cfg s t .go .read (some (t.settle cfg s runs s.phases))
  | summariesRaise (runs : List Phase) (hpc : t.pc = .summaries runs) :
      SweepStep cfg s t .raise .read (some (t.goto .unregister))
  | finalWrite (u : ExperimentUpdate) (hpc : t.pc = .finalWrite u) :
      SweepStep cfg s t .go (.updateExperiment u) (some (t.goto .unregister))
  | unregister (hpc : t.pc = .unregister) : SweepStep cfg s t .go .unregisterSweepControl none

variable {cfg : ExperimentConfig} {s : Shared} {t : Sweep} {act : SweepAct} {op : Op}
  {t' : Option Sweep}

/-! ## Inversion, one part of the thread at a time -/

theorem Sweep.stepStart_cases (h : t.stepStart cfg s act = some (op, t')) :
    SweepStep cfg s t act op t' := by
  unfold Sweep.stepStart at h
  split at h
  · split at h
    · rename_i hpc; cases h; exact .completedSignatures hpc
    · rename_i hpc; cases h; exact .register hpc
    · rename_i hpc; cases h; exact .cancelledInDb hpc
    · rename_i hpc; cases h; exact .startCheck hpc
    · rename_i hpc; cases h; exact .preflight hpc
    · rename_i hpc; cases h; exact .failPreflight _ hpc
    · cases h
  · split at h
    · rename_i hpc; cases h; exact .signaturesRaise hpc
    · rename_i hpc; cases h; exact .cancelledRaise hpc
    · rename_i hpc; cases h; exact .preflightRaise hpc
    · cases h
  · split at h
    · rename_i hpc; cases h; exact .mismatch _ hpc
    · cases h
  · cases h

theorem Sweep.stepGrid_cases (h : t.stepGrid cfg s act = some (op, t')) :
    SweepStep cfg s t act op t' := by
  unfold Sweep.stepGrid at h
  split at h
  · split at h
    · rename_i hpc; cases h; exact .submitNext _ hpc
    · rename_i hpc; cases h; exact .submitCheck _ _ hpc
    · rename_i hpc; cases h; exact .submitStarted _ _ hpc
    · rename_i hpc; cases h; exact .submitPut _ _ hpc
    · rename_i hpc
      split at h
      · rename_i hf; cases h; exact .exhausted hpc hf
      · split at h
        · cases h
        · rename_i hd; cases h; exact .wait hpc hd
    · rename_i hpc; cases h; exact .loopCheck hpc
    · rename_i hpc
      split at h
      · rename_i hd; cases h; exact .leave hpc hd
      · cases h
    · cases h
  · split at h
    · rename_i hpc; cases h; exact .submitRaise _ _ hpc
    · cases h
  · split at h
    · rename_i hpc
      obtain ⟨t'', hp, h⟩ := Option.map_eq_some_iff.mp h
      cases h
      exact .process _ _ t'' hpc hp
    · cases h
  · cases h

theorem Sweep.stepBayesian_cases (h : t.stepBayesian cfg s act = some (op, t')) :
    SweepStep cfg s t act op t' := by
  unfold Sweep.stepBayesian at h
  split at h
  · split at h
    · rename_i hpc
      split at h
      · rename_i he; cases h; exact .askEnd hpc he
      · cases h
    · rename_i hpc
      split at h
      · rename_i hs; cases h; exact .trialStop _ hpc hs
      · rename_i hs; cases h; exact .trialCheck _ hpc (by simpa using hs)
    · rename_i hpc; cases h; exact .trialStarted _ hpc
    · rename_i hpc; cases h; exact .trialPut _ hpc
    · rename_i hpc
      split at h
      · rename_i f hf
        obtain ⟨r, hr, h⟩ := Option.map_eq_some_iff.mp h
        cases h
        exact .trialRun f r hpc hf hr
      · cases h
    · rename_i hpc; cases h; exact .trialScore hpc
    · rename_i hpc; cases h; exact .trialAfter hpc
    · rename_i hpc; cases h; exact .bestTrial hpc
    · cases h
  · split at h
    · rename_i hpc; cases h; exact .askRaise hpc
    · rename_i hpc; cases h; exact .trialLost _ hpc
    · rename_i hpc; cases h; exact .trialUnscored hpc
    · rename_i hpc
      split at h
      · cases h
      · rename_i hr; cases h; exact .bestTrialRaise hpc (by simpa using hr)
    · cases h
  · split at h
    · rename_i hpc
      split at h
      · cases h
      · rename_i he
        split at h
        · rename_i hm
          obtain ⟨t'', ht, h⟩ := Option.map_eq_some_iff.mp h
          cases h
          exact .suggest _ _ t'' hpc (by simpa using he) hm ht
        · cases h
    · cases h
  · cases h

theorem Sweep.stepEnd_cases (h : t.stepEnd cfg s act = some (op, t')) :
    SweepStep cfg s t act op t' := by
  unfold Sweep.stepEnd at h
  split at h
  · split at h
    · rename_i hpc
      split at h
      · rename_i hc; cases h; exact .countSettle hpc hc
      · rename_i hc; cases h; exact .countRuns hpc (by simpa using hc)
    · rename_i hpc; cases h; exact .summaries _ hpc
    · rename_i hpc; cases h; exact .finalWrite _ hpc
    · rename_i hpc; cases h; exact .unregister hpc
    · cases h
  · split at h
    · rename_i hpc
      split at h
      · rename_i hr; cases h; exact .countRaise hpc hr
      · cases h
    · rename_i hpc; cases h; exact .summariesRaise _ hpc
    · cases h
  · cases h

/-- Every step of the thread is one of the listed ones. -/
theorem Sweep.step_cases (h : t.step cfg s act = some (op, t')) : SweepStep cfg s t act op t' := by
  unfold Sweep.step at h
  split at h
  all_goals
    first
    | exact Sweep.stepStart_cases h
    | exact Sweep.stepGrid_cases h
    | exact Sweep.stepBayesian_cases h
    | exact Sweep.stepEnd_cases h

/-! ## Where the local moves lead -/

/-- The places of the two settling writes and of the way out. -/
def Pc.exits : Pc → Bool
  | .failPreflight _ => true
  | .finalWrite _ => true
  | .unregister => true
  | _ => false

theorem Caller.resume_exits (caller : Caller) (b : Bool) : (caller.resume b).exits = false := by
  unfold Caller.resume
  split <;> rfl

theorem Sweep.checked_pc (s : Shared) (t : Sweep) (clear stopped : Pc) :
    (t.checked s clear stopped).pc = clear ∨ (t.checked s clear stopped).pc = stopped := by
  unfold Sweep.checked
  split
  · exact Or.inl rfl
  · exact Or.inr rfl
  · exact Or.inr rfl

theorem Sweep.checked_exits {s : Shared} {t : Sweep} {clear stopped : Pc}
    (hc : clear.exits = false) (hs : stopped.exits = false) :
    (t.checked s clear stopped).pc.exits = false := by
  rcases Sweep.checked_pc s t clear stopped with hpc | hpc
  · rw [hpc]; exact hc
  · rw [hpc]; exact hs

theorem Sweep.submitNext_exits (t : Sweep) (caller : Caller) :
    (t.submitNext caller).pc.exits = false := by
  unfold Sweep.submitNext
  split
  · exact caller.resume_exits false
  · split
    · exact caller.resume_exits false
    · rfl

theorem Sweep.trialDone_eq (cfg : ExperimentConfig) (t : Sweep) (r : RunResult) :
    ∃ pc, t.trialDone cfg r = { t.observe cfg r with futures := [], pc := pc } ∧
      (pc = .trialScore ∨ pc = .bestTrial) := by
  cases r with
  | ok => exact ⟨_, rfl, Or.inl rfl⟩
  | _ => exact ⟨_, rfl, Or.inr rfl⟩

theorem Sweep.processOne_eq {t' : Sweep} {done : List Nat} {runId : Nat}
    (h : t.processOne cfg done runId = some t') :
    ∃ f r pc, t.futures.find? (fun f => f.runId = runId) = some f ∧ f.result = some r ∧
      t' = { t.observe cfg r with
        futures := t.futures.filter fun g => g.runId ≠ runId, pc := pc } ∧
      ((∃ d, pc = .process d) ∨ pc = .wait ∧ (t.observe cfg r).stop = true ∨
        pc = .loopCheck ∧ (t.observe cfg r).stop = false) := by
  unfold Sweep.processOne at h
  split at h
  · split at h
    · cases h
    · rename_i f hf
      obtain ⟨r, hres, h⟩ := Option.map_eq_some_iff.mp h
      dsimp only at h
      split at h
      · exact ⟨f, r, _, hf, hres, h.symm, Or.inl ⟨_, rfl⟩⟩
      · split at h
        · rename_i hs
          exact ⟨f, r, _, hf, hres, h.symm, Or.inr (Or.inl ⟨rfl, hs⟩)⟩
        · rename_i hs
          exact ⟨f, r, _, hf, hres, h.symm, Or.inr (Or.inr ⟨rfl, by simpa using hs⟩)⟩
  · cases h

theorem Sweep.tryCandidate_eq {t' : Sweep} {chunkSize overlap : Int}
    (h : t.tryCandidate cfg chunkSize overlap = some t') :
    ∃ asks visited pc, t' = { t with asks := asks, visited := visited, pc := pc } ∧
      (pc = .ask ∨ ∃ p, pc = .trialCheck p) := by
  unfold Sweep.tryCandidate at h
  split at h
  · cases h
  · split at h
    · cases h; exact ⟨_, _, _, rfl, Or.inl rfl⟩
    · cases h; exact ⟨_, _, _, rfl, Or.inr ⟨_, rfl⟩⟩

theorem Sweep.processOne_exits {t' : Sweep} {done : List Nat} {runId : Nat}
    (h : t.processOne cfg done runId = some t') : t'.pc.exits = false := by
  obtain ⟨f, r, pc, -, -, rfl, hpc⟩ := Sweep.processOne_eq h
  rcases hpc with ⟨d, rfl⟩ | ⟨rfl, -⟩ | ⟨rfl, -⟩ <;> rfl

theorem Sweep.tryCandidate_exits {t' : Sweep} {chunkSize overlap : Int}
    (h : t.tryCandidate cfg chunkSize overlap = some t') : t'.pc.exits = false := by
  obtain ⟨asks, visited, pc, rfl, hpc⟩ := Sweep.tryCandidate_eq h
  rcases hpc with rfl | ⟨p, rfl⟩ <;> rfl

/-- The thread takes an exit that writes no status. -/
def Sweep.abandons (cfg : ExperimentConfig) (s : Shared) (t : Sweep) (act : SweepAct) : Bool :=
  match t.pc, act with
  | .completedSignatures, .raise => true
  | .cancelledInDb, .raise => true
  | .startCheck, .go => checkControl s.control ≠ .clear
  | .preflight, .raise => true
  | .preflight, .go => cfg.isBayesian && (expandSweep cfg).isEmpty
  | .leave, .go => true
  | .bestTrial, .raise => true
  | .countRuns, .raise => true
  | .summaries _, .raise => true
  | _, _ => false

/-- How the thread comes to an exit. -/
inductive ExitStep (cfg : ExperimentConfig) (s : Shared) (t : Sweep) (act : SweepAct) :
    Op → Sweep → Prop
  | abandon (t' : Sweep) (ha : t.abandons cfg s act = true) (hp : t'.pc = .unregister) :
      ExitStep cfg s t act .read t'
  | cancelled (t' : Sweep) (hs : s.status = some .cancelled) (hp : t'.pc = .unregister) :
      ExitStep cfg s t act .read t'
  | wrote (u : ExperimentUpdate) (t' : Sweep)
      (hw : t.pc = .finalWrite u ∨ ∃ m, t.pc = .failPreflight m) (hp : t'.pc = .unregister) :
      ExitStep cfg s t act (.updateExperiment u) t'
  | failing (m : String) : ExitStep cfg s t act .read (t.goto (.failPreflight m))
  | settle (runs summaries : List Phase) :
      ExitStep cfg s t act .read (t.settle cfg s runs summaries)

/-- Every step that brings the thread to an exit is one of these. -/
theorem SweepStep.exit_cases {t' : Sweep} (h : SweepStep cfg s t act op (some t'))
    (he : t'.pc.exits = true) : ExitStep cfg s t act op t' := by
  cases h with
  | cancelledInDb hpc =>
      by_cases hs : s.status = some .cancelled
      · exact .cancelled _ hs (by simp [Sweep.goto, hs])
      · simp [Sweep.goto, hs, Pc.exits] at he
  | startCheck hpc =>
      by_cases hc : checkControl s.control = .clear
      · simp [Sweep.startChecked, hc, Pc.exits] at he
      · exact .abandon _ (by simp [Sweep.abandons, hpc, hc]) (by simp [Sweep.startChecked, hc])
  | preflight hpc =>
      by_cases hb : (cfg.isBayesian && (expandSweep cfg).isEmpty) = true
      · refine .abandon _ (by simpa [Sweep.abandons, hpc] using hb) ?_
        rw [Bool.and_eq_true] at hb
        simp only [Sweep.begin, hb.1, hb.2, if_true, Sweep.goto]
      · rw [Bool.and_eq_true, not_and] at hb
        unfold Sweep.begin at he
        repeat' split at he
        · exact absurd ‹_› (hb ‹_›)
        · cases he
        · cases he
  | cancelledRaise hpc => exact .abandon _ (by simp [Sweep.abandons, hpc]) rfl
  | preflightRaise hpc => exact .abandon _ (by simp [Sweep.abandons, hpc]) rfl
  | leave hpc hd => exact .abandon _ (by simp [Sweep.abandons, hpc]) rfl
  | bestTrialRaise hpc hr => exact .abandon _ (by simp [Sweep.abandons, hpc]) rfl
  | countRaise hpc hr => exact .abandon _ (by simp [Sweep.abandons, hpc]) rfl
  | summariesRaise runs hpc => exact .abandon _ (by simp [Sweep.abandons, hpc]) rfl
  | mismatch m hpc => exact .failing m
  | failPreflight m hpc => exact .wrote _ _ (Or.inr ⟨m, hpc⟩) rfl
  | finalWrite u hpc => exact .wrote u _ (Or.inl hpc) rfl
  | countSettle hpc hc => exact .settle s.phases []
  | summaries runs hpc => exact .settle runs s.phases
  | register hpc =>
      simp only [Sweep.goto] at he
      split at he <;> cases he
  | submitNext caller hpc => rw [Sweep.submitNext_exits] at he; cases he
  | submitCheck caller p hpc =>
      rw [Sweep.checked_exits (by split <;> rfl) (caller.resume_exits false)] at he; cases he
  | submitPut caller p hpc => rw [caller.resume_exits true] at he; cases he
  | process runId done t' hpc hp => rw [Sweep.processOne_exits hp] at he; cases he
  | loopCheck hpc => rw [Sweep.checked_exits rfl rfl] at he; cases he
  | suggest size overlap t' hpc hx hm ht => rw [Sweep.tryCandidate_exits ht] at he; cases he
  | trialCheck p hpc hs => rw [Sweep.checked_exits (by split <;> rfl) rfl] at he; cases he
  | trialRun f r hpc hf hr =>
      obtain ⟨pc, heq, hcases⟩ := Sweep.trialDone_eq cfg t r
      rw [heq] at he
      rcases hcases with rfl | rfl <;> cases he
  | trialAfter hpc => rw [Sweep.checked_exits rfl rfl] at he; cases he
  | _ => cases he

/-! ## What the thread does to the shared state -/

/-- The status a step leaves: only the two settling writes change it. -/
def Sweep.statusAfter (t : Sweep) (old : ExperimentStatus) : ExperimentStatus :=
  match t.pc with
  | .finalWrite u => u.status.getD old
  | .failPreflight _ => .failed
  | _ => old

/-- The control entry a step leaves. -/
def Sweep.controlAfter (t : Sweep) (old : Option SweepControl) : Option SweepControl :=
  match t.pc with
  | .register => registerControl old t.task.serial
  | .unregister => none
  | _ => old

/-- The operations by which the thread accesses the shared state. -/
def Op.ofSweep : Op → Bool
  | .read => true
  | .newRunId => true
  | .registerSweepControl _ => true
  | .unregisterSweepControl => true
  | .updateExperiment _ => true
  | _ => false

theorem Op.queuedAfter_ofSweep {op : Op} (h : op.ofSweep = true) (old : List SweepTask) :
    op.queuedAfter old = old := by
  cases op <;> first | rfl | cases h

theorem SweepStep.ofSweep (h : SweepStep cfg s t act op t') : op.ofSweep = true := by
  cases h <;> rfl

theorem SweepStep.ne_insert (h : SweepStep cfg s t act op t') (n : Nat) :
    op ≠ .insertExperiment n := by
  rintro rfl
  cases h.ofSweep

theorem SweepStep.ne_delete (h : SweepStep cfg s t act op t') : op ≠ .deleteExperiment := by
  rintro rfl
  cases h.ofSweep

theorem SweepStep.statusAfter_eq (h : SweepStep cfg s t act op t') (old : ExperimentStatus) :
    op.statusAfter old = t.statusAfter old := by
  unfold Sweep.statusAfter
  cases h <;> simp [*, Op.statusAfter, preflightFailure]

theorem SweepStep.controlAfter_eq (h : SweepStep cfg s t act op t')
    (old : Option SweepControl) : op.controlAfter old = t.controlAfter old := by
  unfold Sweep.controlAfter
  cases h <;> simp [*, Op.controlAfter]

/-! ## What a step does to the variables of the thread -/

/-- Between a control check and the pool, or the call that runs a trial. -/
def Pc.puts : Pc → Bool
  | .submitStarted _ _ => true
  | .submitPut _ _ => true
  | .trialStarted _ => true
  | .trialPut _ => true
  | _ => false

/-- Past the loops: nothing there leads back. -/
def Pc.over : Pc → Bool
  | .failPreflight _ => true
  | .leave => true
  | .bestTrial => true
  | .countRuns => true
  | .summaries _ => true
  | .finalWrite _ => true
  | .unregister => true
  | _ => false

/-- At the control check of `_submit_next`, which comes after its look at the stop flag. -/
def Pc.submitting : Pc → Bool
  | .submitCheck _ _ => true
  | _ => false

/-- The thread is at a control check of its own. -/
def Sweep.checks (t : Sweep) : Bool :=
  match t.pc with
  | .startCheck => true
  | .submitCheck _ _ => true
  | .loopCheck => true
  | .trialCheck _ => !t.stop
  | .trialAfter => true
  | _ => false

/-- The task, the pool and the history stay, and so does what the thread has heard; the stop
    flag is not taken back. -/
structure Sweep.Keeps (t t' : Sweep) : Prop where
  task : t'.task = t.task
  futures : t'.futures = t.futures
  failureSeen : t'.failureSeen = t.failureSeen
  checkedSince : t'.checkedSince = t.checkedSince
  heard : t'.heard = t.heard
  cancelled : t'.cancelled = t.cancelled
  stop : t.stop = true → t'.stop = true

/-- A step of the thread, by what becomes of its variables: a move between two checks, a
    control check, a run put into the pool, or a result taken up. Only a check leads to the
    places from which a run is put. -/
inductive SweepMove (cfg : ExperimentConfig) (s : Shared) (t : Sweep) (act : SweepAct)
    (t' : Sweep) : Prop
  | go (hk : t.Keeps t') (hputs : t'.pc.puts = true → t.pc.puts = true)
      (hsub : t'.pc.submitting = true → t.stop = false ∧ t.pc.over = false)
      (hover : t.pc.over = true → t'.pc.over = true)
  | startCheck (hact : act = .go) (hpc : t.pc = .startCheck) (ht : t' = t.startChecked s)
  | check (clear stopped : Pc) (hact : act = .go) (hc : t.checks = true)
      (hover : t.pc.over = false)
      (hclear : clear.puts = true → t.pc.submitting = true ∨ t.stop = false)
      (hsub : clear.submitting = false)
      (hstopped : stopped.puts = false ∧ stopped.submitting = false)
      (ht : t' = t.checked s clear stopped)
  | put (futures : List RunFuture) (runIds : List Nat) (pc : Pc) (hp : t.pc.puts = true)
      (ht : t' = { t with futures := futures, runIds := runIds, pc := pc })
  | observe (r : RunResult) (futures : List RunFuture) (pc : Pc) (hover : t.pc.over = false)
      (hpc : pc.puts = false ∧ pc.submitting = false) (hsub : futures.Sublist t.futures)
      (hf : futures = [] ∨ ∃ runId f, act = .process runId ∧
        t.futures.find? (fun g => g.runId = runId) = some f ∧ f.result = some r)
      (ht : t' = { t.observe cfg r with futures := futures, pc := pc })

theorem Caller.resume_false (caller : Caller) : caller.resume false = .wait := by
  cases caller with
  | initial n => cases n <;> rfl
  | refill => rfl

/-- A move to a place that is not on the way into the pool. -/
theorem SweepMove.on {t' : Sweep} (hk : t.Keeps t') (hp : t'.pc.puts = false)
    (hq : t'.pc.submitting = false) (ho : t.pc.over = true → t'.pc.over = true) :
    SweepMove cfg s t act t' :=
  .go hk (by simp [hp]) (by simp [hq]) ho

theorem SweepStep.move {t' : Sweep} (h : SweepStep cfg s t act op (some t')) :
    SweepMove cfg s t act t' := by
  cases h with
  -- the checks
  | startCheck hpc => exact .startCheck rfl hpc rfl
  | submitCheck caller p hpc =>
      refine .check _ _ rfl (by simp [Sweep.checks, hpc]) (by rw [hpc]; rfl)
        (fun _ => Or.inl (by rw [hpc]; rfl)) (by split <;> rfl) ?_ rfl
      rw [caller.resume_false]
      exact ⟨rfl, rfl⟩
  | loopCheck hpc =>
      exact .check _ _ rfl (by simp [Sweep.checks, hpc]) (by rw [hpc]; rfl) (by simp [Pc.puts])
        rfl ⟨rfl, rfl⟩ rfl
  | trialCheck p hpc hs =>
      exact .check _ _ rfl (by simp [Sweep.checks, hpc, hs]) (by rw [hpc]; rfl)
        (fun _ => Or.inr hs) (by split <;> rfl) ⟨rfl, rfl⟩ rfl
  | trialAfter hpc =>
      exact .check _ _ rfl (by simp [Sweep.checks, hpc]) (by rw [hpc]; rfl) (by simp [Pc.puts])
        rfl ⟨rfl, rfl⟩ rfl
  -- into the pool
  | submitStarted caller p hpc =>
      exact .go ⟨rfl, rfl, rfl, rfl, rfl, rfl, id⟩ (fun _ => by rw [hpc]; rfl)
        (by simp [Pc.submitting]) (by simp [hpc, Pc.over])
  | trialStarted p hpc =>
      exact .go ⟨rfl, rfl, rfl, rfl, rfl, rfl, id⟩ (fun _ => by rw [hpc]; rfl)
        (by simp [Sweep.goto, Pc.submitting]) (by simp [hpc, Pc.over])
  | submitPut caller p hpc => exact .put _ _ _ (by rw [hpc]; rfl) rfl
  | trialPut p hpc => exact .put _ _ _ (by rw [hpc]; rfl) rfl
  -- a result
  | process runId done t' hpc hp =>
      obtain ⟨f, r, pc, hfind, hres, rfl, hcases⟩ := Sweep.processOne_eq hp
      refine .observe r _ pc (by rw [hpc]; rfl) ?_ List.filter_sublist
        (Or.inr ⟨runId, f, rfl, hfind, hres⟩) rfl
      rcases hcases with ⟨d, rfl⟩ | ⟨rfl, -⟩ | ⟨rfl, -⟩ <;> exact ⟨rfl, rfl⟩
  | trialRun f r hpc hf hr =>
      obtain ⟨pc, heq, hcases⟩ := Sweep.trialDone_eq cfg t r
      refine .observe r [] pc (by rw [hpc]; rfl) ?_ (List.nil_sublist _) (Or.inl rfl) heq
      rcases hcases with rfl | rfl <;> exact ⟨rfl, rfl⟩
  -- moves whose target depends on more than the place
  | register hpc =>
      refine .on ⟨rfl, rfl, rfl, rfl, rfl, rfl, id⟩ ?_ ?_ (by simp [hpc, Pc.over])
      · simp only [Sweep.goto]; split <;> rfl
      · simp only [Sweep.goto]; split <;> rfl
  | cancelledInDb hpc =>
      refine .on ⟨rfl, rfl, rfl, rfl, rfl, rfl, id⟩ ?_ ?_ (by simp [hpc, Pc.over])
      · simp only [Sweep.goto]; split <;> rfl
      · simp only [Sweep.goto]; split <;> rfl
  | preflight hpc =>
      have ho : t.pc.over = true → (t.begin cfg).pc.over = true := by simp [hpc, Pc.over]
      revert ho
      unfold Sweep.begin
      repeat' split
      all_goals exact fun ho => .on ⟨rfl, rfl, rfl, rfl, rfl, rfl, id⟩ rfl rfl ho
  | submitNext caller hpc =>
      have ho : t.pc.over = false := by rw [hpc]; rfl
      unfold Sweep.submitNext
      rw [caller.resume_false]
      split
      · exact .on ⟨rfl, rfl, rfl, rfl, rfl, rfl, id⟩ rfl rfl (by simp [ho])
      · rename_i hs
        split
        · exact .on ⟨rfl, rfl, rfl, rfl, rfl, rfl, id⟩ rfl rfl (by simp [ho])
        · exact .go ⟨rfl, rfl, rfl, rfl, rfl, rfl, id⟩ (by simp [Pc.puts])
            (fun _ => ⟨by simpa using hs, ho⟩) (by simp [ho])
  | suggest size overlap t' hpc he hm ht =>
      obtain ⟨asks, visited, pc, rfl, hcases⟩ := Sweep.tryCandidate_eq ht
      rcases hcases with rfl | ⟨p, rfl⟩
      · exact .on ⟨rfl, rfl, rfl, rfl, rfl, rfl, id⟩ rfl rfl (by simp [hpc, Pc.over])
      · exact .on ⟨rfl, rfl, rfl, rfl, rfl, rfl, id⟩ rfl rfl (by simp [hpc, Pc.over])
  | trialUnscored hpc =>
      refine .on ⟨rfl, rfl, rfl, rfl, rfl, rfl, fun hs => ?_⟩ rfl rfl (fun _ => rfl)
      simp [Sweep.trialUnscored, hs]
  | _ =>
      exact .on ⟨rfl, rfl, rfl, rfl, rfl, rfl, id⟩ rfl rfl
        (by simp [Sweep.goto, Sweep.settle, Pc.over, *])

theorem Sweep.checked_keeps (s : Shared) (t : Sweep) (clear stopped : Pc) :
    (t.checked s clear stopped).task = t.task ∧
      (t.checked s clear stopped).futures = t.futures ∧
      (t.checked s clear stopped).failureSeen = t.failureSeen ∧
      (t.checked s clear stopped).checkedSince = (t.checkedSince || s.acked) ∧
      (t.stop = true → (t.checked s clear stopped).stop = true) := by
  unfold Sweep.checked
  split
  · exact ⟨rfl, rfl, rfl, rfl, id⟩
  · exact ⟨rfl, rfl, rfl, rfl, fun _ => rfl⟩
  · exact ⟨rfl, rfl, rfl, rfl, fun _ => rfl⟩

/-- A signal at a control check sets the stop flag. -/
theorem Sweep.checked_signal {s : Shared} {t : Sweep} {clear stopped : Pc}
    (h : checkControl s.control ≠ .clear) :
    (t.checked s clear stopped).stop = true ∧ (t.checked s clear stopped).pc = stopped := by
  unfold Sweep.checked
  split
  · rename_i hc; exact absurd hc h
  · exact ⟨rfl, rfl⟩
  · exact ⟨rfl, rfl⟩

theorem Sweep.startChecked_pc (s : Shared) (t : Sweep) :
    (t.startChecked s).pc = .preflight ∨ (t.startChecked s).pc = .unregister := by
  unfold Sweep.startChecked
  split
  · exact Or.inl rfl
  · exact Or.inr rfl

/-- What a result changes besides the pool: flags are set, never taken back. -/
theorem Sweep.observe_keeps (cfg : ExperimentConfig) (t : Sweep) (r : RunResult) :
    (t.observe cfg r).task = t.task ∧ (t.observe cfg r).checkedSince = t.checkedSince ∧
      (t.stop = true → (t.observe cfg r).stop = true) := by
  cases r with
  | error => exact ⟨rfl, rfl, fun hs => by simp [Sweep.observe, hs]⟩
  | ok => exact ⟨rfl, rfl, id⟩
  | _ => exact ⟨rfl, rfl, fun _ => rfl⟩

/-- The thread works on one task. -/
theorem SweepStep.task_eq {t' : Sweep} (h : SweepStep cfg s t act op (some t')) :
    t'.task = t.task := by
  cases h.move with
  | go hk => exact hk.task
  | startCheck _ _ ht => rw [ht]; rfl
  | check clear stopped _ _ _ _ _ _ ht => rw [ht]; exact (Sweep.checked_keeps ..).1
  | put futures runIds pc _ ht => rw [ht]
  | observe r futures pc _ _ _ _ ht => rw [ht]; exact (Sweep.observe_keeps cfg t r).1

/-- A thread with no run on its way into the pool puts none there. -/
theorem SweepStep.futures_sublist {t' : Sweep} (h : SweepStep cfg s t act op (some t'))
    (hp : t.pc.puts = false) : t'.futures.Sublist t.futures := by
  cases h.move with
  | go hk => rw [hk.futures]
  | startCheck _ _ ht => rw [ht]; exact List.Sublist.refl _
  | check clear stopped _ _ _ _ _ _ ht => rw [ht, (Sweep.checked_keeps ..).2.1]
  | put futures runIds pc hputs _ => rw [hp] at hputs; cases hputs
  | observe r futures pc _ _ hsub _ ht => rw [ht]; exact hsub

/-! ## A halted thread submits no more runs -/

/-- `stop_after_failure` is set, or the loops are over, and no run is on its way into the
    pool. -/
def Sweep.Halted (t : Sweep) : Prop :=
  (t.stop = true ∨ t.pc.over = true) ∧ t.pc.puts = false ∧ t.pc.submitting = false

/-- A halted thread stays halted. -/
theorem SweepStep.halted {t' : Sweep} (h : SweepStep cfg s t act op (some t'))
    (hh : t.Halted) : t'.Halted := by
  obtain ⟨hstop, hputs, hsub⟩ := hh
  cases h.move with
  | go hk hputs' hsub' hover =>
      refine ⟨hstop.imp hk.stop hover, ?_, ?_⟩
      · by_contra hp
        rw [hputs' (by simpa using hp)] at hputs
        cases hputs
      · by_contra hq
        obtain ⟨hs, ho⟩ := hsub' (by simpa using hq)
        rw [hs, ho] at hstop
        rcases hstop with hstop | hstop <;> cases hstop
  | startCheck _ hpc ht =>
      have hs : t.stop = true := hstop.resolve_right (by rw [hpc]; simp [Pc.over])
      subst ht
      refine ⟨Or.inl hs, ?_, ?_⟩
      all_goals rcases Sweep.startChecked_pc s t with hp | hp <;> rw [hp] <;> rfl
  | check clear stopped _ _ hover hclear hcsub hstopped ht =>
      have hs : t.stop = true := hstop.resolve_right (by simp [hover])
      have hcp : clear.puts = false := by
        by_contra hp
        rcases hclear (by simpa using hp) with hq | hq
        · rw [hsub] at hq; cases hq
        · rw [hs] at hq; cases hq
      subst ht
      refine ⟨Or.inl ((Sweep.checked_keeps ..).2.2.2.2 hs), ?_, ?_⟩
      · rcases Sweep.checked_pc s t clear stopped with hp | hp
        · rw [hp]; exact hcp
        · rw [hp]; exact hstopped.1
      · rcases Sweep.checked_pc s t clear stopped with hp | hp
        · rw [hp]; exact hcsub
        · rw [hp]; exact hstopped.2
  | put futures runIds pc hp _ => rw [hp] at hputs; cases hputs
  | observe r futures pc hover hpc _ _ ht =>
      have hs : t.stop = true := hstop.resolve_right (by simp [hover])
      subst ht
      exact ⟨Or.inl ((Sweep.observe_keeps cfg t r).2.2 hs), hpc⟩

/-- A halted thread with no run waiting for a worker stays so. -/
theorem SweepStep.halted_still {t' : Sweep} (h : SweepStep cfg s t act op (some t'))
    (hh : t.Halted ∧ ∀ f ∈ t.futures, f.isWaiting = false) :
    t'.Halted ∧ ∀ f ∈ t'.futures, f.isWaiting = false := by
  have hsub := h.futures_sublist hh.1.2.1
  exact ⟨h.halted hh.1, fun f hf => hh.2 f (hsub.subset hf)⟩

/-- A thread that is signalled, and has no run on its way into the pool, sends none there. -/
theorem SweepStep.signalled {t' : Sweep} (h : SweepStep cfg s t act op (some t'))
    (hsig : checkControl s.control ≠ .clear) (hp : t.pc.puts = false) : t'.pc.puts = false := by
  cases h.move with
  | go _ hputs =>
      by_contra hp'
      rw [hputs (by simpa using hp')] at hp
      cases hp
  | startCheck _ _ ht =>
      subst ht
      rcases Sweep.startChecked_pc s t with hpc | hpc <;> rw [hpc] <;> rfl
  | check clear stopped _ _ _ _ _ hstopped ht =>
      rw [ht, (Sweep.checked_signal hsig).2]
      exact hstopped.1
  | put futures runIds pc hputs _ => rw [hp] at hputs; cases hputs
  | observe r futures pc _ hpc _ _ ht =>
      rw [ht]
      exact hpc.1

end RagParamsFinder
