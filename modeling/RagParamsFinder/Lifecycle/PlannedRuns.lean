/-
  A grid sweep that nothing disturbs submits the runs that were planned, and every count of
  the plan is the real one as long as the Redis preflight forgets no dimension.

  `calm` labels: no access raises, no run fails, and the requests are a creation and reads.
  In a run of calm labels `Sweep.Accounted` holds of the thread throughout: the runs put into
  the pool, the one on its way there and those left in `run_iter` are all runs.

  Proved: `submitsPlanned_of_run`, and from it `counts_real_iff`.
-/
import RagParamsFinder.Lifecycle.Server
import RagParamsFinder.Lifecycle.SweepPlan

namespace RagParamsFinder

open StepMachine

/-! ## Undisturbed runs of the server -/

def Endpoint.calm : Endpoint → Bool
  | .create => true
  | .getExperiment => true
  | .listExperiments => true
  | _ => false

/-- Nothing raises, no run fails, and no request cancels, pauses, resumes or deletes. -/
def Label.calm : Label → Bool
  | .arrive e => e.calm
  | .request _ raises => !raises
  | .sweep .raise => false
  | .sweep (.mismatch _) => false
  | .worker _ (.run (.raise _ _)) => false
  | _ => true

/-- The thread has left the grid loop and has not unregistered. -/
def Pc.settling : Pc → Bool
  | .countRuns => true
  | .summaries _ => true
  | .finalWrite _ => true
  | _ => false

/-- A grid sweep that has left its loop has submitted as many runs as were planned. -/
def SubmitsPlanned (cfg : ExperimentConfig) (_ : Cell) (_ : Label) (d : Cell) : Prop :=
  ∀ t, d.sweep = some t → t.pc.settling = true →
    t.runIds.length = (sweepPlan cfg).plannedRuns

/-! ## The thread -/

def RunPc.calm : RunPc → Bool
  | .insertRow => true
  | .ops _ => true
  | _ => false

/-- The run waits, goes on, or has ended well. -/
def RunFuture.calm (f : RunFuture) : Bool :=
  match f.worker with
  | .waiting => true
  | .running pc => pc.calm
  | .done r => r = .ok

structure Sweep.Calm (t : Sweep) : Prop where
  kind : t.task.kind = .run
  skip : t.skip = []
  stop : t.stop = false
  futures : ∀ f ∈ t.futures, f.calm = true

/-- Where the runs of a grid sweep are: in the pool, on the way there, or in `run_iter`. -/
def Sweep.Accounted (cfg : ExperimentConfig) (t : Sweep) : Prop :=
  let total := (expandSweep cfg).length
  match t.pc with
  | .register => t.runIds = []
  | .cancelledInDb => t.runIds = []
  | .startCheck => t.runIds = []
  | .preflight => t.runIds = []
  | .submitNext _ => t.runIds.length + t.runIter.length = total
  | .submitCheck _ _ => t.runIds.length + 1 + t.runIter.length = total
  | .submitStarted _ _ => t.runIds.length + 1 + t.runIter.length = total
  | .submitPut _ _ => t.runIds.length + 1 + t.runIter.length = total
  | .wait => t.runIds.length + t.runIter.length = total ∧ (t.futures = [] → t.runIter = [])
  | .process _ => t.runIds.length + t.runIter.length = total
  | .loopCheck => t.runIds.length + t.runIter.length = total
  | .countRuns => t.runIds.length = total
  | .summaries _ => t.runIds.length = total
  | .finalWrite _ => t.runIds.length = total
  | .unregister => True
  | _ => False

section Thread

variable {cfg : ExperimentConfig} {s : Shared} {t t' : Sweep} {act : SweepAct} {op : Op}

theorem Sweep.checked_clear (t : Sweep) (clear stopped : Pc)
    (h : checkControl s.control = .clear) :
    t.checked s clear stopped = { t.noteCheck s with pc := clear } := by
  rw [Sweep.checked, h]

theorem runnableRuns_nil (cfg : ExperimentConfig) : runnableRuns cfg [] = expandSweep cfg := by
  simp [runnableRuns]

/-- The thread after `_submit_next` has submitted a run. -/
theorem accounted_put {caller : Caller} {futures : List RunFuture} {runIds : List Nat}
    (hf : futures ≠ [])
    (hall : runIds.length + t.runIter.length = (expandSweep cfg).length) :
    Sweep.Accounted cfg
      { t with futures := futures, runIds := runIds, pc := caller.resume true } := by
  cases caller with
  | refill => exact hall
  | initial n =>
      cases n with
      | zero => exact ⟨hall, fun hnil => absurd hnil hf⟩
      | succ n => exact hall

theorem accounted_submitNext {caller : Caller} (hs : t.stop = false)
    (hall : t.runIds.length + t.runIter.length = (expandSweep cfg).length) :
    (t.submitNext caller).Accounted cfg := by
  unfold Sweep.submitNext
  rw [hs, if_neg Bool.false_ne_true]
  cases hiter : t.runIter with
  | nil =>
      rw [caller.resume_false]
      exact ⟨hall, fun _ => hiter⟩
  | cons p rest =>
      rw [hiter, List.length_cons] at hall
      change t.runIds.length + 1 + rest.length = _
      omega

/-- What the workers do to the pool does not matter, as long as it does not empty it. -/
theorem Sweep.Accounted.futures {futures : List RunFuture} (ha : t.Accounted cfg)
    (h : futures = [] → t.futures = []) : Sweep.Accounted cfg { t with futures := futures } := by
  unfold Sweep.Accounted at ha ⊢
  dsimp only at ha ⊢
  cases hpc : t.pc with
  | wait =>
      rw [hpc] at ha
      exact ⟨ha.1, fun hnil => ha.2 (h hnil)⟩
  | _ => rw [hpc] at ha; exact ha

/-- A run that has ended well is taken up: the flags stay, and the thread goes on. -/
theorem calm_processOne {done : List Nat} {runId : Nat} (hc : t.Calm)
    (hall : t.runIds.length + t.runIter.length = (expandSweep cfg).length)
    (h : t.processOne cfg done runId = some t') : t'.Calm ∧ t'.Accounted cfg := by
  obtain ⟨f, r, pc, hfind, hres, rfl, hpc⟩ := Sweep.processOne_eq h
  have hok : r = .ok := by
    have hf := hc.futures f (List.mem_of_find?_eq_some hfind)
    unfold RunFuture.result at hres
    unfold RunFuture.calm at hf
    split at hres
    · rename_i hw
      obtain rfl := Option.some.inj hres
      rw [hw] at hf
      exact of_decide_eq_true hf
    · cases hres
  subst hok
  refine ⟨⟨hc.kind, hc.skip, hc.stop, fun g hg => hc.futures g (List.mem_of_mem_filter hg)⟩, ?_⟩
  rcases hpc with ⟨d, rfl⟩ | ⟨rfl, hstop⟩ | ⟨rfl, -⟩
  · exact hall
  · exact absurd (hstop.symm.trans hc.stop) (by decide)
  · exact hall

/-- One step of the thread of a grid sweep. -/
theorem SweepStep.calm_accounted (h : SweepStep cfg s t act op (some t'))
    (hact : Label.calm (.sweep act) = true) (hgrid : cfg.isBayesian = false)
    (hclear : checkControl s.control = .clear) (hc : t.Calm) (ha : t.Accounted cfg) :
    t'.Calm ∧ t'.Accounted cfg := by
  unfold Sweep.Accounted at ha
  have hkeep : ∀ pc, (t.goto pc).Calm := fun _ => ⟨hc.kind, hc.skip, hc.stop, hc.futures⟩
  cases h with
  | register hpc =>
      rw [hgrid]
      simp only [hpc] at ha
      exact ⟨hkeep _, ha⟩
  | cancelledInDb hpc =>
      simp only [hpc] at ha
      refine ⟨hkeep _, ?_⟩
      split
      · trivial
      · exact ha
  | startCheck hpc =>
      simp only [hpc] at ha
      have hpc' : (t.startChecked s).pc = .preflight := by simp [Sweep.startChecked, hclear]
      refine ⟨⟨hc.kind, hc.skip, hc.stop, hc.futures⟩, ?_⟩
      simp only [Sweep.Accounted, hpc']
      exact ha
  | preflight hpc =>
      simp only [hpc] at ha
      unfold Sweep.begin
      rw [hgrid, if_neg Bool.false_ne_true, hc.skip, runnableRuns_nil]
      refine ⟨⟨hc.kind, rfl, hc.stop, hc.futures⟩, ?_⟩
      change t.runIds.length + _ = _
      rw [ha, List.length_nil, Nat.zero_add]
  | submitNext caller hpc =>
      simp only [hpc] at ha
      refine ⟨?_, accounted_submitNext hc.stop ha⟩
      unfold Sweep.submitNext
      rw [hc.stop, if_neg Bool.false_ne_true]
      split
      · exact hkeep _
      · exact ⟨hc.kind, hc.skip, rfl, hc.futures⟩
  | submitCheck caller p hpc =>
      simp only [hpc] at ha
      rw [t.checked_clear _ _ hclear]
      refine ⟨⟨hc.kind, hc.skip, hc.stop, hc.futures⟩, ?_⟩
      cases t.firstRunSet with
      | true => exact ha
      | false => exact ha
  | submitStarted caller p hpc =>
      simp only [hpc] at ha
      exact ⟨⟨hc.kind, hc.skip, hc.stop, hc.futures⟩, ha⟩
  | submitPut caller p hpc =>
      simp only [hpc] at ha
      refine ⟨⟨hc.kind, hc.skip, hc.stop, ?_⟩, accounted_put (by simp) ?_⟩
      · intro f hf
        rcases List.mem_append.mp hf with hf | hf
        · exact hc.futures f hf
        · rw [List.mem_singleton.mp hf]
          rfl
      · rw [List.length_append, List.length_singleton]
        exact ha
  | exhausted hpc hf =>
      simp only [hpc] at ha
      have hnil := ha.2 hf
      rw [hnil, List.length_nil, Nat.add_zero] at ha
      exact ⟨hkeep _, ha.1⟩
  | wait hpc hd =>
      simp only [hpc] at ha
      exact ⟨hkeep _, ha.1⟩
  | process runId done t' hpc hp =>
      simp only [hpc] at ha
      exact calm_processOne hc ha hp
  | loopCheck hpc =>
      simp only [hpc] at ha
      rw [t.checked_clear _ _ hclear]
      exact ⟨⟨hc.kind, hc.skip, hc.stop, hc.futures⟩, ha⟩
  | countRuns hpc hn =>
      simp only [hpc] at ha
      exact ⟨hkeep _, ha⟩
  | countSettle hpc hn =>
      simp only [hpc] at ha
      exact ⟨hkeep _, ha⟩
  | summaries runs hpc =>
      simp only [hpc] at ha
      exact ⟨hkeep _, ha⟩
  | finalWrite u hpc => exact ⟨hkeep _, trivial⟩
  | _ => first | exact absurd hact Bool.false_ne_true | simp only [*] at ha

/-- A run that goes on without an exception stays one that has not failed. -/
theorem runStep_calm {queries : List String} {f : RunFuture} {pc : RunPc} {i : Nat}
    {ract : RunAct} {w : WorkerState} (h : runStep queries s f pc ract = some (op, w))
    (hact : Label.calm (.worker i (.run ract)) = true) (hpc : pc.calm = true)
    (hclear : checkControl s.control = .clear) : RunFuture.calm { f with worker := w } = true := by
  cases ract with
  | raise sie message => cases hact
  | go =>
      cases pc with
      | insertRow => cases h; rfl
      | ops rest =>
          cases rest with
          | nil => cases h; rfl
          | cons o rest =>
              cases o <;> (simp only [runStep, runOpStep, hclear, checkedPc] at h; cases h; rfl)
      | interrupted paused => cases hpc
      | failing sie message => cases hpc
  | next =>
      cases pc with
      | insertRow => cases h
      | ops rest =>
          cases rest with
          | nil => cases h
          | cons o rest =>
              cases o <;> simp only [runStep, runOpStep] at h <;> cases h <;> rfl
      | interrupted paused => cases hpc
      | failing sie message => cases hpc

theorem workerStep_calm {queries : List String} {futures : List RunFuture} {i : Nat}
    {f : RunFuture} {wact : WorkerAct} {w : WorkerState}
    (h : workerStep cfg queries s futures i f wact = some (op, w))
    (hact : Label.calm (.worker i wact) = true) (hf : f.calm = true)
    (hclear : checkControl s.control = .clear) : RunFuture.calm { f with worker := w } = true := by
  cases wact with
  | begin =>
      simp only [workerStep] at h
      split at h
      · cases h; rfl
      · cases h
  | run ract =>
      simp only [workerStep] at h
      split at h
      · rename_i pc hw
        refine runStep_calm h hact ?_ hclear
        simpa [RunFuture.calm, hw] using hf
      · cases h

end Thread

/-! ## The cell -/

/-- A request that signals nothing and resumes nothing. -/
def Request.calm : Request → Bool
  | .createInsert => true
  | .createRegister => true
  | .createSubmit _ => true
  | .getDoc _ => true
  | .getRuns _ => true
  | .getTest _ _ => true
  | .getMoreRuns _ => true
  | .getWrite _ _ _ => true
  | .done => true
  | _ => false

structure CalmInv (cfg : ExperimentConfig) (c : Cell) : Prop where
  requests : ∀ r ∈ c.requests, r.calm = true
  control : checkControl c.shared.control = .clear
  queued : ∀ task ∈ c.shared.queued, task.kind = .run
  thread : ∀ t, c.sweep = some t → t.Calm ∧ t.Accounted cfg

theorem calmInv_initial (cfg : ExperimentConfig) : CalmInv cfg .initial where
  requests := by rintro r ⟨⟩
  control := rfl
  queued := by rintro task ⟨⟩
  thread := by rintro t ⟨⟩

theorem checkControl_register {control : Option SweepControl} (serial : Nat)
    (h : checkControl control = .clear) :
    checkControl (registerControl control serial) = .clear := by
  cases control with
  | none => rfl
  | some c => exact h

section Cell

variable {dep : Deployment} {queries : List String} {cfg : ExperimentConfig} {c d : Cell}
  {l : Label}

theorem RequestStep.calm {s : Shared} {r r' : Request} {op : Op} (h : RequestStep cfg s r op r')
    (hr : r.calm = true) : r'.calm = true := by
  cases h <;> first | rfl | cases hr

theorem RequestStep.control_calm {s : Shared} {r r' : Request} {op : Op}
    (h : RequestStep cfg s r op r') (hr : r.calm = true)
    (hclear : checkControl s.control = .clear) :
    checkControl (op.run dep s).control = .clear := by
  rw [h.control_run]
  cases r with
  | createRegister => exact checkControl_register _ hclear
  | cancelSignal => cases hr
  | pauseSignal => cases hr
  | resumeRegister => cases hr
  | _ => exact hclear

theorem RequestStep.queued_calm {s : Shared} {r r' : Request} {op : Op}
    (h : RequestStep cfg s r op r') (hr : r.calm = true)
    (hq : ∀ task ∈ s.queued, task.kind = .run) :
    ∀ task ∈ (op.run dep s).queued, task.kind = .run := by
  rw [queued_run]
  cases h with
  | createSubmit serial =>
      intro task htask
      rcases List.mem_append.mp htask with htask | htask
      · exact hq task htask
      · rw [List.mem_singleton.mp htask]
  | resumeSubmit serial => cases hr
  | _ => exact hq

theorem SweepStep.control_calm {s : Shared} {t : Sweep} {t' : Option Sweep} {act : SweepAct}
    {op : Op} (h : SweepStep cfg s t act op t') (hclear : checkControl s.control = .clear) :
    checkControl (op.run dep s).control = .clear := by
  rw [RagParamsFinder.control_run, h.controlAfter_eq]
  unfold Sweep.controlAfter
  split
  · exact checkControl_register _ hclear
  · rfl
  · exact hclear

theorem calm_start (cfg : ExperimentConfig) {task : SweepTask} (h : task.kind = .run) :
    (Sweep.start task).Calm ∧ (Sweep.start task).Accounted cfg := by
  refine ⟨⟨h, rfl, rfl, fun f hf => absurd hf List.not_mem_nil⟩, ?_⟩
  simp only [Sweep.Accounted, Sweep.start, h]

theorem calm_step (hinv : CalmInv cfg c) (h : CellStep dep queries cfg c l d)
    (hgrid : cfg.isBayesian = false) (hl : l.calm = true) : CalmInv cfg d := by
  cases h with
  | arrive e =>
      refine ⟨fun r hr => ?_, hinv.control, hinv.queued, hinv.thread⟩
      rcases List.mem_append.mp hr with hr | hr
      · exact hinv.requests r hr
      · rw [List.mem_singleton.mp hr]
        cases e <;> first | rfl | cases hl
  | request i r r' op hi hs =>
      have hr := hinv.requests r (List.mem_of_getElem? hi)
      refine ⟨fun x hx => ?_, hs.control_calm hr hinv.control, hs.queued_calm hr hinv.queued,
        hinv.thread⟩
      rcases mem_requests_set hx with rfl | hx
      · exact hs.calm hr
      · exact hinv.requests x hx
  | raised i r hi => cases hl
  | start task rest hs hq =>
      have hkind := hinv.queued task (by rw [hq]; exact List.mem_cons_self ..)
      refine ⟨hinv.requests, hinv.control, fun x hx => hinv.queued x (List.mem_of_mem_tail hx), ?_⟩
      rintro t ⟨⟩
      exact calm_start cfg hkind
  | sweep act t t' op ht hs =>
      obtain ⟨hc, ha⟩ := hinv.thread t ht
      refine ⟨hinv.requests, hs.control_calm hinv.control, ?_, ?_⟩
      · rw [queued_run, Op.queuedAfter_ofSweep hs.ofSweep]
        exact hinv.queued
      · rintro t₁ rfl
        exact hs.calm_accounted hl hgrid hinv.control hc ha
  | worker i act t f op w ht hf hs hacc =>
      obtain ⟨hc, ha⟩ := hinv.thread t ht
      have hop := (workerStep_op hs).1
      refine ⟨hinv.requests, ?_, ?_, ?_⟩
      · rw [control_run, Op.controlAfter_ofRun hop]
        exact hinv.control
      · rw [queued_run, Op.queuedAfter_ofRun hop]
        exact hinv.queued
      · rintro t₁ ⟨⟩
        refine ⟨⟨hc.kind, hc.skip, hc.stop, fun g hg => ?_⟩, ?_⟩
        · rcases List.mem_or_eq_of_mem_set hg with hg | rfl
          · exact hc.futures g hg
          · exact workerStep_calm hs hl (hc.futures f (List.mem_of_getElem? hf)) hinv.control
        · exact ha.futures fun hnil => by simpa using hnil
  | tick => exact ⟨hinv.requests, hinv.control, hinv.queued, hinv.thread⟩

theorem submitsPlanned_of_accounted (hinv : CalmInv cfg d) (hgrid : cfg.isBayesian = false) :
    SubmitsPlanned cfg c l d := by
  intro t ht hpc
  have ha := (hinv.thread t ht).2
  rw [plannedRuns_eq, plannedRunCount, hgrid, if_neg Bool.false_ne_true]
  unfold Pc.settling at hpc
  unfold Sweep.Accounted at ha
  split at hpc
  · rename_i hp; simp only [hp] at ha; exact ha
  · rename_i hp; simp only [hp] at ha; exact ha
  · rename_i hp; simp only [hp] at ha; exact ha
  · cases hpc

end Cell

/-! ## Whole runs -/

/-- In an undisturbed run of the server, a grid sweep of `e` submits the runs planned. -/
theorem submitsPlanned_of_run {ι : Type} [DecidableEq ι] (dep : Deployment)
    (queries : ι → List String) (cfgs : ι → ExperimentConfig) {e : ι}
    (hgrid : (cfgs e).isBayesian = false) (ls : List (ι × Label))
    (hcalm : EveryStep (serverStep dep queries cfgs) (OnCell e fun _ l _ => l.calm = true)
      .initial ls) :
    EveryStep (serverStep dep queries cfgs) (OnCell e (SubmitsPlanned (cfgs e))) .initial ls := by
  refine everyStep_server (CalmInv (cfgs e)) ?_ (calmInv_initial _) hcalm
  intro c l d hinv h hl
  have hd := calm_step hinv h hgrid hl
  exact ⟨hd, submitsPlanned_of_accounted hd hgrid⟩

/-! ## The counts -/

/-- Every count of the planned sweep is the number of runs that `expand_sweep` builds, and the
    planned runs of a grid sweep are those it submits when nothing disturbs it, whatever else
    the server does. -/
structure CountsReal (cfg : ExperimentConfig) : Prop where
  plan : (sweepPlan cfg).fullGridCount = (expandSweep cfg).length
  preflight : numRuns cfg = (expandSweep cfg).length
  dashboard : formulaProduct (sweepFormulaFromSummary (sweepSummary cfg)).terms =
    (expandSweep cfg).length
  submitted : cfg.isBayesian = false → ∀ (ι : Type) [DecidableEq ι] (dep : Deployment)
    (queries : ι → List String) (cfgs : ι → ExperimentConfig) (e : ι), cfgs e = cfg →
      ∀ ls, EveryStep (serverStep dep queries cfgs) (OnCell e fun _ l _ => l.calm = true)
          .initial ls →
        EveryStep (serverStep dep queries cfgs) (OnCell e (SubmitsPlanned cfg)) .initial ls

theorem counts_real_iff (cfg : ExperimentConfig) : CountsReal cfg ↔ PreflightCounts cfg := by
  constructor
  · exact fun h => (numRuns_eq_iff cfg).mp h.preflight
  · intro h
    refine ⟨fullGridCount_eq cfg, (numRuns_eq_iff cfg).mpr h, sweepFormula_product cfg, ?_⟩
    rintro hgrid ι _ dep queries cfgs e rfl ls hcalm
    exact submitsPlanned_of_run dep queries cfgs hgrid ls hcalm

def twoPaddingsOnRedis : ExperimentConfig :=
  { miniLmGrid .continue 512 [] [0, 50] with databaseProvider := .redis }

/-- The preflight finds room for one of the two runs. -/
theorem second_padding_not_counted : ¬CountsReal twoPaddingsOnRedis := by
  intro h
  exact absurd h.preflight (by decide +kernel)

/-- The sweep of one run, from its creation to its end, is undisturbed. -/
example : EveryStep (sampleServer oneRunGrid) (OnCell () fun _ l _ => l.calm = true) .initial
    (onlyExperiment wholeSweep) := by decide +kernel

end RagParamsFinder
