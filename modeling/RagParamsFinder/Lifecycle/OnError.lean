/-
  `on_error: stop` stops, as long as the pool holds no more runs than workers.

  The stop flag gates `_submit_next` only. The loop submits one run for each worker at first,
  but after a run that did not fail it submits all the rest, so when a later run fails, runs
  wait in the pool, and each of them begins as soon as a worker is free.

  Proved: `on_error_stops_of_run`: in a run in which, whenever the loop takes up the first
  failed run, no run waits for a worker and fewer than `parallelism` execute, no run begins
  after that, fewer than `parallelism` runs come to an end after it, and no other run gets a
  row. `queued_run_begins_after_failure` is a run on one worker in which a run begins.
-/
import RagParamsFinder.Lifecycle.Server

namespace RagParamsFinder

open StepMachine

/-- The result is a failure, and not a run that was cancelled or paused. -/
def RunResult.failed : RunResult → Bool
  | .sieUnavailable _ => true
  | .error => true
  | _ => false

/-- The future of `runId` has failed. -/
def Sweep.failedRun (t : Sweep) (runId : Nat) : Bool :=
  match (t.futures.find? fun f => f.runId = runId).bind (·.result) with
  | some r => r.failed
  | none => false

/-- The loop has taken up a failed run. -/
def Cell.failureSeen (c : Cell) : Bool :=
  match c.sweep with
  | some t => t.failureSeen
  | none => false

/-- The runs in the pool that have not ended. -/
def Cell.unfinished (c : Cell) : List Nat :=
  match c.sweep with
  | some t => (t.futures.filter fun f => !f.isDone).map (·.runId)
  | none => []

/-- Under `on_error: stop`, once a failed run has been taken up: fewer runs than workers are
    unfinished; no run begins; and a run that is unfinished, or gets a row, was unfinished
    before. -/
def StopsOnError (cfg : ExperimentConfig) (c : Cell) (l : Label) (d : Cell) : Prop :=
  cfg.execution.onError = .stop →
    (d.failureSeen = true → d.unfinished.length < cfg.execution.parallelism) ∧
    (c.failureSeen = true →
      c.startsRun l = false ∧ (∀ r ∈ d.unfinished, r ∈ c.unfinished) ∧
        ∀ r ∈ d.shared.rows.map (·.runId),
          r ∈ c.shared.rows.map (·.runId) ∨ r ∈ c.unfinished)

instance (cfg : ExperimentConfig) (c : Cell) (l : Label) (d : Cell) :
    Decidable (StopsOnError cfg c l d) :=
  inferInstanceAs (Decidable (_ → _))

/-- Under `on_error: stop` the loop takes up the first failed run while runs wait for a worker,
    or as many execute as there are workers. -/
def Cell.failsCrowded (cfg : ExperimentConfig) (c : Cell) : Label → Bool
  | .sweep (.process runId) =>
      match c.sweep with
      | some t =>
          decide (cfg.execution.onError = .stop) && !t.failureSeen && t.failedRun runId &&
            (t.futures.any (·.isWaiting) ||
              decide (cfg.execution.parallelism ≤ busyWorkers t.futures))
      | none => false
  | _ => false

/-! ## The thread -/

section

variable {cfg : ExperimentConfig} {s : Shared} {t t' : Sweep} {act : SweepAct} {op : Op}

theorem Sweep.observe_failureSeen (t : Sweep) (r : RunResult) :
    (t.observe cfg r).failureSeen = (t.failureSeen || r.failed) := by
  cases r <;> simp [Sweep.observe, RunResult.failed]

theorem Sweep.observe_stop_of_failed (t : Sweep) {r : RunResult}
    (hcfg : cfg.execution.onError = .stop) (hr : r.failed = true) :
    (t.observe cfg r).stop = true := by
  cases r with
  | sieUnavailable message => rfl
  | error => simp [Sweep.observe, hcfg]
  | _ => cases hr

/-- A failure is seen for the first time when the loop takes up a failed run, which halts the
    thread, or at the end of a trial, which leaves none in the pool. -/
theorem SweepStep.failureSeen (h : SweepStep cfg s t act op (some t'))
    (hcfg : cfg.execution.onError = .stop) (hf : t'.failureSeen = true) :
    t.failureSeen = true ∨ t'.Halted ∧ t'.futures.Sublist t.futures ∧
      (t'.futures = [] ∨ ∃ runId, act = .process runId ∧ t.failedRun runId = true) := by
  cases h.move with
  | go hk => exact Or.inl (hk.failureSeen ▸ hf)
  | startCheck _ _ ht => exact Or.inl (by rwa [ht] at hf)
  | check clear stopped _ _ _ _ _ _ ht =>
      exact Or.inl (by rwa [ht, (Sweep.checked_keeps ..).2.2.1] at hf)
  | put futures runIds pc _ ht => exact Or.inl (by rwa [ht] at hf)
  | observe r futures pc _ hpc hsub hres ht =>
      subst ht
      have hseen : (t.observe cfg r).failureSeen = true := hf
      rw [Sweep.observe_failureSeen, Bool.or_eq_true] at hseen
      refine hseen.imp_right fun hr => ?_
      refine ⟨⟨Or.inl (Sweep.observe_stop_of_failed t hcfg hr), hpc⟩, hsub, ?_⟩
      refine hres.imp_right ?_
      rintro ⟨runId, f, rfl, hfind, hres⟩
      exact ⟨runId, rfl, by simp [Sweep.failedRun, hfind, hres, hr]⟩

end

/-! ## The pool -/

/-- Once a failure has been seen the thread is halted, no run waits, and a worker is free. -/
def StopInv (cfg : ExperimentConfig) (c : Cell) : Prop :=
  cfg.execution.onError = .stop → ∀ t, c.sweep = some t → t.failureSeen = true →
    t.Halted ∧ (∀ f ∈ t.futures, f.isWaiting = false) ∧
      busyWorkers t.futures < cfg.execution.parallelism

/-- Without runs that wait, the unfinished runs are those on the workers. -/
theorem length_unfinished_le {futures : List RunFuture}
    (h : ∀ f ∈ futures, f.isWaiting = false) :
    (futures.filter fun f => !f.isDone).length ≤ busyWorkers futures := by
  unfold busyWorkers
  rw [← List.countP_eq_length_filter]
  apply List.countP_mono_left
  intro f hf hd
  exact RunFuture.isRunning_of (h f hf) (by simpa using hd)

section

variable {dep : Deployment} {queries : List String} {cfg : ExperimentConfig} {c d : Cell}
  {l : Label}

/-- A worker that goes on with a run does not make more of them busy. -/
theorem busyWorkers_set {futures : List RunFuture} {i : Nat} {f g : RunFuture}
    (hf : futures[i]? = some f) (hr : f.isRunning = true) :
    busyWorkers (futures.set i g) ≤ busyWorkers futures := by
  have hcount := countP_set (·.isRunning) g hf
  unfold busyWorkers
  rw [hr, if_pos rfl] at hcount
  split at hcount <;> omega

theorem stop_step (hinv : StopInv cfg c) (h : CellStep dep queries cfg c l d)
    (hg : c.failsCrowded cfg l = false) : StopInv cfg d := by
  intro hcfg
  have hinv := hinv hcfg
  cases h with
  | sweep act t t' op ht hs =>
      rintro t₁ rfl hseen
      have hpos := cfg.execution.parallelism_pos
      by_cases hold : t.failureSeen = true
      · obtain ⟨hh, hw, hb⟩ := hinv t ht hold
        obtain ⟨hh', hw'⟩ := hs.halted_still ⟨hh, hw⟩
        have hle : busyWorkers t₁.futures ≤ busyWorkers t.futures :=
          (hs.futures_sublist hh.2.1).countP_le
        exact ⟨hh', hw', by omega⟩
      · obtain ⟨hh', hsub, hfut⟩ := (hs.failureSeen hcfg hseen).resolve_left hold
        rcases hfut with hnil | ⟨runId, rfl, hfail⟩
        · rw [hnil]
          exact ⟨hh', (fun f hf => by cases hf), hpos⟩
        · -- the loop takes up the first failed run
          have hold : t.failureSeen = false := by simpa using hold
          have hcrowd : (∀ f ∈ t.futures, f.isWaiting = false) ∧
              busyWorkers t.futures < cfg.execution.parallelism := by
            simpa [Cell.failsCrowded, ht, hcfg, hold, hfail] using hg
          refine ⟨hh', fun f hf => hcrowd.1 f (hsub.subset hf), ?_⟩
          have hle : busyWorkers t₁.futures ≤ busyWorkers t.futures := hsub.countP_le
          omega
  | start task rest hs hq => rintro t ⟨⟩ ⟨⟩
  | worker i act t f op w ht hf hs ha =>
      rintro t₁ ⟨⟩ hseen
      obtain ⟨hh, hw, hb⟩ := hinv t ht hseen
      have hrun : f.isRunning = true :=
        RunFuture.isRunning_of (hw f (List.mem_of_getElem? hf)) (workerStep_not_done hf hs)
      exact ⟨hh, noWaiting_worker hw hs, Nat.lt_of_le_of_lt (busyWorkers_set hf hrun) hb⟩
  | _ => exact hinv

/-- A run that a worker works on is unfinished. -/
theorem mem_unfinished {t : Sweep} {i : Nat} {f : RunFuture} (ht : c.sweep = some t)
    (hf : t.futures[i]? = some f) (hd : f.isDone = false) : f.runId ∈ c.unfinished := by
  simp only [Cell.unfinished, ht]
  apply List.mem_map_of_mem
  rw [List.mem_filter, hd]
  exact ⟨List.mem_of_getElem? hf, rfl⟩

/-- What a step leaves unfinished was unfinished before, once a failure has been seen. -/
theorem unfinished_step (hinv : StopInv cfg c) (h : CellStep dep queries cfg c l d)
    (hcfg : cfg.execution.onError = .stop) (hseen : c.failureSeen = true) :
    ∀ r ∈ d.unfinished, r ∈ c.unfinished := by
  unfold Cell.failureSeen at hseen
  unfold Cell.unfinished
  intro r hr
  cases h with
  | sweep act t t' op ht hs =>
      simp only [ht] at hseen ⊢
      cases t' with
      | none => cases hr
      | some t' =>
          have hsub := hs.futures_sublist (hinv hcfg t ht hseen).1.2.1
          exact ((hsub.filter _).map _).subset hr
  | start task rest hs hq => rw [hs] at hseen; cases hseen
  | worker i act t f op w ht hf hs ha =>
      simp only [ht] at hseen ⊢
      obtain ⟨g, hg, rfl⟩ := List.mem_map.mp hr
      rw [List.mem_filter] at hg
      rcases List.mem_or_eq_of_mem_set hg.1 with hm | rfl
      · exact List.mem_map_of_mem (List.mem_filter.mpr ⟨hm, hg.2⟩)
      · have hun := mem_unfinished ht hf (workerStep_not_done hf hs)
        simpa only [Cell.unfinished, ht] using hun
  | _ => exact hr

theorem Op.rows_run {s : Shared} {op : Op} (h : ∀ i p, op ≠ .insertRunStatus i p) :
    ∀ r ∈ (op.run dep s).rows.map (·.runId), r ∈ s.rows.map (·.runId) := by
  intro r hr
  cases op with
  | insertRunStatus i p => exact absurd rfl (h i p)
  | updateRunPhase runId phase msg =>
      have hids : (Op.run dep s (.updateRunPhase runId phase msg)).rows.map (·.runId) =
          s.rows.map (·.runId) := by
        simp only [Op.run, List.map_map]
        apply List.map_congr_left
        intro row _
        simp only [Function.comp_apply]
        split <;> rfl
      rwa [hids] at hr
  | deleteRunStatus => cases hr
  | deleteExperiment =>
      simp only [Op.run] at hr
      split at hr
      · cases hr
      · exact hr
  | _ => exact hr

/-- A step adds a row only for a run that is unfinished. -/
theorem rows_step (h : CellStep dep queries cfg c l d) :
    ∀ r ∈ d.shared.rows.map (·.runId), r ∈ c.shared.rows.map (·.runId) ∨ r ∈ c.unfinished := by
  intro r hr
  cases h with
  | arrive e => exact Or.inl hr
  | raised i x hi => exact Or.inl hr
  | start task rest hs hq => exact Or.inl hr
  | tick => exact Or.inl hr
  | request i x x' op hi hs => exact Or.inl (Op.rows_run (by cases hs <;> simp) r hr)
  | sweep act t t' op ht hs =>
      refine Or.inl (Op.rows_run ?_ r hr)
      rintro i p rfl
      cases hs.ofSweep
  | worker i act t f op w ht hf hs ha =>
      by_cases hins : ∃ i p, op = .insertRunStatus i p
      · obtain ⟨j, p, rfl⟩ := hins
        obtain rfl := workerStep_row hs
        simp only [Op.run, List.map_append, List.mem_append, List.map_cons, List.map_nil,
          List.mem_singleton] at hr
        rcases hr with hr | rfl
        · exact Or.inl hr
        · exact Or.inr (mem_unfinished ht hf (workerStep_not_done hf hs))
      · exact Or.inl (Op.rows_run (fun i p he => hins ⟨i, p, he⟩) r hr)

/-- Once a failure has been seen no run begins. -/
theorem startsRun_stopped (hinv : StopInv cfg c) (h : CellStep dep queries cfg c l d)
    (hcfg : cfg.execution.onError = .stop) (hseen : c.failureSeen = true) :
    c.startsRun l = false := by
  unfold Cell.failureSeen at hseen
  cases ht : c.sweep with
  | none => rw [ht] at hseen; cases hseen
  | some t =>
      rw [ht] at hseen
      obtain ⟨hh, hw, -⟩ := hinv hcfg t ht hseen
      exact startsRun_halted h ht hh hw

theorem unfinished_lt (hinv : StopInv cfg c) (hcfg : cfg.execution.onError = .stop)
    (hseen : c.failureSeen = true) : c.unfinished.length < cfg.execution.parallelism := by
  unfold Cell.failureSeen at hseen
  unfold Cell.unfinished
  cases ht : c.sweep with
  | none => rw [ht] at hseen; cases hseen
  | some t =>
      rw [ht] at hseen
      obtain ⟨-, hw, hb⟩ := hinv hcfg t ht hseen
      have hle := length_unfinished_le hw
      simp only [List.length_map]
      omega

end

/-! ## Whole runs -/

section

variable {ι : Type} [DecidableEq ι] (dep : Deployment) (queries : ι → List String)
  (cfgs : ι → ExperimentConfig)

/-- In a run in which no sweep of `e` takes up its first failed run while others wait in the
    pool or keep all workers busy, `on_error: stop` stops. -/
theorem on_error_stops_of_run (e : ι) (ls : List (ι × Label))
    (hG : EveryStep (serverStep dep queries cfgs)
      (OnCell e fun c l _ => c.failsCrowded (cfgs e) l = false) .initial ls) :
    EveryStep (serverStep dep queries cfgs) (OnCell e (StopsOnError (cfgs e))) .initial ls := by
  refine everyStep_server (StopInv (cfgs e)) ?_ (by rintro _ t ⟨⟩) hG
  intro c l d hinv h hg
  have hd := stop_step hinv h hg
  refine ⟨hd, fun hcfg => ⟨unfinished_lt hd hcfg, fun hseen => ?_⟩⟩
  exact ⟨startsRun_stopped hinv h hcfg hseen, unfinished_step hinv h hcfg hseen, rows_step h⟩

end

/-- Three runs on one worker, with `on_error: stop`. -/
def threeRunsStop : ExperimentConfig := miniLmGrid .stop 512 [256, 128] [0]

/-- The run of future `i` fails at its first check. -/
def failingRun (i : Nat) : List Label :=
  .worker i .begin :: workerGo i 1 ++ .worker i (.run (.raise false "chunking failed")) ::
    workerGo i 1

/-- The first run fails, with none behind it. -/
def firstRunFails : List Label :=
  createRun ++ [.start] ++ sweepGo 8 ++ failingRun 0 ++ [.sweep .go, .sweep (.process 0)] ++
    sweepGo 5

theorem on_error_stops_of_run_firstRunFails :
    EveryStep (sampleServer threeRunsStop) (OnCell () (StopsOnError threeRunsStop)) .initial
      (onlyExperiment firstRunFails) :=
  on_error_stops_of_run .mongo (fun _ => ["q"]) (fun _ => threeRunsStop) ()
    (onlyExperiment firstRunFails) (by decide +kernel)

/-- The first run succeeds, so the loop submits both others; the second fails. -/
def secondRunFails : List Label :=
  createRun ++ [.start] ++ sweepGo 8 ++ wholeRun 0 ++ [.sweep .go, .sweep (.process 0)] ++
    sweepGo 8 ++ failingRun 0 ++ [.sweep .go, .sweep (.process 1)] ++ wholeRun 0

/-- The loop has taken up the failed run, and the third run begins, gets a row and
    completes. -/
theorem queued_run_begins_after_failure :
    ((exec (sampleServer threeRunsStop) .initial (onlyExperiment secondRunFails)).map fun s =>
        ((s.cells ()).failureSeen, (s.cells ()).shared.phases)) =
      some (true, [.complete, .failed, .complete]) ∧
    ¬ EveryStep (sampleServer threeRunsStop) (OnCell () (StopsOnError threeRunsStop)) .initial
      (onlyExperiment secondRunFails) := by
  decide +kernel

end RagParamsFinder
