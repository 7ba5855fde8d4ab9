/-
  A sweep that ends does not leave its experiment in RUNNING, outside the exits that write
  no status.

  The sweep thread ends by `unregister_sweep_control`, or by an exception of `resume_sweep`
  before `_execute_sweep`. The exits that write no status (`Sweep.abandons`) are an exception
  of the store outside the two classes that `_execute_sweep` catches, one of preflight, the
  template of an empty expansion, and the control check at the start: a cancel seen there is
  left to the endpoint to record, a pause raises past both handlers.

  Proved: `ends_settled_of_run`: in a run in which no sweep takes such an exit while the
  stored status is RUNNING, and no resume marks the experiment while a sweep of it executes,
  every sweep that ends leaves a status other than RUNNING. `paused_in_queue_stays_running`
  is a run that takes one: a pause that arrives while the sweep is queued.
-/
import RagParamsFinder.Lifecycle.Server

namespace RagParamsFinder

open StepMachine

/-- A sweep takes an exit that writes no status while the experiment is stored as RUNNING. -/
def Cell.abandonsRunning (cfg : ExperimentConfig) (c : Cell) : Label → Bool
  | .sweep act =>
      match c.sweep with
      | some t => t.abandons cfg c.shared act && decide (c.shared.status = some .running)
      | none => false
  | _ => false

/-- A resume marks the experiment while a sweep of it executes. -/
def Cell.resumesOver (c : Cell) : Label → Bool
  | .request i false => decide (c.requests[i]? = some .resumeMark) && c.sweep.isSome
  | _ => false

/-- The sweep thread, if it ends with this step, leaves a status other than RUNNING. -/
def EndsSettled (c : Cell) (_ : Label) (d : Cell) : Prop :=
  c.sweep ≠ none → d.sweep = none → d.shared.status ≠ some .running

instance (c : Cell) (l : Label) (d : Cell) : Decidable (EndsSettled c l d) :=
  inferInstanceAs (Decidable (_ → _ → _))

/-- A thread that is to settle the status has a settling update; one on the way out has left
    a status other than RUNNING. -/
structure SettledInv (c : Cell) : Prop where
  created : c.Created
  wayOut : ∀ t, c.sweep = some t → t.pc = .unregister → c.shared.status ≠ some .running
  finalWrite : ∀ t u, c.sweep = some t → t.pc = .finalWrite u → u.Settles
  getWrite : ∀ st n m, Request.getWrite st n m ∈ c.requests → st ≠ .running

theorem settledInv_initial : SettledInv .initial where
  created := created_initial
  wayOut := by rintro t ⟨⟩
  finalWrite := by rintro t u ⟨⟩
  getWrite := by rintro st n m ⟨⟩

section

variable {dep : Deployment} {queries : List String} {cfg : ExperimentConfig} {c d : Cell}
  {l : Label}

theorem Sweep.settle_settles (t : Sweep) (s : Shared) (runs summaries : List Phase) :
    (finalUpdate (t.outcome cfg runs summaries) (plannedRunCount cfg) t.infra s.now).Settles := by
  apply finalUpdate_settles
  unfold Sweep.outcome
  split
  · exact bayesianOutcome_ne_running _ _ runs _ _
  · exact gridOutcome_ne_running _ _ runs summaries _

/-- A GET writes no RUNNING. -/
theorem getWrite_step (h : CellStep dep queries cfg c l d)
    (hg : ∀ st n m, Request.getWrite st n m ∈ c.requests → st ≠ .running) :
    ∀ st n m, Request.getWrite st n m ∈ d.requests → st ≠ .running := by
  intro st n m hm
  cases h with
  | arrive e =>
      rcases mem_requests_arrive hm with hm | hm
      · exact hg st n m hm
      · cases hm
  | request i r r' op hi hs =>
      rcases mem_requests_set hm with rfl | hm
      · cases hs with
        | getResolve doc runs _ _ _ hd hc hn => exact normalizeStaleRunning_ne_running hn
        | getMoreResolve doc _ _ _ hn => exact normalizeStaleRunning_ne_running hn
      · exact hg st n m hm
  | raised i x hi =>
      rcases mem_requests_set hm with hm | hm
      · cases hm
      · exact hg st n m hm
  | _ => exact hg st n m hm

/-- While a sweep executes, no request makes a settled experiment RUNNING. -/
theorem request_ne_running (hinv : SettledInv c) {t : Sweep} (ht : c.sweep = some t) {i : Nat}
    {r r' : Request} {op : Op} (hi : c.requests[i]? = some r)
    (hs : RequestStep cfg c.shared r op r') (hr : r ≠ .resumeMark)
    (hne : c.shared.status ≠ some .running) : r.statusAfter c.shared.status ≠ some .running := by
  have hcreated := hinv.created (Or.inr (Or.inr (Or.inl (by simp [ht]))))
  cases hs with
  | createInsert hc => rw [hcreated] at hc; cases hc
  | resumeMark => exact absurd rfl hr
  | getWrite st n m =>
      have hst := hinv.getWrite st n m (List.mem_of_getElem? hi)
      cases hstat : c.shared.status with
      | none => simp [Request.statusAfter]
      | some old => simpa [Request.statusAfter] using hst
  | cancelMark => cases c.shared.status <;> simp [Request.statusAfter]
  | pauseMark => cases c.shared.status <;> simp [Request.statusAfter]
  | deleteExperiment => simp [Request.statusAfter]
  | _ => exact hne

/-- A step that is not the sweep's keeps the status of a thread on the way out settled. -/
theorem wayOut_step (hinv : SettledInv c) {t : Sweep} (ht : c.sweep = some t)
    (hl : ∀ act, l ≠ .sweep act) (h : CellStep dep queries cfg c l d)
    (hg : c.resumesOver l = false) (hne : c.shared.status ≠ some .running) :
    d.shared.status ≠ some .running := by
  rw [status_step h]
  cases h with
  | request i r r' op hi hs =>
      simp only [Cell.statusAfter, hi]
      refine request_ne_running hinv ht hi hs ?_ hne
      rintro rfl
      simp [Cell.resumesOver, hi, ht] at hg
  | sweep act t t' op _ _ => exact absurd rfl (hl act)
  | _ => exact hne

/-- Both settling writes leave a status other than RUNNING. -/
theorem Sweep.statusAfter_ne_running {t : Sweep} (hfinal : ∀ u, t.pc = .finalWrite u → u.Settles)
    {u : ExperimentUpdate} (hw : t.pc = .finalWrite u ∨ ∃ m, t.pc = .failPreflight m)
    (old : Option ExperimentStatus) : old.map t.statusAfter ≠ some .running := by
  cases old with
  | none => simp
  | some old =>
      rcases hw with hpc | ⟨m, hpc⟩
      · obtain ⟨st, hst, hne⟩ := hfinal u hpc
        simpa [Sweep.statusAfter, hpc, hst] using hne
      · simp [Sweep.statusAfter, hpc]

theorem sweep_settled (hinv : SettledInv c) {t : Sweep} {t' : Option Sweep} {act : SweepAct}
    {op : Op} (ht : c.sweep = some t) (hstep : SweepStep cfg c.shared t act op t')
    (hg : c.abandonsRunning cfg (.sweep act) = false) :
    (∀ t₁, t' = some t₁ → t₁.pc = .unregister → (op.run dep c.shared).status ≠ some .running) ∧
      (∀ t₁ u, t' = some t₁ → t₁.pc = .finalWrite u → u.Settles) ∧
      (t' = none → (op.run dep c.shared).status ≠ some .running) := by
  have hrun : t.abandons cfg c.shared act = true → c.shared.status ≠ some .running := by
    intro ha
    simpa [Cell.abandonsRunning, ht, ha] using hg
  have hstatus := status_run dep c.shared op hstep.ne_insert hstep.ne_delete
  rw [show op.statusAfter = t.statusAfter from funext hstep.statusAfter_eq] at hstatus
  refine ⟨?_, ?_, ?_⟩
  · rintro t₁ rfl hpc
    cases hstep.exit_cases (by rw [hpc]; rfl) with
    | abandon _ ha hp => exact hrun ha
    | cancelled _ hst hp =>
        show c.shared.status ≠ some .running
        rw [hst]
        simp
    | wrote u _ hw hp =>
        rw [hstatus]
        exact Sweep.statusAfter_ne_running (fun u hu => hinv.finalWrite t u ht hu) hw _
    | failing m => cases hpc
    | settle runs summaries => cases hpc
  · rintro t₁ u rfl hpc
    cases hstep.exit_cases (by rw [hpc]; rfl) with
    | settle runs summaries => cases hpc; exact Sweep.settle_settles ..
    | abandon _ ha hp => rw [hp] at hpc; cases hpc
    | cancelled _ hst hp => rw [hp] at hpc; cases hpc
    | wrote u _ hw hp => rw [hp] at hpc; cases hpc
    | failing m => cases hpc
  · rintro rfl
    cases hstep with
    | signaturesRaise hpc => exact hrun (by simp [Sweep.abandons, hpc])
    | unregister hpc => exact hinv.wayOut t ht hpc

theorem settled_step (hinv : SettledInv c) (h : CellStep dep queries cfg c l d)
    (hg : c.abandonsRunning cfg l = false ∧ c.resumesOver l = false) :
    SettledInv d ∧ EndsSettled c l d := by
  have hcreated := created_step hinv.created h
  have hget := getWrite_step h hinv.getWrite
  have hway := fun t ht hl => @wayOut_step dep queries cfg c d l hinv t ht hl h hg.2
  cases h with
  | sweep act t t' op ht hs =>
      obtain ⟨hout, hfinal, hend⟩ := @sweep_settled dep cfg c hinv t t' act op ht hs
        hg.1
      exact ⟨⟨hcreated, hout, hfinal, hget⟩, fun _ he => hend he⟩
  | start task rest hs hq =>
      refine ⟨⟨hcreated, ?_, ?_, hget⟩, fun hne => absurd hs hne⟩
      · rintro t ⟨⟩ hpc
        cases hk : task.kind <;> simp [Sweep.start, hk] at hpc
      · rintro t u ⟨⟩ hpc
        cases hk : task.kind <;> simp [Sweep.start, hk] at hpc
  | worker i act t f op w ht hf hs ha =>
      refine ⟨⟨hcreated, ?_, ?_, hget⟩, fun _ he => absurd he (by simp)⟩
      · rintro t₁ ⟨⟩ hpc
        exact hway t ht (by simp) (hinv.wayOut t ht hpc)
      · rintro t₁ u ⟨⟩ hpc
        exact hinv.finalWrite t u ht hpc
  | arrive e =>
      exact ⟨⟨hcreated, hinv.wayOut, hinv.finalWrite, hget⟩, fun hne he => absurd he hne⟩
  | raised i x hi =>
      exact ⟨⟨hcreated, hinv.wayOut, hinv.finalWrite, hget⟩, fun hne he => absurd he hne⟩
  | request i r r' op hi hs =>
      refine ⟨⟨hcreated, ?_, hinv.finalWrite, hget⟩, fun hne he => absurd he hne⟩
      exact fun t ht hpc => hway t ht (by simp) (hinv.wayOut t ht hpc)
  | tick => exact ⟨⟨hcreated, hinv.wayOut, hinv.finalWrite, hget⟩, fun hne he => absurd he hne⟩

end

/-! ## Whole runs -/

section

variable {ι : Type} [DecidableEq ι] (dep : Deployment) (queries : ι → List String)
  (cfgs : ι → ExperimentConfig)

/-- In a run in which no sweep of `e` abandons it in RUNNING, and none of its sweeps is
    resumed over, every sweep of `e` that ends leaves a settled status. -/
theorem ends_settled_of_run (e : ι) (ls : List (ι × Label))
    (hG : EveryStep (serverStep dep queries cfgs)
      (OnCell e fun c l _ => c.abandonsRunning (cfgs e) l = false ∧ c.resumesOver l = false)
      .initial ls) :
    EveryStep (serverStep dep queries cfgs) (OnCell e EndsSettled) .initial ls :=
  everyStep_server SettledInv (fun _ _ _ hinv h hg => settled_step hinv h hg)
    settledInv_initial hG

end

theorem ends_settled_of_run_wholeSweep :
    EveryStep (sampleServer oneRunGrid) (OnCell () EndsSettled) .initial
      (onlyExperiment wholeSweep) :=
  ends_settled_of_run .mongo (fun _ => ["q"]) (fun _ => oneRunGrid) () (onlyExperiment wholeSweep)
    (by decide +kernel)

/-- A pause that arrives before the executor starts the sweep. -/
def pausedInQueue : List Label :=
  createRun ++ [.arrive .pause] ++ requestGo 1 2 ++ [.start] ++ sweepGo 4

/-- The sweep ends and leaves RUNNING, with no entry: neither resume nor DELETE accepts it. -/
theorem paused_in_queue_stays_running :
    ((exec (sampleServer oneRunGrid) .initial (onlyExperiment pausedInQueue)).map fun s =>
        ((s.cells ()).shared.status, (s.cells ()).shared.control, (s.cells ()).sweep)) =
      some (some .running, none, none) ∧
    ¬ EveryStep (sampleServer oneRunGrid) (OnCell () EndsSettled) .initial
      (onlyExperiment pausedInQueue) := by
  decide +kernel

end RagParamsFinder
