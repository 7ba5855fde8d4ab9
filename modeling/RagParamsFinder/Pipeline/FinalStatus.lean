/-
  The three derivations of a settled status: the end of a sweep (`_compute_final_status`,
  the status part of `_run_sweep_inner` and of `_finalise_bayesian_experiment`), the startup
  reconciliation (`_derive_experiment_status`, `_reconcile_one`) and the read path
  (`_normalize_stale_running_status`).

  Each reads the phases of the experiment's run rows and the expected number of runs.

  Proved: `statuses_agree_iff`: on rows in terminal phases the three give one status outside
  three regions of counts. The regions are no rows at all (the read path stores nothing), a
  shortfall of completed runs with nothing failed or interrupted (only the read path calls it
  complete), and failures beside interruptions with nothing completed (only the end of a
  sweep calls it failed).
-/
import Mathlib.Data.List.Count
import RagParamsFinder.Models.Status

namespace RagParamsFinder

/-- `_TERMINAL_PHASES`. -/
def Phase.terminal : Phase → Bool
  | .complete => true
  | .failed => true
  | .interrupted => true
  | _ => false

/-! ## End of a sweep -/

/-- `_compute_final_status`: the status, and the number of failed runs. -/
def computeFinalStatus (runs : List Phase) (expectedRunCount : Nat) : ExperimentStatus × Nat :=
  let complete := runs.count .complete
  let failed := runs.count .failed
  if complete = expectedRunCount ∧ failed = 0 then (.complete, failed)
  else if failed = expectedRunCount ∨ (0 < failed ∧ complete = 0) then (.failed, failed)
  else (.partialStatus, failed)

/-- The completion reason of a grid sweep that was neither cancelled nor paused. -/
def gridCompletionReason (status : ExperimentStatus) (failed complete interrupted total : Nat) :
    String :=
  if status = .complete then "all_planned_trials_completed"
  else if status = .failed ∧ failed = 0 ∧ complete = 0 then "interrupted_before_completion"
  else if status = .partialStatus ∧ failed = 0 ∧ 0 < interrupted then
    "paused_or_interrupted_before_completion"
  else if status = .partialStatus ∧ 0 < failed then "mixed_outcomes"
  else if status = .failed ∧ failed = total then "all_trials_failed"
  else "partial_outcomes"

/-- Status, failed count and reason at the end of `_run_sweep_inner`. `runs` is what
    `_compute_final_status` or `_count_failed_runs` reads, `summaries` the later read. -/
def gridOutcome (cancelled paused : Bool) (runs summaries : List Phase) (total : Nat) :
    ExperimentStatus × Nat × String :=
  if cancelled then (.cancelled, runs.count .failed, "cancelled_by_user")
  else if paused then (.paused, runs.count .failed, "paused_by_user")
  else
    let (status, failed) := computeFinalStatus runs total
    (status, failed, gridCompletionReason status failed (summaries.count .complete)
      (summaries.count .interrupted) total)

/-- The same in `_finalise_bayesian_experiment`; `attempted` is `len(run_ids)`. -/
def bayesianOutcome (cancelled paused : Bool) (runs : List Phase) (planned attempted : Nat) :
    ExperimentStatus × Nat × String :=
  if cancelled then (.cancelled, runs.count .failed, "cancelled_by_user")
  else if paused then (.paused, runs.count .failed, "paused_by_user")
  else if attempted ≠ 0 then
    let (computed, failed) := computeFinalStatus runs planned
    let status := if computed = .partialStatus ∧ failed = 0 then .complete else computed
    let reason :=
      if status = .complete ∧ attempted < planned then "completed_with_sampling_shortfall"
      else if status = .complete then "all_planned_trials_completed"
      else if status = .failed ∧ failed = planned then "all_trials_failed"
      else if status = .failed then "partial_failures"
      else "partial_completion"
    if failed = planned ∧ status ≠ .failed then (.failed, failed, "all_trials_failed")
    else (status, failed, reason)
  else (.cancelled, 0, "cancelled_before_attempt")

/-- The document update both ends of a sweep write: an infrastructure error with a text
    overrides every status but cancelled and paused. -/
def finalUpdate (outcome : ExperimentStatus × Nat × String) (runCount : Nat)
    (infrastructureError : Option String) (now : Nat) : ExperimentUpdate :=
  let (status, failed, reason) := outcome
  let settled : ExperimentUpdate :=
    { status := some status, runCount := some runCount, failedCount := some failed,
      completionReason := some reason, completedAt := some now }
  match infrastructureError with
  | none => settled
  | some message =>
      if message = "" then settled
      else if status = .cancelled ∨ status = .paused then
        { settled with errorMessage := some message }
      else
        { settled with
          status := some .failed
          completionReason := some "infrastructure_error"
          errorMessage := some message }

/-- The update of `_fail_experiment_preflight`. -/
def preflightFailure (runs : Nat) (message : String) (now : Nat) : ExperimentUpdate where
  status := some .failed
  runCount := some runs
  failedCount := some 0
  completionReason := some "infrastructure_error"
  completedAt := some now
  errorMessage := some message

/-! ## A settling write settles -/

/-- The update names a status, and it is not RUNNING. -/
def ExperimentUpdate.Settles (u : ExperimentUpdate) : Prop :=
  ∃ status, u.status = some status ∧ status ≠ .running

theorem computeFinalStatus_ne_running (runs : List Phase) (n : Nat) :
    (computeFinalStatus runs n).1 ≠ .running := by
  unfold computeFinalStatus
  dsimp only
  split
  · simp
  · split <;> simp

theorem gridOutcome_ne_running (cancelled paused : Bool) (runs summaries : List Phase)
    (total : Nat) : (gridOutcome cancelled paused runs summaries total).1 ≠ .running := by
  unfold gridOutcome
  split
  · simp
  · split
    · simp
    · exact computeFinalStatus_ne_running runs total

theorem bayesianOutcome_ne_running (cancelled paused : Bool) (runs : List Phase)
    (planned attempted : Nat) :
    (bayesianOutcome cancelled paused runs planned attempted).1 ≠ .running := by
  have hc := computeFinalStatus_ne_running runs planned
  unfold bayesianOutcome
  dsimp only
  repeat' split
  all_goals first | exact hc | simp

theorem finalUpdate_settles {outcome : ExperimentStatus × Nat × String}
    (h : outcome.1 ≠ .running) (n : Nat) (infra : Option String) (now : Nat) :
    (finalUpdate outcome n infra now).Settles := by
  obtain ⟨status, failed, reason⟩ := outcome
  cases infra with
  | none => exact ⟨status, rfl, h⟩
  | some message =>
      simp only [finalUpdate]
      split
      · exact ⟨status, rfl, h⟩
      · split
        · exact ⟨status, rfl, h⟩
        · exact ⟨.failed, rfl, by simp⟩

/-- An infrastructure error does not replace a cancellation. -/
theorem finalUpdate_cancelled {outcome : ExperimentStatus × Nat × String}
    (h : outcome.1 = .cancelled) (n : Nat) (infra : Option String) (now : Nat) :
    (finalUpdate outcome n infra now).status = some .cancelled := by
  obtain ⟨status, failed, reason⟩ := outcome
  subst h
  cases infra with
  | none => rfl
  | some message =>
      simp only [finalUpdate]
      split
      · rfl
      · rw [if_pos (Or.inl trivial)]

/-! ## Startup reconciliation -/

/-- `_derive_experiment_status`. -/
def deriveExperimentStatus (runs : List Phase) (expected : Nat) : ExperimentStatus × Nat :=
  let complete := runs.count .complete
  let failed := runs.count .failed
  if complete = expected ∧ failed = 0 then (.complete, failed)
  else if failed = expected ∨ (0 < failed ∧ complete = 0 ∧ failed = runs.length) then
    (.failed, failed)
  else (.partialStatus, failed)

/-! ## Read path -/

/-- What `_normalize_stale_running_status` resolves a stale experiment to; `none` when it
    leaves the document: no rows, or a row that is not in a terminal phase. -/
def normalizeStaleRunning (runs : List Phase) (expected : Nat) :
    Option (ExperimentStatus × Nat × String) :=
  let complete := runs.count .complete
  let failed := runs.count .failed
  let interrupted := runs.count .interrupted
  if runs.isEmpty then none
  else if runs.any (fun p => !p.terminal) then none
  else if complete = expected ∧ failed = 0 then
    some (.complete, failed, "all_planned_trials_completed")
  else if failed = 0 ∧ interrupted = 0 ∧ complete < expected ∧ 0 < complete then
    some (.complete, failed, "completed_with_sampling_shortfall")
  else if failed = expected ∨ (0 < failed ∧ complete = 0 ∧ failed = runs.length) then
    some (.failed, failed, "all_trials_failed")
  else if failed = 0 ∧ 0 < interrupted ∧ 0 < complete then
    some (.partialStatus, failed, "interrupted_before_completion")
  else if 0 < failed then some (.partialStatus, failed, "partial_failures")
  else some (.partialStatus, failed, "incomplete_before_completion")

theorem normalizeStaleRunning_ne_running {runs : List Phase} {n failed : Nat}
    {status : ExperimentStatus} {reason : String}
    (h : normalizeStaleRunning runs n = some (status, failed, reason)) : status ≠ .running := by
  rintro rfl
  unfold normalizeStaleRunning at h
  dsimp only at h
  repeat' split at h
  all_goals simp at h

/-! ## Agreement -/

/-- Rows in terminal phases are counted by the three counters. -/
theorem length_of_terminal {runs : List Phase} (h : ∀ p ∈ runs, p.terminal = true) :
    runs.length = runs.count .complete + runs.count .failed + runs.count .interrupted := by
  induction runs with
  | nil => rfl
  | cons p runs ih =>
      have hp := h p (List.mem_cons_self ..)
      have hrest := ih fun q hq => h q (List.mem_cons_of_mem _ hq)
      simp only [List.length_cons, List.count_cons, hrest]
      cases p with
      | complete => simp; omega
      | failed => simp; omega
      | interrupted => simp; omega
      | _ => exact absurd hp (by decide)

theorem computeFinalStatus_failed (runs : List Phase) (n : Nat) :
    (computeFinalStatus runs n).2 = runs.count .failed := by
  unfold computeFinalStatus
  dsimp only
  split
  · rfl
  · split <;> rfl

/-- The status at the end of a sweep is complete only for as many completed rows as expected. -/
theorem computeFinalStatus_complete_iff (runs : List Phase) (n : Nat) :
    (computeFinalStatus runs n).1 = .complete ↔
      runs.count .complete = n ∧ runs.count .failed = 0 := by
  unfold computeFinalStatus
  dsimp only
  split
  · rename_i h
    exact iff_of_true rfl h
  · rename_i h
    split <;> exact iff_of_false (by simp) h

/-- The end of a sweep and the startup reconciliation differ on failures beside
    interruptions, with nothing completed. -/
theorem derive_eq_final_iff {runs : List Phase} (h : ∀ p ∈ runs, p.terminal = true) (n : Nat) :
    (deriveExperimentStatus runs n).1 = (computeFinalStatus runs n).1 ↔
      ¬ (0 < runs.count .failed ∧ runs.count .complete = 0 ∧ 0 < runs.count .interrupted ∧
        runs.count .failed ≠ n) := by
  have hlen := length_of_terminal h
  unfold deriveExperimentStatus computeFinalStatus
  dsimp only
  by_cases hc : runs.count .complete = n ∧ runs.count .failed = 0
  · rw [if_pos hc, if_pos hc]
    exact iff_of_true rfl (by omega)
  · rw [if_neg hc, if_neg hc]
    by_cases hf : runs.count .failed = n ∨ (0 < runs.count .failed ∧ runs.count .complete = 0)
    · rw [if_pos hf]
      split
      · rename_i hd
        exact iff_of_true rfl (by omega)
      · rename_i hd
        exact iff_of_false (by simp) (by omega)
    · rw [if_neg hf, if_neg (by omega)]
      exact iff_of_true rfl (by omega)

/-- The read path and the startup reconciliation differ on shortfalls, and the read path
    settles nothing without rows. -/
theorem normalize_eq_derive_iff {runs : List Phase} (h : ∀ p ∈ runs, p.terminal = true)
    (n : Nat) :
    (normalizeStaleRunning runs n).map (·.1) = some (deriveExperimentStatus runs n).1 ↔
      runs ≠ [] ∧ ¬ (0 < runs.count .complete ∧ runs.count .complete < n ∧
        runs.count .failed = 0 ∧ runs.count .interrupted = 0) := by
  have hlen := length_of_terminal h
  have hterm : runs.any (fun p => !p.terminal) = false := by
    rw [List.any_eq_false]
    intro p hp
    simp [h p hp]
  unfold normalizeStaleRunning deriveExperimentStatus
  rw [hterm]
  dsimp only
  cases hr : runs.isEmpty with
  | true =>
      rw [List.isEmpty_iff] at hr
      simp [hr]
  | false =>
      have hne : runs ≠ [] := by
        intro he
        simp [he] at hr
      simp only [Bool.false_eq_true, if_false]
      by_cases hc : runs.count .complete = n ∧ runs.count .failed = 0
      · rw [if_pos hc, if_pos hc]
        exact iff_of_true rfl ⟨hne, by omega⟩
      · rw [if_neg hc, if_neg hc]
        by_cases hs : runs.count .failed = 0 ∧ runs.count .interrupted = 0 ∧
            runs.count .complete < n ∧ 0 < runs.count .complete
        · rw [if_pos hs, if_neg (by omega)]
          exact iff_of_false (by simp) (by omega)
        · rw [if_neg hs]
          have hright : runs ≠ [] ∧ ¬ (0 < runs.count .complete ∧ runs.count .complete < n ∧
              runs.count .failed = 0 ∧ runs.count .interrupted = 0) := ⟨hne, by omega⟩
          by_cases hf : runs.count .failed = n ∨
              (0 < runs.count .failed ∧ runs.count .complete = 0 ∧
                runs.count .failed = runs.length)
          · rw [if_pos hf, if_pos hf]
            exact iff_of_true rfl hright
          · rw [if_neg hf, if_neg hf]
            refine iff_of_true ?_ hright
            split
            · rfl
            · split <;> rfl

/-- All three derivations give one status. -/
def StatusesAgree (runs : List Phase) (n : Nat) : Prop :=
  (deriveExperimentStatus runs n).1 = (computeFinalStatus runs n).1 ∧
    (normalizeStaleRunning runs n).map (·.1) = some (computeFinalStatus runs n).1

/-- They agree when there are rows, and neither a bare shortfall of completed rows nor
    failures beside interruptions with nothing completed. -/
theorem statuses_agree_iff {runs : List Phase} (h : ∀ p ∈ runs, p.terminal = true) (n : Nat) :
    StatusesAgree runs n ↔
      runs ≠ [] ∧
        ¬ (0 < runs.count .complete ∧ runs.count .complete < n ∧ runs.count .failed = 0 ∧
          runs.count .interrupted = 0) ∧
        ¬ (0 < runs.count .failed ∧ runs.count .complete = 0 ∧ 0 < runs.count .interrupted ∧
          runs.count .failed ≠ n) := by
  unfold StatusesAgree
  have hderive := derive_eq_final_iff h n
  have hnormal := normalize_eq_derive_iff h n
  constructor
  · rintro ⟨hd, hn⟩
    rw [← hd] at hn
    obtain ⟨hne, hshort⟩ := hnormal.mp hn
    exact ⟨hne, hshort, hderive.mp hd⟩
  · rintro ⟨hne, hshort, hmix⟩
    have hd := hderive.mpr hmix
    refine ⟨hd, ?_⟩
    rw [← hd]
    exact hnormal.mpr ⟨hne, hshort⟩

theorem statuses_agree_mixed :
    StatusesAgree [.complete, .failed] 2 ↔
      ([.complete, .failed] : List Phase) ≠ [] ∧ ¬ (0 < 1 ∧ 1 < 2 ∧ 1 = 0 ∧ 0 = 0) ∧
        ¬ (0 < 1 ∧ 1 = 0 ∧ 0 < 0 ∧ 1 ≠ 2) :=
  @statuses_agree_iff [.complete, .failed] (by decide) 2

/-- One of two runs completed and the other never started; and a failed beside an
    interrupted run of three. -/
theorem statuses_differ :
    computeFinalStatus [.complete] 2 = (.partialStatus, 0) ∧
      deriveExperimentStatus [.complete] 2 = (.partialStatus, 0) ∧
      normalizeStaleRunning [.complete] 2 =
        some (.complete, 0, "completed_with_sampling_shortfall") ∧
      computeFinalStatus [.failed, .interrupted] 3 = (.failed, 1) ∧
      deriveExperimentStatus [.failed, .interrupted] 3 = (.partialStatus, 1) ∧
      normalizeStaleRunning [.failed, .interrupted] 3 =
        some (.partialStatus, 1, "partial_failures") ∧
      ¬ StatusesAgree [.complete] 2 ∧ ¬ StatusesAgree [.failed, .interrupted] 3 := by
  unfold StatusesAgree
  decide

end RagParamsFinder
