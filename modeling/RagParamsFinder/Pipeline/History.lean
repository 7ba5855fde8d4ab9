/-
  The run rows of an experiment over its sweeps: a first run and any number of resumes,
  each with arbitrary outcomes, and the status the last sweep stores for them.

  A sweep begins some of its runnable parameter sets, from the front, and each run it begins
  leaves one row. The next sweep skips by the signatures of the completed rows. Row order is
  that of submission; the stores may return another, and only counts are read.

  Proved: `history_status_exact_iff`. The stored status and failed count describe parameter
  sets rather than rows if and only if every failed row is the only failed row of its
  parameter set and stands beside no completed one, and no parameter set that the sweep
  lists several times was completed less often than listed.
-/
import Mathlib.Algebra.Order.BigOperators.Group.Finset
import RagParamsFinder.Lib.Worklist
import RagParamsFinder.Pipeline.FinalStatus
import RagParamsFinder.Pipeline.Signatures

namespace RagParamsFinder

/-! ## Rows of a history -/

/-- What one run row says: the parameter set and the phase that settled it. -/
abbrev RunOutcome := RunParams × Phase

/-- The parameter sets with a completed row. -/
def completedRows (rows : List RunOutcome) : List RunParams := Worklist.done .complete rows

/-- The rows of one sweep whose runs ended as `outcomes` says, in submission order. -/
def sweepRows (cfg : ExperimentConfig) (rows : List RunOutcome) (outcomes : List Phase) :
    List RunOutcome :=
  (runnableRuns cfg ((completedRows rows).map paramsSignature)).zip outcomes

/-- The rows after a list of sweeps, the first one from an empty table. -/
def historyRows (cfg : ExperimentConfig) (sweeps : List (List Phase)) : List RunOutcome :=
  sweeps.foldl (fun rows outcomes => rows ++ sweepRows cfg rows outcomes) []

/-- The signatures skipped are those that any store gives back for such rows. -/
theorem completedParamSignatures_outcomes (st : RunStateStore) (defaultDatabase e : String)
    {as : List RunAttempt} (h : (as.map (·.runId)).Nodup) :
    completedParamSignatures defaultDatabase (runTable st e as) e =
      some ((completedRows (as.map fun a => (a.params, a.phase))).map paramsSignature) := by
  rw [completedParamSignatures_runTable st defaultDatabase e h]
  simp only [completedParams, completedRows, Worklist.done, List.filter_map, List.map_map,
    Function.comp_def]

/-- A history works through the parameter sets, telling finished ones apart by signature. -/
theorem historyRows_eq (cfg : ExperimentConfig) (sweeps : List (List Phase)) :
    historyRows cfg sweeps =
      Worklist.passes paramsSignature .complete (expandSweep cfg) sweeps := rfl

/-- No parameter set is completed more often than the sweep lists it. -/
theorem count_complete_le (cfg : ExperimentConfig) (sweeps : List (List Phase)) (p : RunParams) :
    (historyRows cfg sweeps).count (p, .complete) ≤ (expandSweep cfg).count p := by
  rw [historyRows_eq]
  exact Worklist.count_finished_le sweeps p

/-- Every row of a history is the row of a swept parameter set. -/
theorem params_mem_of_historyRows (cfg : ExperimentConfig) (sweeps : List (List Phase)) :
    ∀ r ∈ historyRows cfg sweeps, r.1 ∈ expandSweep cfg := by
  rw [historyRows_eq]
  exact Worklist.fst_mem_of_passes sweeps

/-! ## Counts of rows -/

/-- The rows of a phase, counted parameter set by parameter set. -/
theorem count_phase_eq_sum {cfg : ExperimentConfig} {rows : List RunOutcome}
    (h : ∀ r ∈ rows, r.1 ∈ expandSweep cfg) (phase : Phase) :
    (rows.map (·.2)).count phase =
      ∑ p ∈ (expandSweep cfg).toFinset, rows.count (p, phase) := by
  have hkeys := Grouping.countP_eq_sum_keys Prod.fst
    (fun r hr => List.mem_toFinset.mpr (h r hr)) fun r => r.2 == phase
  rw [List.count, List.countP_map]
  refine hkeys.trans (Finset.sum_congr rfl fun p _ => ?_)
  refine List.countP_congr fun r _ => ?_
  obtain ⟨q, ph⟩ := r
  simp

/-- As many completed rows as runs are planned: each parameter set as often as listed. -/
theorem count_complete_eq_iff (cfg : ExperimentConfig) (sweeps : List (List Phase)) :
    ((historyRows cfg sweeps).map (·.2)).count .complete = (expandSweep cfg).length ↔
      ∀ p ∈ expandSweep cfg,
        (historyRows cfg sweeps).count (p, .complete) = (expandSweep cfg).count p := by
  rw [count_phase_eq_sum (params_mem_of_historyRows cfg sweeps),
    ← List.sum_toFinset_count_eq_length,
    Finset.sum_eq_sum_iff_of_le fun p _ => count_complete_le cfg sweeps p]
  simp only [List.mem_toFinset]

/-- The parameter sets with a failed row and no completed one. -/
def unfinishedFailures (cfg : ExperimentConfig) (rows : List RunOutcome) : Finset RunParams :=
  (expandSweep cfg).toFinset.filter fun p => (p, .failed) ∈ rows ∧ (p, .complete) ∉ rows

/-- Failed rows count unfinished parameter sets when each stands alone. -/
theorem count_failed_eq_iff (cfg : ExperimentConfig) (sweeps : List (List Phase)) :
    ((historyRows cfg sweeps).map (·.2)).count .failed =
        (unfinishedFailures cfg (historyRows cfg sweeps)).card ↔
      ∀ p, (p, .failed) ∈ historyRows cfg sweeps →
        (historyRows cfg sweeps).count (p, .failed) = 1 ∧
          (p, .complete) ∉ historyRows cfg sweeps := by
  have hmem := params_mem_of_historyRows cfg sweeps
  generalize historyRows cfg sweeps = rows at hmem ⊢
  have hle : ∀ p ∈ (expandSweep cfg).toFinset,
      (if (p, .failed) ∈ rows ∧ (p, .complete) ∉ rows then 1 else 0) ≤ rows.count (p, .failed) := by
    intro p _
    split
    · rename_i h
      exact List.count_pos_iff.mpr h.1
    · exact Nat.zero_le _
  rw [count_phase_eq_sum hmem, unfinishedFailures, Finset.card_filter, eq_comm,
    Finset.sum_eq_sum_iff_of_le hle]
  constructor
  · intro h p hp
    have heq := h p (List.mem_toFinset.mpr (hmem _ hp))
    have hpos := List.count_pos_iff.mpr hp
    by_cases hc : (p, .complete) ∈ rows
    · rw [if_neg fun hn => hn.2 hc] at heq
      omega
    · rw [if_pos ⟨hp, hc⟩] at heq
      exact ⟨heq.symm, hc⟩
  · intro h p _
    by_cases hp : (p, .failed) ∈ rows
    · obtain ⟨hone, hc⟩ := h p hp
      rw [if_pos ⟨hp, hc⟩, hone]
    · rw [if_neg fun hn => hp hn.1, List.count_eq_zero_of_not_mem hp]

/-! ## The status of the last sweep -/

/-- What the last sweep stores, ending without cancel, pause or infrastructure error. -/
def lastSweepUpdate (cfg : ExperimentConfig) (rows : List RunOutcome) (now : Nat) :
    ExperimentUpdate :=
  let phases := rows.map (·.2)
  let total := (expandSweep cfg).length
  finalUpdate (gridOutcome false false phases phases total) total none now

/-- The stored status and failed count speak of parameter sets. -/
def DescribesParameterSets (cfg : ExperimentConfig) (rows : List RunOutcome)
    (u : ExperimentUpdate) : Prop :=
  (u.status = some .complete ↔ ∀ p ∈ expandSweep cfg, (p, .complete) ∈ rows) ∧
    u.failedCount = some (unfinishedFailures cfg rows).card

theorem lastSweepUpdate_status (cfg : ExperimentConfig) (rows : List RunOutcome) (now : Nat) :
    (lastSweepUpdate cfg rows now).status = some .complete ↔
      (rows.map (·.2)).count .complete = (expandSweep cfg).length ∧
        (rows.map (·.2)).count .failed = 0 := by
  rw [← computeFinalStatus_complete_iff]
  exact Option.some_inj

theorem lastSweepUpdate_failedCount (cfg : ExperimentConfig) (rows : List RunOutcome)
    (now : Nat) :
    (lastSweepUpdate cfg rows now).failedCount = some ((rows.map (·.2)).count .failed) := by
  rw [← computeFinalStatus_failed (rows.map (·.2)) (expandSweep cfg).length]
  rfl

/-- Without repeated entries a completed parameter set is completed as often as listed. -/
theorem count_complete_of_noRepeats {cfg : ExperimentConfig} (h : cfg.NoRepeats)
    (sweeps : List (List Phase)) {p : RunParams} (hp : p ∈ expandSweep cfg)
    (hc : (p, .complete) ∈ historyRows cfg sweeps) :
    (historyRows cfg sweeps).count (p, .complete) = (expandSweep cfg).count p := by
  have hle := count_complete_le cfg sweeps p
  have hpos := List.count_pos_iff.mpr hc
  rw [List.count_eq_one_of_mem (nodup_expandSweep h) hp] at hle ⊢
  omega

/-- When the last sweep's status is about parameter sets: each failed row stands alone, and
    once every set is completed, each is completed as often as listed. The second part is
    free for a configuration without repeated entries. -/
theorem history_status_exact_iff (cfg : ExperimentConfig) (sweeps : List (List Phase))
    (now : Nat) :
    (DescribesParameterSets cfg (historyRows cfg sweeps)
        (lastSweepUpdate cfg (historyRows cfg sweeps) now) ↔
      (∀ p, (p, .failed) ∈ historyRows cfg sweeps →
        (historyRows cfg sweeps).count (p, .failed) = 1 ∧
          (p, .complete) ∉ historyRows cfg sweeps) ∧
      ((∀ p ∈ expandSweep cfg, (p, .complete) ∈ historyRows cfg sweeps) →
        ∀ p ∈ expandSweep cfg,
          (historyRows cfg sweeps).count (p, .complete) = (expandSweep cfg).count p)) ∧
    (cfg.NoRepeats → ∀ p ∈ expandSweep cfg, (p, .complete) ∈ historyRows cfg sweeps →
      (historyRows cfg sweeps).count (p, .complete) = (expandSweep cfg).count p) := by
  refine ⟨?_, fun h p hp hc => count_complete_of_noRepeats h sweeps hp hc⟩
  rw [DescribesParameterSets, lastSweepUpdate_status, lastSweepUpdate_failedCount,
    Option.some_inj, count_failed_eq_iff, count_complete_eq_iff]
  constructor
  · rintro ⟨hstatus, halone⟩
    exact ⟨halone, fun hall => (hstatus.mpr hall).1⟩
  · rintro ⟨halone, hlisted⟩
    refine ⟨⟨fun h p hp => ?_, fun hall => ⟨hlisted hall, ?_⟩⟩, halone⟩
    · have hpos := List.count_pos_iff.mpr hp
      rw [← h.1 p hp] at hpos
      exact List.count_pos_iff.mp hpos
    · rw [(count_failed_eq_iff cfg sweeps).mpr halone, Finset.card_eq_zero,
        Finset.eq_empty_iff_forall_notMem]
      intro p hp
      obtain ⟨hin, -, hnc⟩ := Finset.mem_filter.mp hp
      exact hnc (hall p (List.mem_toFinset.mp hin))

/-- A grid over the chunk sizes 256 and 512. -/
def twoSizes : ExperimentConfig := miniLmGrid .continue 256 [512] [0]

/-- The first size failed and the sweep was paused; the resume completed both sizes. The
    failure that was redone is counted, and the experiment stored as partial. -/
theorem redone_failure_counted :
    let rows := historyRows twoSizes [[.failed], [.complete, .complete]]
    (∀ p ∈ expandSweep twoSizes, (p, .complete) ∈ rows) ∧
      unfinishedFailures twoSizes rows = ∅ ∧
      (lastSweepUpdate twoSizes rows 9).status = some .partialStatus ∧
      (lastSweepUpdate twoSizes rows 9).failedCount = some 1 ∧
      ¬ DescribesParameterSets twoSizes rows (lastSweepUpdate twoSizes rows 9) := by
  have hall : ∀ p ∈ expandSweep twoSizes,
      (p, .complete) ∈ historyRows twoSizes [[.failed], [.complete, .complete]] := by decide
  have hstatus : (lastSweepUpdate twoSizes
      (historyRows twoSizes [[.failed], [.complete, .complete]]) 9).status =
        some .partialStatus := by decide
  refine ⟨hall, by decide, hstatus, by decide, fun h => ?_⟩
  have hcomplete := h.1.mpr hall
  rw [hstatus] at hcomplete
  cases hcomplete

end RagParamsFinder
