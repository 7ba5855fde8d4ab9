/-
  The counts of a planned sweep: `sweep_plan` (`server/models/config.py`), the estimate of the
  Redis preflight (`run_config_preflight`, `server/db/redis/redis_store.py`), and the formula
  that the dashboard makes (`frontend/src/utils/sweepFormula.ts`) of the `sweep_summary` that
  `create_experiment` stores. Each multiplies the dimensions of `expand_sweep` on its own.

  The frontend's numbers are exact up to 2^53, more runs than `create_experiment` can expand.
  Of the summary, the fields that the formula reads are kept.

  Proved:
  * `fullGridCount_eq`, `sweepFormula_product`: the plan and the dashboard count the runs.
  * `numRuns_eq_iff`: the preflight leaves out the paddings and the default retriever, so for
    some configurations it does not count the runs.
-/
import Mathlib.Tactic.Ring
import RagParamsFinder.Lib.Ranking
import RagParamsFinder.Lifecycle.Sweep

namespace RagParamsFinder

open Grouping Ranking

/-! ## `sweep_plan` -/

structure DimensionCounts where
  models : Nat
  chunkingMethods : Nat
  chunkSizes : Nat
  overlaps : Nat
  paddings : Nat
  retrievers : Nat
  deriving DecidableEq, Repr

/-- `prod(counts.values())`. -/
def DimensionCounts.product (d : DimensionCounts) : Nat :=
  [d.models, d.chunkingMethods, d.chunkSizes, d.overlaps, d.paddings, d.retrievers].prod

structure SweepPlan where
  dimensionCounts : DimensionCounts
  fullGridCount : Nat
  searchableSpace : Option Nat
  plannedRuns : Nat
  searchStrategy : SearchStrategy
  warnings : List String
  deriving DecidableEq, Repr

/-- `sorted({...})`. -/
def sortedIntSet (xs : List Int) : List Int := rankBy id (firsts xs)

/-- `f"{xs}"`. -/
def intList (xs : List Int) : String := "[" ++ ", ".intercalate (xs.map toString) ++ "]"

/-- `_plan_warnings`. -/
def planWarnings (params : ChunkParams) : List String :=
  let badOverlaps :=
    sortedIntSet (params.chunkSizes.flatMap fun s => params.overlaps.filter (s ≤ ·))
  let smallest := params.chunkSizes.min params.chunkSizes_ne
  let badPaddings := sortedIntSet (params.paddings.filter (smallest < ·))
  (if badOverlaps ≠ [] then
    ["overlap " ++ intList badOverlaps ++ " is >= a chunk size in " ++
      intList (sortedIntSet params.chunkSizes)]
  else []) ++
  (if badPaddings ≠ [] then
    ["padding " ++ intList badPaddings ++ s!" is larger than the smallest chunk size {smallest}"]
  else [])

/-- Python's `len(xs) or 1`. -/
def lengthOrOne {α : Type} (xs : List α) : Nat := if xs.length = 0 then 1 else xs.length

def dimensionCounts (cfg : ExperimentConfig) : DimensionCounts where
  models := cfg.embedding.models.length
  chunkingMethods := cfg.chunking.methods.length
  chunkSizes := cfg.chunking.params.chunkSizes.length
  overlaps := cfg.chunking.params.overlaps.length
  paddings := lengthOrOne cfg.chunking.params.paddings
  retrievers := lengthOrOne cfg.retrieval.retrievers

/-- `sweep_plan`; `_bayesian_trial_budget` is the number that `resolve_bayesian_n_trials`
    logs. -/
def sweepPlan (cfg : ExperimentConfig) : SweepPlan where
  dimensionCounts := dimensionCounts cfg
  fullGridCount := (dimensionCounts cfg).product
  searchableSpace := if cfg.isBayesian then some (gridEquivalentCount cfg) else none
  plannedRuns :=
    if cfg.isBayesian then resolveBayesianNTrials cfg else (dimensionCounts cfg).product
  searchStrategy := cfg.execution.searchStrategy
  warnings := planWarnings cfg.chunking.params

theorem lengthOrOne_pos {α : Type} (xs : List α) : 0 < lengthOrOne xs := by
  unfold lengthOrOne
  split <;> omega

theorem lengthOrOne_eq_one_iff {α : Type} {xs : List α} : lengthOrOne xs = 1 ↔ xs.length ≤ 1 := by
  unfold lengthOrOne
  split <;> omega

theorem length_orSingleton {α : Type} (xs : List α) (x : α) :
    (orSingleton xs x).length = lengthOrOne xs := by
  cases xs with
  | nil => rfl
  | cons y ys => simp [orSingleton, lengthOrOne]

/-- `expand_sweep` has as many runs as the dimensions say. -/
theorem length_expandSweep_eq (cfg : ExperimentConfig) :
    (expandSweep cfg).length = (dimensionCounts cfg).product := by
  rw [length_expandSweep, paddingsToSweep, retrieversToSweep, length_orSingleton,
    length_orSingleton]
  simp [DimensionCounts.product, dimensionCounts]

theorem fullGridCount_eq (cfg : ExperimentConfig) :
    (sweepPlan cfg).fullGridCount = (expandSweep cfg).length :=
  (length_expandSweep_eq cfg).symm

/-- The run count of the response to a creation. -/
theorem plannedRuns_eq (cfg : ExperimentConfig) :
    (sweepPlan cfg).plannedRuns = plannedRunCount cfg := by
  rw [plannedRunCount, length_expandSweep_eq]
  rfl

/-! ## The Redis preflight -/

/-- `num_runs` of `run_config_preflight`. -/
def numRuns (cfg : ExperimentConfig) : Nat :=
  cfg.embedding.models.length * cfg.chunking.methods.length *
    cfg.chunking.params.chunkSizes.length * cfg.chunking.params.overlaps.length *
      cfg.retrieval.retrievers.length

/-- What `run_preflight` is asked to find room for. -/
structure PlannedVectors where
  plannedVectors : Nat
  dims : Nat
  deriving DecidableEq, Repr

/-- `run_config_preflight`, up to the call. -/
def runConfigPreflight (cfg : ExperimentConfig) : PlannedVectors where
  plannedVectors := numRuns cfg * 500
  dims := (cfg.embedding.models.map (·.info.dimensions)).max?.getD 384

/-- The four dimensions that the preflight and the expansion count alike. -/
def commonRuns (cfg : ExperimentConfig) : Nat :=
  cfg.embedding.models.length * cfg.chunking.methods.length *
    cfg.chunking.params.chunkSizes.length * cfg.chunking.params.overlaps.length

theorem length_expandSweep_common (cfg : ExperimentConfig) :
    (expandSweep cfg).length = commonRuns cfg * (lengthOrOne cfg.chunking.params.paddings *
      lengthOrOne cfg.retrieval.retrievers) := by
  rw [length_expandSweep_eq]
  simp only [commonRuns, DimensionCounts.product, dimensionCounts, List.prod_cons, List.prod_nil]
  ring

theorem commonRuns_eq_zero_iff (cfg : ExperimentConfig) :
    commonRuns cfg = 0 ↔
      cfg.embedding.models = [] ∨ cfg.chunking.methods = [] ∨
        cfg.chunking.params.overlaps = [] := by
  have hsizes := cfg.chunking.params.chunkSizes_ne
  simp only [commonRuns, Nat.mul_eq_zero, List.length_eq_zero_iff, hsizes, or_false, or_assoc]

/-- One padding at most and a configured retriever, or nothing to run. -/
def PreflightCounts (cfg : ExperimentConfig) : Prop :=
  (cfg.embedding.models = [] ∨ cfg.chunking.methods = [] ∨ cfg.chunking.params.overlaps = []) ∨
    cfg.chunking.params.paddings.length ≤ 1 ∧ cfg.retrieval.retrievers ≠ []

theorem numRuns_eq_iff (cfg : ExperimentConfig) :
    numRuns cfg = (expandSweep cfg).length ↔ PreflightCounts cfg := by
  rw [PreflightCounts, ← commonRuns_eq_zero_iff, ← lengthOrOne_eq_one_iff,
    length_expandSweep_common]
  change commonRuns cfg * cfg.retrieval.retrievers.length = _ ↔ _
  rcases Nat.eq_zero_or_pos (commonRuns cfg) with hnone | hpos
  · exact iff_of_true (by rw [hnone, Nat.zero_mul, Nat.zero_mul]) (Or.inl hnone)
  · rw [Nat.mul_right_inj hpos.ne', or_iff_right hpos.ne']
    cases hret : cfg.retrieval.retrievers with
    | nil =>
        have hpads := lengthOrOne_pos cfg.chunking.params.paddings
        exact iff_of_false (Nat.mul_pos hpads (lengthOrOne_pos _)).ne fun h => h.2 rfl
    | cons r rs =>
        have hone : lengthOrOne (r :: rs) = (r :: rs).length := if_neg (by simp)
        rw [hone, eq_comm, Nat.mul_eq_right (by simp), and_iff_left (List.cons_ne_nil r rs)]

/-! ## The dashboard -/

/-- `retriever_labels`. -/
def retrieverLabel (r : RetrieverConfig) : String :=
  match r.model with
  | some m =>
      if (r.type = .reranker ∨ r.type = .crossEncoder) ∧ m ≠ "" then r.type.value ++ ": " ++ m
      else r.type.value
  | none => r.type.value

/-- `SweepSummary`, as the frontend declares it. -/
structure SweepSummary where
  models : List String
  chunkingMethods : List String
  chunkSizes : List Int
  overlaps : List Int
  paddings : Option (List Int)
  retrievers : Option (List String)
  retrievalMethods : Option (List String)
  deriving DecidableEq, Repr

/-- `sweep_summary` of `create_experiment`. -/
def sweepSummary (cfg : ExperimentConfig) : SweepSummary where
  models := cfg.embedding.models.map (·.name)
  chunkingMethods := cfg.chunking.methods.map (·.value)
  chunkSizes := cfg.chunking.params.chunkSizes
  overlaps := cfg.chunking.params.overlaps
  paddings := some cfg.chunking.params.paddings
  retrievers := some (cfg.retrieval.retrievers.map retrieverLabel)
  retrievalMethods := some (cfg.retrieval.retrievers.map (·.type.value))

structure FormulaTerm where
  count : Nat
  label : String
  deriving DecidableEq, Repr

structure SweepFormula where
  terms : List FormulaTerm
  unit : String
  deriving DecidableEq, Repr

def formulaProduct (terms : List FormulaTerm) : Nat :=
  terms.foldl (fun product term => product * term.count) 1

/-- `items?.length || 1`. -/
def atLeastOne {α : Type} (items : Option (List α)) : Nat :=
  match items with
  | some xs => lengthOrOne xs
  | none => 1

/-- `retrieverList`: an empty list falls back to the legacy one. -/
def retrieverList (summary : SweepSummary) : Option (List String) :=
  match summary.retrievers with
  | some (r :: rs) => some (r :: rs)
  | _ => summary.retrievalMethods

def sweepFormulaFromSummary (summary : SweepSummary) : SweepFormula where
  terms :=
    [⟨summary.models.length, "model"⟩,
     ⟨summary.chunkingMethods.length, "chunking method"⟩,
     ⟨summary.chunkSizes.length, "size"⟩,
     ⟨summary.overlaps.length, "overlap"⟩,
     ⟨atLeastOne summary.paddings, "padding"⟩,
     ⟨atLeastOne (retrieverList summary), "retriever"⟩]
  unit := "configuration"

/-- Without configured retrievers the legacy list is empty too. -/
theorem atLeastOne_retrieverList (cfg : ExperimentConfig) :
    atLeastOne (retrieverList (sweepSummary cfg)) = lengthOrOne cfg.retrieval.retrievers := by
  unfold retrieverList sweepSummary
  cases cfg.retrieval.retrievers with
  | nil => rfl
  | cons r rs => simp [atLeastOne, lengthOrOne]

theorem sweepFormula_product (cfg : ExperimentConfig) :
    formulaProduct (sweepFormulaFromSummary (sweepSummary cfg)).terms =
      (expandSweep cfg).length := by
  rw [length_expandSweep_eq]
  simp only [sweepFormulaFromSummary, formulaProduct, List.foldl_cons, List.foldl_nil,
    atLeastOne_retrieverList]
  simp only [DimensionCounts.product, dimensionCounts, sweepSummary, atLeastOne, List.length_map,
    List.prod_cons, List.prod_nil]
  ring

end RagParamsFinder
