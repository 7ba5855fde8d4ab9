/-
  The statistics of the chunks index: `get_experiment_db_stats` and `get_vector_db_stats_grouped`
  of `ElasticsearchVectorStore`, beside the run breakdown of `mongo_stats.py`.

  The total of an experiment is counted; its runs, and the totals of the whole index, come from
  terms aggregations of size 100. Elasticsearch is outside this repository: an aggregation
  returns the largest buckets, in any order (`TermsAggregation`).

  Proved: `statistics_conserve_iff`: the statistics account for every chunk exactly when there
  are at most 100 experiments, and 100 runs in each. `Mongo.runs_conserve`: the run breakdown of
  Mongo always does; `runBreakdown_perm_mongo_iff`: the two agree up to 100 runs.
-/
import Mathlib.Data.String.Basic
import RagParamsFinder.Lib.Buckets
import RagParamsFinder.VectorStores.InsertChunks

namespace RagParamsFinder

open Buckets Grouping

/-! ## The statistics -/

structure RunEntry where
  runId : String
  chunks : Nat
  results : Nat
  deriving DecidableEq, Repr

/-- The statistics of one experiment, without the estimates of storage. -/
structure DbStats where
  databaseProvider : String
  collectionName : String
  clusterHost : Option String
  totalChunks : Nat
  embeddingModels : List String
  indexNames : List String
  chunkingMethods : List String
  chunkingBreakdown : List (String × Nat)
  runsWithData : Nat
  totalResults : Nat
  uniqueQueries : Nat
  runBreakdown : List RunEntry
  deriving DecidableEq, Repr

structure GroupTotals where
  experimentCount : Nat
  totalChunks : Nat
  totalResults : Nat
  totalResultRuns : Nat
  deriving DecidableEq, Repr

structure VectorDbGroup where
  vectorDbId : String
  databaseProvider : String
  collectionName : String
  clusterHost : Option String
  totals : GroupTotals
  deriving DecidableEq, Repr

def vectorDbGroupKey (storageMode : String) (clusterHost : Option String) : String :=
  storageMode ++ ":" ++ clusterHost.getD "unknown"

def newVectorDbGroup (groupKey : String) (stats : DbStats) : VectorDbGroup where
  vectorDbId := groupKey
  databaseProvider := stats.databaseProvider
  collectionName := stats.collectionName
  clusterHost := stats.clusterHost
  totals := ⟨0, 0, 0, 0⟩

namespace Elasticsearch

/-- What the store reads off its settings. -/
structure StoreSettings where
  indexName : String
  clusterHost : Option String
  storageMode : String

/-- `size` of the terms aggregation in `_term_counts`. -/
def termsSize : Nat := 100

/-- The buckets of a field over the documents that a query matches. -/
structure TermsAggregation where
  buckets : Nat → List String → List (String × Nat)
  largest : ∀ size values, Largest size values (buckets size values)

/-- Larger buckets first, and those of one size in the order of their keys. -/
def sortedTerms : TermsAggregation where
  buckets := largestBuckets
  largest := largest_largestBuckets

variable {φ : Type} (settings : StoreSettings) (terms : TermsAggregation)
  (index : List (ChunkSource φ))

def chunksOf (experimentId : String) : List (ChunkSource φ) :=
  index.filter fun chunk => chunk.experimentId = experimentId

/-- `_count`, of a term query for the experiment. -/
def countChunks (experimentId : String) : Nat := (chunksOf index experimentId).length

/-- `_term_counts`. -/
def termCounts (field : ChunkSource φ → String) (experimentId : Option String) :
    List (String × Nat) :=
  let hits := match experimentId with
    | none => index
    | some experimentId => chunksOf index experimentId
  terms.buckets termsSize (hits.map field)

/-- `assemble_experiment_db_stats`, as both methods call it. -/
def assembleDbStats (totalChunks : Nat) (embeddingModels : List String)
    (chunkingBreakdown : List (String × Nat)) (runsWithData : Nat)
    (runBreakdown : List RunEntry) : DbStats where
  databaseProvider := "elasticsearch"
  collectionName := settings.indexName
  clusterHost := settings.clusterHost
  totalChunks := totalChunks
  embeddingModels := embeddingModels
  indexNames := [settings.indexName]
  chunkingMethods := rankBy id (chunkingBreakdown.map (·.1))
  chunkingBreakdown := chunkingBreakdown
  runsWithData := runsWithData
  totalResults := 0
  uniqueQueries := 0
  runBreakdown := runBreakdown

def getExperimentDbStats (experimentId : String) : DbStats :=
  let total := countChunks index experimentId
  let models := (termCounts terms index (·.embeddingModel) (some experimentId)).map (·.1)
  let methods := termCounts terms index (·.chunkMethod) (some experimentId)
  let runs := termCounts terms index (·.runId) (some experimentId)
  let breakdown := (rankBy (·.1) runs).map fun run => ⟨run.1, run.2, 0⟩
  assembleDbStats settings total (rankBy id models) methods runs.length breakdown

/-- The groups of `get_vector_db_stats_grouped`: one, or none for an empty index. -/
def getVectorDbStatsGrouped : List VectorDbGroup :=
  let byExperiment := termCounts terms index (·.experimentId) none
  if byExperiment.isEmpty then []
  else
    let totalChunks := (byExperiment.map (·.2)).sum
    let stats := assembleDbStats settings totalChunks [] [] 0 []
    let groupKey := vectorDbGroupKey settings.storageMode stats.clusterHost
    let group := newVectorDbGroup groupKey stats
    [{ group with
        totals := { group.totals with
          experimentCount := byExperiment.length
          totalChunks := totalChunks } }]

end Elasticsearch

/-! ## Mongo -/

namespace Mongo

/-- What the run counts read of a chunk or a result; `none` where the key is missing. -/
structure RunRef where
  experimentId : Option String
  runId : Option String
  deriving DecidableEq, Repr

/-- The documents that `{"experiment_id": experiment_id}` matches. -/
def matching (collection : List RunRef) (experimentId : String) : List RunRef :=
  collection.filter fun doc => doc.experimentId = some experimentId

/-- `_document_counts_by_run_id`. A group without a run id is skipped. -/
def documentCountsByRunId (collection : List RunRef) (experimentId : String) :
    List (String × Nat) :=
  (bucketsOf ((matching collection experimentId).map (·.runId))).filterMap fun row =>
    match row.1 with
    | some runId => if runId ≠ "" then some (runId, row.2) else none
    | none => none

/-- `_run_breakdown_for_experiment`. -/
def runBreakdownForExperiment (chunks results : List RunRef) (experimentId : String) :
    List RunEntry :=
  let chunkCounts := documentCountsByRunId chunks experimentId
  let resultCounts := documentCountsByRunId results experimentId
  let runIds := firsts ((matching chunks experimentId).filterMap (·.runId))
  runIds.filterMap fun runId =>
    let runChunks := (chunkCounts.lookup runId).getD 0
    let runResults := (resultCounts.lookup runId).getD 0
    if 0 < runChunks ∨ 0 < runResults then some ⟨runId, runChunks, runResults⟩ else none

end Mongo

/-! ## What is claimed -/

/-- The groups account for every chunk and every experiment. -/
def GroupsConserve {φ : Type} (groups : List VectorDbGroup)
    (index : List (Elasticsearch.ChunkSource φ)) : Prop :=
  (groups.map (·.totals.totalChunks)).sum = index.length ∧
    (groups.map (·.totals.experimentCount)).sum = (firsts (index.map (·.experimentId))).length

/-- One entry for each of the runs that the chunks belong to, and their chunks add up to the
    total. -/
def RunsConserve (breakdown : List RunEntry) (totalChunks : Nat) (runIds : List String) : Prop :=
  (breakdown.map (·.runId)).Perm (firsts runIds) ∧
    (breakdown.map (·.chunks)).sum = totalChunks

instance {φ : Type} (groups : List VectorDbGroup) (index : List (Elasticsearch.ChunkSource φ)) :
    Decidable (GroupsConserve groups index) := inferInstanceAs (Decidable (_ ∧ _))

instance (breakdown : List RunEntry) (totalChunks : Nat) (runIds : List String) :
    Decidable (RunsConserve breakdown totalChunks runIds) := inferInstanceAs (Decidable (_ ∧ _))

namespace Elasticsearch

variable {φ : Type} (settings : StoreSettings) (terms : TermsAggregation)
  (index : List (ChunkSource φ))

theorem groupsConserve_iff :
    GroupsConserve (getVectorDbStatsGrouped settings terms index) index ↔
      (firsts (index.map (·.experimentId))).length ≤ termsSize := by
  have h := terms.largest termsSize (index.map (·.experimentId))
  have hsum := h.sum_eq_iff
  have hlen := h.length_eq_iff
  rw [List.length_map] at hsum
  unfold GroupsConserve getVectorDbStatsGrouped termCounts
  cases hb : terms.buckets termsSize (index.map (·.experimentId)) with
  | nil =>
      rw [hb] at hsum hlen
      simp only [List.map_nil, List.sum_nil, List.length_nil] at hsum hlen
      simpa [hsum] using fun hle => hlen.mpr hle
  | cons b bs =>
      rw [hb] at hsum hlen
      simp only [List.isEmpty_cons, Bool.false_eq_true, if_false, List.map_singleton,
        List.sum_singleton]
      exact (and_congr hsum hlen).trans and_self_iff

/-- The entries of the run breakdown are the buckets of the runs, sorted. -/
theorem runBreakdown_perm (experimentId : String) :
    ((getExperimentDbStats settings terms index experimentId).runBreakdown.map
      fun entry => (entry.runId, entry.chunks)).Perm
        (terms.buckets termsSize ((chunksOf index experimentId).map (·.runId))) := by
  have hruns : (getExperimentDbStats settings terms index experimentId).runBreakdown.map
      (fun entry => (entry.runId, entry.chunks)) =
        rankBy (fun run : String × Nat => run.1)
          (terms.buckets termsSize ((chunksOf index experimentId).map (·.runId))) := by
    simp [getExperimentDbStats, assembleDbStats, termCounts, Function.comp_def]
  rw [hruns]
  exact rankBy_perm _ _

theorem runsConserve_iff (experimentId : String) :
    let stats := getExperimentDbStats settings terms index experimentId
    let runIds := (chunksOf index experimentId).map (·.runId)
    RunsConserve stats.runBreakdown stats.totalChunks runIds ↔
      (firsts runIds).length ≤ termsSize := by
  intro stats runIds
  have h := terms.largest termsSize runIds
  have hperm := runBreakdown_perm settings terms index experimentId
  have hkeys := hperm.map Prod.fst
  have hcounts := (hperm.map Prod.snd).sum_eq
  rw [List.map_map] at hkeys hcounts
  have hsum := h.sum_eq_iff
  rw [List.length_map] at hsum
  constructor
  · rintro ⟨-, htotal⟩
    exact hsum.mp (hcounts.symm.trans htotal)
  · intro hle
    refine ⟨hkeys.trans ?_, hcounts.trans (hsum.mpr hle)⟩
    rw [← map_fst_bucketsOf]
    exact (h.perm_iff.mpr hle).map Prod.fst

end Elasticsearch

/-! ## The run breakdown of Mongo -/

namespace Mongo

variable {chunks : List RunRef} {experimentId : String} {runIds : List String}

theorem documentCountsByRunId_eq (hids : (matching chunks experimentId).map (·.runId) =
    runIds.map some) (hne : ∀ runId ∈ runIds, runId ≠ "") :
    documentCountsByRunId chunks experimentId = bucketsOf runIds := by
  rw [documentCountsByRunId, hids, bucketsOf_map (Option.some_injective _), List.filterMap_map]
  refine (List.filterMap_congr fun b hb => ?_).trans List.filterMap_some
  obtain ⟨v, hv, rfl⟩ := List.mem_map.mp hb
  exact if_pos (hne v (mem_firsts.mp hv))

/-- Every run has its entry, with all of its chunks. -/
theorem runBreakdown_eq (hids : (matching chunks experimentId).map (·.runId) = runIds.map some)
    (hne : ∀ runId ∈ runIds, runId ≠ "") (results : List RunRef) :
    (runBreakdownForExperiment chunks results experimentId).map
      (fun entry => (entry.runId, entry.chunks)) = bucketsOf runIds := by
  have hdistinct : (matching chunks experimentId).filterMap (·.runId) = runIds := by
    calc (matching chunks experimentId).filterMap (·.runId)
        = ((matching chunks experimentId).map (·.runId)).filterMap id := by
          rw [List.filterMap_map]
          rfl
      _ = runIds := by
          rw [hids, List.filterMap_map]
          exact List.filterMap_some
  rw [runBreakdownForExperiment, hdistinct, documentCountsByRunId_eq hids hne, List.map_filterMap]
  conv_rhs => rw [bucketsOf, ← List.filterMap_eq_map]
  refine List.filterMap_congr fun runId hrun => ?_
  have hmem := mem_firsts.mp hrun
  have hpos : 0 < runIds.count runId := List.count_pos_iff.mpr hmem
  simp [lookup_bucketsOf hmem, hpos]

theorem runs_conserve (hids : (matching chunks experimentId).map (·.runId) = runIds.map some)
    (hne : ∀ runId ∈ runIds, runId ≠ "") (results : List RunRef) :
    RunsConserve (runBreakdownForExperiment chunks results experimentId)
      (matching chunks experimentId).length runIds := by
  have hpairs := runBreakdown_eq hids hne results
  have hkeys := congrArg (List.map Prod.fst) hpairs
  have hcounts := congrArg (fun bs => (bs.map Prod.snd).sum) hpairs
  have hlen := congrArg List.length hids
  rw [List.map_map, map_fst_bucketsOf] at hkeys
  rw [List.map_map, sum_bucketsOf] at hcounts
  rw [List.length_map, List.length_map] at hlen
  exact ⟨List.Perm.of_eq hkeys, hcounts.trans hlen.symm⟩

end Mongo

/-! ## Both views -/

namespace Elasticsearch

variable {φ : Type} (settings : StoreSettings) (terms : TermsAggregation)
  (index : List (ChunkSource φ))

/-- A chunk as the run counts of Mongo read it. -/
def ChunkSource.runRef (chunk : ChunkSource φ) : Mongo.RunRef :=
  ⟨some chunk.experimentId, some chunk.runId⟩

theorem matching_map_runRef (experimentId : String) :
    (Mongo.matching (index.map ChunkSource.runRef) experimentId).map (·.runId) =
      ((chunksOf index experimentId).map (·.runId)).map some := by
  rw [Mongo.matching, List.filter_map, List.map_map, List.map_map, chunksOf]
  have hsame : ((fun doc : Mongo.RunRef => decide (doc.experimentId = some experimentId)) ∘
      ChunkSource.runRef) =
        fun chunk : ChunkSource φ => decide (chunk.experimentId = experimentId) :=
    funext fun chunk => by simp [ChunkSource.runRef]
  rw [hsame]
  rfl

/-- The stores agree on the runs of the same chunks only up to the size of the aggregation. -/
theorem runBreakdown_perm_mongo_iff (experimentId : String)
    (hne : ∀ chunk ∈ chunksOf index experimentId, chunk.runId ≠ "") (results : List Mongo.RunRef) :
    ((getExperimentDbStats settings terms index experimentId).runBreakdown.map
        fun entry => (entry.runId, entry.chunks)).Perm
      ((Mongo.runBreakdownForExperiment (index.map ChunkSource.runRef) results experimentId).map
        fun entry => (entry.runId, entry.chunks)) ↔
      (firsts ((chunksOf index experimentId).map (·.runId))).length ≤ termsSize := by
  have hruns : ∀ runId ∈ (chunksOf index experimentId).map (·.runId), runId ≠ "" := by
    intro runId h
    obtain ⟨chunk, hchunk, rfl⟩ := List.mem_map.mp h
    exact hne chunk hchunk
  have hperm := runBreakdown_perm settings terms index experimentId
  rw [Mongo.runBreakdown_eq (matching_map_runRef index experimentId) hruns results,
    ← (terms.largest _ _).perm_iff]
  exact ⟨hperm.symm.trans, hperm.trans⟩

end Elasticsearch

/-- For every index content. -/
theorem statistics_conserve_iff {φ : Type} (settings : Elasticsearch.StoreSettings)
    (terms : Elasticsearch.TermsAggregation) (index : List (Elasticsearch.ChunkSource φ)) :
    (GroupsConserve (Elasticsearch.getVectorDbStatsGrouped settings terms index) index ↔
      (firsts (index.map (·.experimentId))).length ≤ 100) ∧
    ∀ experimentId,
      let stats := Elasticsearch.getExperimentDbStats settings terms index experimentId
      let runIds := (Elasticsearch.chunksOf index experimentId).map (·.runId)
      RunsConserve stats.runBreakdown stats.totalChunks runIds ↔ (firsts runIds).length ≤ 100 :=
  ⟨Elasticsearch.groupsConserve_iff settings terms index,
    Elasticsearch.runsConserve_iff settings terms index⟩

/-! ## One too many -/

def chunkIn (experimentId runId : String) : Elasticsearch.ChunkSource Nat where
  chunkId := runId ++ "_0"
  experimentId := experimentId
  runId := runId
  text := "pell grant"
  chunkIndex := 0
  embeddingModel := "all-MiniLM-L6-v2"
  chunkMethod := "recursive"
  chunkSize := 128
  overlap := 0
  padding := 0
  field := "embedding_384"
  embedding := List.replicate 384 0

/-- 101 runs of one chunk each, in an experiment each or all in one. -/
def crowdedIndex (experimentOf : Nat → String) : List (Elasticsearch.ChunkSource Nat) :=
  (List.range 101).map fun i => chunkIn (experimentOf i) (toString i)

def localSettings : Elasticsearch.StoreSettings :=
  ⟨"rpf-chunks", some "localhost", "elasticsearch-local"⟩

theorem hundred_and_first_is_lost :
    ¬GroupsConserve (Elasticsearch.getVectorDbStatsGrouped localSettings Elasticsearch.sortedTerms
        (crowdedIndex toString)) (crowdedIndex toString) ∧
      ¬RunsConserve
        (Elasticsearch.getExperimentDbStats localSettings Elasticsearch.sortedTerms
          (crowdedIndex fun _ => "e") "e").runBreakdown
        (Elasticsearch.getExperimentDbStats localSettings Elasticsearch.sortedTerms
          (crowdedIndex fun _ => "e") "e").totalChunks
        ((Elasticsearch.chunksOf (crowdedIndex fun _ => "e") "e").map (·.runId)) := by
  constructor
  · rw [Elasticsearch.groupsConserve_iff]
    decide +kernel
  · intro h
    have hle := (Elasticsearch.runsConserve_iff localSettings Elasticsearch.sortedTerms _ "e").mp h
    exact absurd hle (by decide +kernel)

end RagParamsFinder
