/-
  Which search indexes a configuration needs, and whether the cluster has them
  (`server/core/guards/search_index_plan.py`, the constants of `server/db/mongo/indexes.py`).

  A set of names is kept as the sorted list of its elements, the order in which the messages
  print it.

  Proved:
  * `mem_known_of_required`: a configuration only needs indexes that the project knows.
  * `assess_isSatisfied_iff`: when an assessment is satisfied.
-/
import Mathlib.Data.String.Basic
import RagParamsFinder.Lib.Grouping
import RagParamsFinder.Models.Config

namespace RagParamsFinder

open Grouping

/-! ## Names -/

def textSearchIndexName : String := "text_search_index"

/-- `VECTOR_INDEX_CONFIGS`: name and dimensions. -/
def vectorIndexConfigs : List (String × Nat) :=
  [("vector_index_1024", 1024), ("vector_index_384", 384), ("vector_index_30522", 30522)]

/-- `M0_SEARCH_INDEX_LIMIT`. -/
def m0SearchIndexLimit : Nat := 3

/-- `ATLAS_MAX_VECTOR_DIMENSIONS`. -/
def atlasMaxVectorDimensions : Nat := 4096

def knownSearchIndexNames : List String :=
  textSearchIndexName :: vectorIndexConfigs.map (·.1)

/-- `vector_index_dimensions`. -/
def vectorIndexDimensions (name : String) : Option Nat := vectorIndexConfigs.lookup name

/-- `get_index_name`. -/
def getIndexName (m : EmbeddingModelId) : String := s!"vector_index_{m.info.dimensions}"

/-- `sorted(set(names))`. -/
def sortedSet (names : List String) : List String := rankBy id (firsts names)

theorem mem_sortedSet {names : List String} {name : String} :
    name ∈ sortedSet names ↔ name ∈ names :=
  (rankBy_perm id _).mem_iff.trans mem_firsts

/-- `required_search_indexes`. -/
def requiredSearchIndexes (config : ExperimentConfig) : List String :=
  let needsText := config.retrieval.retrievers.any fun r => r.type = .sparse ∨ r.type = .hybrid
  sortedSet (config.embedding.models.map getIndexName ++
    if needsText then [textSearchIndexName] else [])

theorem dimensions_mem (m : EmbeddingModelId) :
    m.info.dimensions ∈ vectorIndexConfigs.map (·.2) := by
  have hall : ∀ entry ∈ embeddingModels,
      entry.2.dimensions ∈ vectorIndexConfigs.map (·.2) := by
    decide
  obtain ⟨before, after, hsplit, -⟩ := List.lookup_eq_some_iff.mp m.registered
  exact hall (m.name, m.info) (hsplit ▸ List.mem_append_right _ (List.mem_cons_self ..))

/-- The name of a vector index is made of its dimensions. -/
theorem name_mem_known {dims : Nat} (h : dims ∈ vectorIndexConfigs.map (·.2)) :
    s!"vector_index_{dims}" ∈ knownSearchIndexNames := by
  rcases List.mem_map.mp h with ⟨entry, hentry, rfl⟩
  have hall : ∀ entry ∈ vectorIndexConfigs, s!"vector_index_{entry.2}" = entry.1 := by
    decide +kernel
  rw [hall entry hentry]
  exact List.mem_cons_of_mem _ (List.mem_map_of_mem hentry)

theorem mem_known_of_required {config : ExperimentConfig} {name : String}
    (h : name ∈ requiredSearchIndexes config) : name ∈ knownSearchIndexNames := by
  rcases List.mem_append.mp (mem_sortedSet.mp h) with hvector | htext
  · obtain ⟨m, -, rfl⟩ := List.mem_map.mp hvector
    exact name_mem_known (dimensions_mem m)
  · split at htext
    · exact List.mem_singleton.mp htext ▸ List.mem_cons_self ..
    · cases htext

/-- `validate_vector_index_feasibility`. -/
def validateVectorIndexFeasibility (required : List String) : Option String :=
  let oversized := required.filterMap fun name =>
    if name = textSearchIndexName then none
    else (vectorIndexDimensions name).bind fun dims =>
      if atlasMaxVectorDimensions < dims then some s!"{name} ({dims}-dim)" else none
  let joined := ", ".intercalate oversized
  if oversized.isEmpty then none
  else some (s!"Atlas Vector Search cannot index {joined}; " ++
    s!"maximum is {atlasMaxVectorDimensions} dimensions. " ++
    "Remove unsupported embedding models from the config.")

/-! ## Assessment -/

structure SearchIndexSnapshot where
  chunksReady : List String
  chunksBuilding : List String
  clusterTotal : Nat
  clusterLimit : Nat
  unknownCount : Nat

structure SearchIndexAssessment where
  required : List String
  presentReady : List String
  presentBuilding : List String
  missing : List String
  clusterTotal : Nat
  clusterLimit : Nat
  availableSlots : Nat
  unknownCount : Nat
  failureReason : Option String

def SearchIndexAssessment.isSatisfied (a : SearchIndexAssessment) : Bool :=
  a.failureReason.isNone

/-- `_failure_reason`. -/
def failureReason (required missing presentBuilding : List String) (availableSlots : Nat)
    (snapshot : SearchIndexSnapshot) : Option String :=
  let building := ", ".intercalate presentBuilding
  let missingList := ", ".intercalate missing
  if snapshot.clusterLimit < required.length then
    some (s!"Experiment requires {required.length} search indexes " ++
      s!"but this cluster tier allows {snapshot.clusterLimit}.")
  else if presentBuilding ≠ [] then
    some s!"Required search indexes still building on chunks: {building}."
  else if missing = [] then none
  else if availableSlots < missing.length then
    some (s!"Cannot create required search index(es): {missingList}. " ++
      s!"Need {missing.length} free slot(s) but only {availableSlots} available " ++
      s!"({snapshot.clusterTotal}/{snapshot.clusterLimit} in use).")
  else some s!"Required search index(es) missing on chunks: {missingList}."

/-- `assess_search_index_readiness`. -/
def assessSearchIndexReadiness (required : List String) (snapshot : SearchIndexSnapshot) :
    SearchIndexAssessment :=
  let presentBuilding := required.filter (· ∈ snapshot.chunksBuilding)
  let missing := required.filter fun name =>
    name ∉ snapshot.chunksReady ∧ name ∉ snapshot.chunksBuilding
  let availableSlots := snapshot.clusterLimit - snapshot.clusterTotal
  { required := required
    presentReady := required.filter (· ∈ snapshot.chunksReady)
    presentBuilding := presentBuilding
    missing := missing
    clusterTotal := snapshot.clusterTotal
    clusterLimit := snapshot.clusterLimit
    availableSlots := availableSlots
    unknownCount := snapshot.unknownCount
    failureReason := failureReason required missing presentBuilding availableSlots snapshot }

theorem failureReason_eq_none_iff {required missing presentBuilding : List String}
    {availableSlots : Nat} {snapshot : SearchIndexSnapshot} :
    failureReason required missing presentBuilding availableSlots snapshot = none ↔
      required.length ≤ snapshot.clusterLimit ∧ presentBuilding = [] ∧ missing = [] := by
  unfold failureReason
  dsimp only
  split
  · rename_i hlimit
    exact ⟨fun h => absurd h (Option.some_ne_none _), fun h => absurd h.1 (not_le.mpr hlimit)⟩
  · rename_i hlimit
    split
    · rename_i hbuilding
      exact ⟨fun h => absurd h (Option.some_ne_none _), fun h => absurd h.2.1 hbuilding⟩
    · rename_i hbuilding
      split
      · rename_i hmissing
        exact ⟨fun _ => ⟨not_lt.mp hlimit, not_not.mp hbuilding, hmissing⟩, fun _ => rfl⟩
      · rename_i hmissing
        refine ⟨fun h => ?_, fun h => absurd h.2.2 hmissing⟩
        split at h <;> exact absurd h (Option.some_ne_none _)

/-- Satisfied means that the tier allows the indexes and that all are ready. -/
theorem assess_isSatisfied_iff {required : List String} {snapshot : SearchIndexSnapshot} :
    (assessSearchIndexReadiness required snapshot).isSatisfied ↔
      required.length ≤ snapshot.clusterLimit ∧
        ∀ name ∈ required, name ∈ snapshot.chunksReady ∧ name ∉ snapshot.chunksBuilding := by
  rw [SearchIndexAssessment.isSatisfied, Option.isNone_iff_eq_none]
  refine failureReason_eq_none_iff.trans (and_congr_right fun _ => ?_)
  rw [List.filter_eq_nil_iff, List.filter_eq_nil_iff]
  simp only [decide_eq_true_eq]
  constructor
  · rintro ⟨hbuilding, hmissing⟩ name hname
    by_contra hnot
    exact hmissing name hname ⟨fun hready => hnot ⟨hready, hbuilding name hname⟩,
      hbuilding name hname⟩
  · intro h
    exact ⟨fun name hname => (h name hname).2, fun name hname hmiss => hmiss.1 (h name hname).1⟩

/-- `str` of a list of index names. -/
def pyList (names : List String) : String :=
  "[" ++ ", ".intercalate (names.map fun name => "'" ++ name ++ "'") ++ "]"

/-- `format_mismatch_message`. -/
def formatMismatchMessage (a : SearchIndexAssessment) : String :=
  match a.failureReason with
  | none => "Search indexes satisfy experiment requirements."
  | some reason =>
      let requiredNames := pyList a.required
      let readyNames := pyList a.presentReady
      let missingNames := pyList a.missing
      let lines :=
        [reason,
          s!"Required: {requiredNames}; ready on chunks: {readyNames}; " ++
            s!"missing: {missingNames}.",
          s!"Cluster search indexes: {a.clusterTotal}/{a.clusterLimit} " ++
            s!"({a.availableSlots} slot(s) available)."] ++
        if a.unknownCount = 0 then [] else
          [s!"{a.unknownCount} unknown index(es) consume quota — " ++
            "run `rag-params-finder indexes reset --unknown-only`."]
      " ".intercalate lines

end RagParamsFinder
