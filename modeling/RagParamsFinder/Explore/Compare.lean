/-
  The cross-store compare (`server/core/compare.py`): completed runs of all experiments,
  grouped by data, questions and configuration, one run for each store in a group, each group
  ranked by one call of `analyze_results`.

  Documents are those of the run-state stores; `StoredBundles` says what is assumed of them
  (string run ids, unique over all bundles, an id for each experiment, and run fields of the
  declared types). The digest of a group and the one of a questions file are parameters, and
  nothing is assumed of them. The fields of a compared run that are copies from its documents
  stay in its candidate.

  Proved:
  * `lookupKey_of_mem`, `buildCompare_eq`: a ranked entry is always traced back to its run, so
    nothing raises.
  * `shown_groups`, `accounted_groups`: the groups show the winners of the slots that have a
    hit, and no candidate is lost count of.
  * `build_compare_sound`: the whole contract, with the orders that do not matter.
-/
import Mathlib.Data.List.Find
import Mathlib.Data.Prod.Lex
import RagParamsFinder.Explore.SoundRanking
import RagParamsFinder.Lib.Traversals

namespace RagParamsFinder

open Documents Grouping Ranking Traversals

/-! ## Bundles -/

/-- An experiment, its run statuses and its results (`ExperimentBundle`). -/
structure Bundle where
  experiment : Doc
  runs : List Doc
  results : List QueryResult

/-- `_config`. -/
def configOf (experiment : Doc) : Doc :=
  match experiment.get "config" with
  | .dict config => config
  | _ => []

/-- `_stamp`; a missing date-time is 0. -/
def stampOf (experiment : Doc) : Int :=
  match (experiment.get "completed_at").orElse (experiment.get "created_at") with
  | .time t => t.instant
  | _ => 0

/-- A setting of the config, or else of the experiment. -/
def settingOf (experiment : Doc) (k : String) (default : Value) : Value :=
  ((configOf experiment).get k).orElse ((experiment.get k).orElse default)

/-- What is hashed into a group id. -/
structure GroupPayload where
  configKey : KeyFields Value
  dataPaths : Value
  queriesFile : Value
  questionsSha : String

structure Candidate where
  run : Doc
  experiment : Doc
  store : String
  groupId : String
  stamp : Int
  runId : String

/-- The text of a string. -/
def textOf : Value → Option String
  | .str s => some s
  | _ => none

/-- `str(run["run_id"])` of a stored run. -/
def runIdOf (run : Doc) : Option String := run.item "run_id" >>= textOf

/-- `ELIGIBLE_STATUSES`. -/
def eligibleStatuses : List String :=
  [ExperimentStatus.complete.value, ExperimentStatus.partialStatus.value]

section Build

variable (digest : GroupPayload → Option String) (shaOf : Value → String) (useQueryAvg : Bool)
  (defaultDatabase : String)

/-- `group_id_for`; `none` is one of the exceptions that `_candidates` passes over. -/
def groupIdFor (run experiment : Doc) (questionsSha : String) : Option String := do
  let key ← (runConfigKey defaultDatabase (run.set "database_provider" (.str ""))).toOption
  digest
    { configKey := key
      dataPaths := settingOf experiment "data_paths" (.list [])
      queriesFile := settingOf experiment "queries_file" (.str "")
      questionsSha := questionsSha }

/-- `run["database_provider"]`, or the one of the config; `none` when there is neither. -/
def storeOf (experiment run : Doc) : Option String :=
  (textOf ((run.get "database_provider").orElse
    ((configOf experiment).get "database_provider"))).filter (· ≠ "")

def questionsShaOf (experiment : Doc) : String :=
  let queriesFile := settingOf experiment "queries_file" (.str "")
  if queriesFile.truthy then shaOf queriesFile else ""

/-- One round of the loop of `_candidates`. -/
def candidateOf (b : Bundle) (run : Doc) : Option Candidate := do
  let store ← storeOf b.experiment run
  let runId ← runIdOf run
  if (run.get "phase").isStr Phase.complete.value ∧ runId ∈ b.results.map (·.runId) then
    let run := run.set "database_provider" (.str store)
    let groupId ← groupIdFor digest defaultDatabase run b.experiment
      (questionsShaOf shaOf b.experiment)
    return { run, experiment := b.experiment, store, groupId, stamp := stampOf b.experiment,
             runId }
  else none

/-- `_candidates`. -/
def candidatesOf (b : Bundle) : List Candidate :=
  if eligibleStatuses.any fun s => (b.experiment.get "status").isStr s then
    b.runs.filterMap (candidateOf digest shaOf defaultDatabase b)
  else []

/-- The candidates of all bundles. -/
def allCandidates (bundles : List Bundle) : List Candidate :=
  bundles.flatMap (candidatesOf digest shaOf defaultDatabase)

def Candidate.slot (c : Candidate) : String × String := (c.store, c.groupId)

/-- The most recent experiment first, then the lowest run id. -/
def Candidate.recency (c : Candidate) : Lex (Int × String) := toLex (-c.stamp, c.runId)

/-- `_latest_per_store_and_group`. -/
def latestPerStoreAndGroup (candidates : List Candidate) : List Candidate :=
  leastPer Candidate.recency Candidate.slot candidates

/-- `count_duplicates_collapsed`. -/
def countDuplicatesCollapsed (slotKeys : List (String × String)) : Nat :=
  slotKeys.length - (firsts slotKeys).length

/-! ## Ranking a group -/

/-- A run of a group, with the entry of the ranking that is its own. -/
structure ComparedRun where
  candidate : Candidate
  experimentId : Value
  rank : Nat
  storeRank : Nat
  entry : RankedConfig

structure ComparedGroup where
  groupId : String
  runs : List ComparedRun

/-- `by_key[...]`; `none` is `KeyError`. -/
def lookupKey (byKey : List (ConfigKey × Candidate)) (key : ConfigKey) : Option Candidate :=
  (byKey.reverse.find? fun kc => kc.1 == key).map (·.2)

/-- The rows of the ranking: `shown` counts the rows of each store before this one. -/
def compareRows (byKey : List (ConfigKey × Candidate)) :
    List String → List RankedConfig → Option (List ComparedRun)
  | _, [] => some []
  | shown, entry :: ranked => do
      let c ← lookupKey byKey entry.key
      let experimentId ← c.experiment.item "experiment_id"
      let rest ← compareRows byKey (shown ++ [c.store]) ranked
      let run : ComparedRun :=
        { candidate := c
          experimentId := experimentId
          rank := shown.length + 1
          storeRank := shown.count c.store + 1
          entry := entry }
      return run :: rest

/-- `_rank_group`; `resultsByRun` is the dictionary of all results. -/
def rankGroup (resultsByRun : String → List QueryResult) (members : List Candidate) :
    Option (List ComparedRun) := do
  let members := rankBy (·.runId) members
  let response ← analyzeResults useQueryAvg defaultDatabase
    (members.flatMap fun c => resultsByRun c.runId) (members.map (·.run)) none
  let keys ← members.mapM fun c => (hashedKey defaultDatabase c.run).toOption
  compareRows (keys.zip members) [] response.rankedConfigs

/-! ## The response -/

structure Compare where
  groups : List ComparedGroup
  stores : List String
  groupCount : Nat
  runCount : Nat
  crossStoreGroupCount : Nat
  duplicatesCollapsed : Nat

/-- `results_by_run`. -/
def resultsOf (bundles : List Bundle) (runId : String) : List QueryResult :=
  (bundles.flatMap (·.results)).filter (·.runId = runId)

def ComparedGroup.topScore (g : ComparedGroup) : Int :=
  (g.runs.head?.map (·.entry.maxScore)).getD 0

def ComparedGroup.stores (g : ComparedGroup) : List String := g.runs.map (·.candidate.store)

/-- The response for the ranked groups; a group without a run is left out. -/
def compareOf (candidates : List Candidate) (ranked : List ComparedGroup) : Compare :=
  let groups := rankBy (fun g : ComparedGroup => toLex (-g.topScore, g.groupId))
    (ranked.filter fun g => !g.runs.isEmpty)
  { groups := groups
    stores := rankBy id (firsts (groups.flatMap (·.stores)))
    groupCount := groups.length
    runCount := (groups.map (·.runs.length)).sum
    crossStoreGroupCount := groups.countP fun g => 1 < (firsts g.stores).length
    duplicatesCollapsed := countDuplicatesCollapsed (candidates.map (·.slot)) }

/-- `build_compare`. -/
def buildCompare (bundles : List Bundle) : Option Compare := do
  let candidates := allCandidates digest shaOf defaultDatabase bundles
  let latest := latestPerStoreAndGroup candidates
  let ranked ← (firsts (latest.map (·.groupId))).mapM fun gid => do
    let runs ← rankGroup useQueryAvg defaultDatabase (resultsOf bundles)
      (latest.filter (·.groupId = gid))
    return ComparedGroup.mk gid runs
  return compareOf candidates ranked

end Build

/-! ## What the stores return -/

def isStrValue : Value → Bool
  | .str _ => true
  | _ => false

def isInt : Value → Bool
  | .int _ => true
  | _ => false

def isTextOrNull : Value → Bool
  | .str _ => true
  | .null => true
  | _ => false

/-- An entry of `retrievers`. -/
def isRetriever : Value → Bool
  | .dict kvs => (Doc.item kvs "type").all isStrValue && (Doc.item kvs "model").all isTextOrNull
  | _ => false

def isRetrieverList : Value → Bool
  | .list vs => vs.all isRetriever
  | .null => true
  | _ => false

/-- The components of a configuration key, where a stored run has them, are of the types that
    `RunStatus` declares. -/
structure TypedFields (run : Doc) : Prop where
  texts : ∀ k ∈ ["retrieval_method", "embedding_provider", "embedding_model", "chunking_method",
    "retrieval_provider"], (run.item k).all isStrValue
  ints : ∀ k ∈ ["chunk_size", "overlap", "padding"], (run.item k).all isInt
  optional : ∀ k ∈ ["database_provider", "retrieval_model"], (run.item k).all isTextOrNull

/-- So are its retrievers. -/
structure TypedRun (run : Doc) : Prop extends TypedFields run where
  retrievers : (run.item "retrievers").all isRetrieverList

/-- Bundles as the run-state stores return them. -/
structure StoredBundles where
  bundles : List Bundle
  runIds : ∀ b ∈ bundles, ∀ run ∈ b.runs, (runIdOf run).isSome
  unique : ((bundles.flatMap (·.runs)).map runIdOf).Nodup
  experimentIds : ∀ b ∈ bundles, (b.experiment.item "experiment_id").isSome
  stores : ∀ b ∈ bundles, isTextOrNull ((configOf b.experiment).get "database_provider")
  typed : ∀ b ∈ bundles, ∀ run ∈ b.runs, TypedRun run

theorem all_item_of_get {run : Doc} {k : String} {v : Value} {p : Value → Bool}
    (h : run.get k = v) (hp : p v = true) : (run.item k).all p = true :=
  Doc.all_item_of_get (h.symm ▸ hp)

theorem isTextOrNull_getD (s : Option String) : isTextOrNull ((s.map Value.str).getD .null) := by
  cases s with
  | none => rfl
  | some s => rfl

/-- Every run row of the pipeline is typed, in all three stores. -/
theorem typedRun_settledRun (st : RunStateStore) (e : String) (a : RunAttempt) :
    TypedRun (settledRun st e a).readDoc := by
  have hget := fun k (hup : k ∉ settledKeys) (hid : k ∉ derivedKeys) =>
    get_readDoc_settledRun st e a hup hid
  have hretrievers : isRetrieverList (.list (a.params.retrievers.map retrieverDump)) := by
    refine List.all_eq_true.mpr fun v hv => ?_
    obtain ⟨r, -, rfl⟩ := List.mem_map.mp hv
    simp [retrieverDump, isRetriever, Doc.item, List.lookup_cons, isStrValue, isTextOrNull_getD]
  refine ⟨⟨?_, ?_, ?_⟩, all_item_of_get (hget _ (by decide) (by decide)) hretrievers⟩
  · simp only [List.forall_mem_cons, List.not_mem_nil, false_implies, implies_true, and_true]
    refine ⟨?_, ?_, ?_, ?_, ?_⟩ <;>
      exact all_item_of_get (hget _ (by decide) (by decide)) rfl
  · simp only [List.forall_mem_cons, List.not_mem_nil, false_implies, implies_true, and_true]
    refine ⟨?_, ?_, ?_⟩ <;> exact all_item_of_get (hget _ (by decide) (by decide)) rfl
  · simp only [List.forall_mem_cons, List.not_mem_nil, false_implies, implies_true, and_true]
    exact ⟨all_item_of_get (hget _ (by decide) (by decide)) rfl,
      all_item_of_get (hget _ (by decide) (by decide)) (isTextOrNull_getD _)⟩

/-- An experiment that completed, the attempts at its runs and what they retrieved. -/
structure EndedExperiment where
  store : RunStateStore
  experimentId : String
  database : DatabaseProvider
  completedAt : DateTime
  attempts : List RunAttempt
  results : List QueryResult

namespace EndedExperiment

def experiment (x : EndedExperiment) : Doc :=
  [("experiment_id", .str x.experimentId),
   ("status", .str ExperimentStatus.complete.value),
   ("completed_at", .time x.completedAt),
   ("config", .dict [("database_provider", .str x.database.value)])]

/-- Its bundle: the run rows are those that its attempts have left. -/
def bundle (x : EndedExperiment) : Bundle where
  experiment := x.experiment
  runs := x.attempts.map fun a => (settledRun x.store x.experimentId a).readDoc
  results := x.results

theorem runIdOf_settledRun (st : RunStateStore) (e : String) (a : RunAttempt) :
    runIdOf (settledRun st e a).readDoc = some a.runId := by
  cases st <;> rfl

theorem runIds_bundle (x : EndedExperiment) :
    x.bundle.runs.map runIdOf = x.attempts.map fun a => some a.runId := by
  simp [bundle, runIdOf_settledRun]

/-- Ended experiments whose run ids are distinct make bundles as the stores return them. -/
def storedBundles (xs : List EndedExperiment)
    (h : ((xs.flatMap (·.attempts)).map (·.runId)).Nodup) : StoredBundles where
  bundles := xs.map bundle
  runIds := by
    intro b hb run hrun
    obtain ⟨x, -, rfl⟩ := List.mem_map.mp hb
    obtain ⟨a, -, rfl⟩ := List.mem_map.mp hrun
    rw [runIdOf_settledRun]
    rfl
  unique := by
    have hids : ((xs.map bundle).flatMap (·.runs)).map runIdOf =
        ((xs.flatMap (·.attempts)).map (·.runId)).map some := by
      rw [List.flatMap_map, List.map_flatMap]
      simp only [runIds_bundle, List.map_flatMap, List.map_map, Function.comp_def]
    rw [hids]
    exact h.map (Option.some_injective _)
  experimentIds := by
    intro b hb
    obtain ⟨x, -, rfl⟩ := List.mem_map.mp hb
    rfl
  stores := by
    intro b hb
    obtain ⟨x, -, rfl⟩ := List.mem_map.mp hb
    rfl
  typed := by
    intro b hb run hrun
    obtain ⟨x, -, rfl⟩ := List.mem_map.mp hb
    obtain ⟨a, -, rfl⟩ := List.mem_map.mp hrun
    exact typedRun_settledRun x.store x.experimentId a

end EndedExperiment

/-! ## Candidates -/

section Candidates

variable {defaultDatabase : String}

/-- The database of a run enters its key as it is, and nothing else depends on it. -/
theorem runConfigKey_of_database {run : Doc} {store : String}
    (h : run.item "database_provider" = some (.str store)) :
    runConfigKey defaultDatabase run =
      (runConfigKey defaultDatabase (run.set "database_provider" (.str ""))).map fun key =>
        { key with databaseProvider := .str store } := by
  have hitem : ∀ k, "database_provider" ≠ k →
      (run.set "database_provider" (.str "")).item k = run.item k :=
    fun k hk => Doc.item_set_of_ne run hk _
  have hget : ∀ k, "database_provider" ≠ k →
      (run.set "database_provider" (.str "")).get k = run.get k :=
    fun k hk => Doc.get_set_of_ne run hk _
  have hdefault : ∀ k v, "database_provider" ≠ k →
      (run.set "database_provider" (.str "")).getDefault k v = run.getDefault k v :=
    fun k v hk => congrArg (Option.getD · v) (hitem k hk)
  have hdb : run.getDefault "database_provider" (.str defaultDatabase) = .str store :=
    congrArg (Option.getD · _) h
  have hdb' : (run.set "database_provider" (.str "")).getDefault "database_provider"
      (.str defaultDatabase) = .str "" :=
    congrArg (Option.getD · _) (Doc.item_set_self run _ _)
  change _ = (fun key : KeyFields Value =>
    { key with databaseProvider := Value.str store }) <$> _
  unfold runConfigKey primaryRetriever
  rw [hdb, hdb', hitem _ (by decide), hitem _ (by decide), hitem _ (by decide),
    hitem _ (by decide), hitem _ (by decide), hget _ (by decide), hget _ (by decide),
    hdefault _ _ (by decide), hdefault _ _ (by decide), hdefault _ _ (by decide)]
  simp only [map_bind, map_pure]

theorem isSome_hashed_of_str {v : Value} (h : isStrValue v = true) : v.hashed.isSome := by
  cases v <;> first | rfl | cases h

theorem isSome_hashed_of_textOrNull {v : Value} (h : isTextOrNull v = true) :
    v.hashed.isSome := by
  cases v <;> first | rfl | cases h

theorem isSome_hashed_orElse {v w : Value} (hv : v.hashed.isSome) (hw : w.hashed.isSome) :
    (v.orElse w).hashed.isSome := by
  unfold Value.orElse
  split
  · exact hv
  · exact hw

theorem isSome_hashed_getDefault {run : Doc} {k : String} {p : Value → Bool} {default : Value}
    (hp : ∀ {v : Value}, p v = true → v.hashed.isSome) (h : (run.item k).all p = true)
    (hdefault : default.hashed.isSome) : (run.getDefault k default).hashed.isSome := by
  change ((run.item k).getD default).hashed.isSome = true
  cases hk : run.item k with
  | none => exact hdefault
  | some v =>
      rw [hk] at h
      exact hp h

theorem isSome_hashed_of_item {run : Doc} {k : String} {v : Value}
    (h : (run.item k).all isStrValue = true) (hv : run.item k = some v) : v.hashed.isSome := by
  rw [hv] at h
  exact isSome_hashed_of_str h

/-- The retriever of a typed run. -/
theorem isSome_hashed_primaryRetriever {run : Doc} {method model : Value} {r : Value × Value}
    (ht : (run.item "retrievers").all isRetrieverList = true) (hmethod : method.hashed.isSome)
    (hmodel : model.hashed.isSome) (h : primaryRetriever run method model = .ok r) :
    r.1.hashed.isSome ∧ r.2.hashed.isSome := by
  unfold primaryRetriever at h
  split at h
  · rename_i primary rest hget
    obtain rfl := Except.ok.inj h
    have hlist : isRetrieverList (.list (.dict primary :: rest)) = true := by
      rw [Doc.get_eq_item] at hget
      cases hitem : run.item "retrievers" with
      | none =>
          rw [hitem] at hget
          cases hget
      | some v =>
          rw [hitem] at hget ht
          exact hget ▸ ht
    have hprimary := List.all_eq_true.mp hlist _ (List.mem_cons_self ..)
    obtain ⟨htype, hown⟩ := Bool.and_eq_true_iff.mp hprimary
    refine ⟨isSome_hashed_getDefault isSome_hashed_of_str htype hmethod, ?_⟩
    exact isSome_hashed_orElse
      (isSome_hashed_getDefault isSome_hashed_of_textOrNull hown rfl) hmodel
  · cases h
  · split at h
    · obtain rfl := Except.ok.inj h
      exact ⟨hmethod, hmodel⟩
    · cases h
  · cases h
  · cases h
  · split at h
    · cases h
    · obtain rfl := Except.ok.inj h
      exact ⟨hmethod, hmodel⟩

/-- The key of a typed run has a hash. -/
theorem isSome_hashed_of_typed {run : Doc} (ht : TypedRun run) {fields : KeyFields Value}
    (h : runConfigKey defaultDatabase run = .ok fields) : fields.hashed.isSome := by
  have hstr := fun k hk => ht.texts k hk
  unfold runConfigKey at h
  simp only [bind_eq_ok, raising_eq_ok] at h
  obtain ⟨method, hmethod, ⟨type, model⟩, hprimary, name, hname, chunking, hchunking, size, -,
    overlap, -, padding, -, h⟩ := h
  obtain rfl := Except.ok.inj h
  have hmethod := isSome_hashed_of_item (hstr _ (by decide)) hmethod
  have hmodel : ((run.get "retrieval_model").orElse (.str "")).hashed.isSome :=
    isSome_hashed_orElse (isSome_hashed_getDefault isSome_hashed_of_textOrNull
      (ht.optional _ (by decide)) rfl) rfl
  obtain ⟨htype, hmodel⟩ :=
    isSome_hashed_primaryRetriever ht.retrievers hmethod hmodel hprimary
  simp only [isSome_hashed_iff, KeyFields.parts, List.forall_mem_cons]
  exact ⟨isSome_hashed_getDefault isSome_hashed_of_textOrNull (ht.optional _ (by decide)) rfl,
    isSome_hashed_getDefault isSome_hashed_of_str (hstr _ (by decide)) rfl,
    isSome_hashed_of_item (hstr _ (by decide)) hname,
    isSome_hashed_of_item (hstr _ (by decide)) hchunking, htype,
    isSome_hashed_getDefault isSome_hashed_of_str (hstr _ (by decide)) rfl, hmodel,
    fun _ h => absurd h List.not_mem_nil⟩

theorem TypedRun.set_database {run : Doc} (ht : TypedRun run) (store : String) :
    TypedRun (run.set "database_provider" (.str store)) := by
  have hitem : ∀ k, "database_provider" ≠ k →
      (run.set "database_provider" (.str store)).item k = run.item k :=
    fun k hk => Doc.item_set_of_ne run hk _
  refine ⟨⟨fun k hk => ?_, fun k hk => ?_, fun k hk => ?_⟩, ?_⟩
  · rw [hitem k (by rintro rfl; exact absurd hk (by decide))]
    exact ht.texts k hk
  · rw [hitem k (by rintro rfl; exact absurd hk (by decide))]
    exact ht.ints k hk
  · by_cases h : "database_provider" = k
    · subst h
      rw [Doc.item_set_self]
      rfl
    · rw [hitem k h]
      exact ht.optional k hk
  · rw [hitem _ (by decide)]
    exact ht.retrievers

/-- The key of a typed run for which a group is found. -/
theorem key_of_groupIdFor {digest : GroupPayload → Option String} {run experiment : Doc}
    {sha groupId store : String} (ht : TypedRun run)
    (h : groupIdFor digest defaultDatabase (run.set "database_provider" (.str store)) experiment
      sha = some groupId) :
    ∃ key, hashedKey defaultDatabase (run.set "database_provider" (.str store)) = .ok key ∧
      key.databaseProvider = .text store := by
  have hstore : (run.set "database_provider" (.str store)).item "database_provider" =
      some (.str store) := Doc.item_set_self run _ _
  unfold groupIdFor at h
  simp only [Option.bind_eq_bind, Option.bind_eq_some_iff] at h
  obtain ⟨fields, hfields, -⟩ := h
  have hkey : runConfigKey defaultDatabase (run.set "database_provider" (.str store)) =
      .ok { fields with databaseProvider := .str store } := by
    rw [runConfigKey_of_database hstore, toOption_eq_some.mp hfields]
    rfl
  obtain ⟨key, hhash⟩ := Option.isSome_iff_exists.mp
    (isSome_hashed_of_typed (ht.set_database store) hkey)
  exact ⟨key, hashedKey_eq_ok.mpr ⟨_, hkey, hhash⟩,
    (Option.some.inj (databaseProvider_of_hashed hhash)).symm⟩

/-- What `_rank_group` relies on. -/
structure Candidate.Keyed (defaultDatabase : String) (c : Candidate) : Prop where
  key : ∃ key, hashedKey defaultDatabase c.run = .ok key ∧ key.databaseProvider = .text c.store
  runId : runIdOf c.run = some c.runId
  experimentId : (c.experiment.item "experiment_id").isSome

variable {digest : GroupPayload → Option String} {shaOf : Value → String}

/-- What a candidate is made of. -/
theorem candidateOf_cases {b : Bundle} {run : Doc} {c : Candidate}
    (h : candidateOf digest shaOf defaultDatabase b run = some c) :
    ∃ store runId groupId, runIdOf run = some runId ∧
      groupIdFor digest defaultDatabase (run.set "database_provider" (.str store)) b.experiment
        (questionsShaOf shaOf b.experiment) = some groupId ∧
      c = ⟨run.set "database_provider" (.str store), b.experiment, store, groupId,
        stampOf b.experiment, runId⟩ := by
  unfold candidateOf at h
  simp only [Option.bind_eq_bind, Option.bind_eq_some_iff] at h
  obtain ⟨store, -, runId, hid, h⟩ := h
  split at h
  · simp only [Option.bind_eq_some_iff] at h
    obtain ⟨groupId, hgroup, hc⟩ := h
    exact ⟨store, runId, groupId, hid, hgroup, (Option.some.inj hc).symm⟩
  · exact absurd h.symm (Option.some_ne_none _)

theorem runId_of_candidateOf {b : Bundle} {run : Doc} {c : Candidate}
    (h : candidateOf digest shaOf defaultDatabase b run = some c) :
    runIdOf run = some c.runId := by
  obtain ⟨store, runId, groupId, hid, -, rfl⟩ := candidateOf_cases h
  exact hid

theorem keyed_of_candidateOf {b : Bundle} {run : Doc} {c : Candidate}
    (h : candidateOf digest shaOf defaultDatabase b run = some c) (ht : TypedRun run)
    (hexp : (b.experiment.item "experiment_id").isSome) : c.Keyed defaultDatabase := by
  obtain ⟨store, runId, groupId, hid, hgroup, rfl⟩ := candidateOf_cases h
  refine ⟨key_of_groupIdFor ht hgroup, ?_, hexp⟩
  change (run.set "database_provider" (.str store)).item "run_id" >>= textOf = _
  rw [Doc.item_set_of_ne run (by decide)]
  exact hid

theorem mem_candidatesOf {b : Bundle} {c : Candidate}
    (h : c ∈ candidatesOf digest shaOf defaultDatabase b) :
    ∃ run ∈ b.runs, candidateOf digest shaOf defaultDatabase b run = some c := by
  unfold candidatesOf at h
  split at h
  · exact List.mem_filterMap.mp h
  · cases h

theorem runIds_sublist (b : Bundle) :
    ((candidatesOf digest shaOf defaultDatabase b).map fun c => some c.runId).Sublist
      (b.runs.map runIdOf) := by
  unfold candidatesOf
  split
  · induction b.runs with
    | nil => exact List.Sublist.refl _
    | cons run runs ih =>
        cases hc : candidateOf digest shaOf defaultDatabase b run with
        | none =>
            rw [List.filterMap_cons_none hc]
            exact ih.cons _
        | some c =>
            rw [List.filterMap_cons_some hc, List.map_cons, List.map_cons,
              runId_of_candidateOf hc]
            exact ih.cons_cons _
  · exact List.nil_sublist _

theorem runIds_sublist_all (bundles : List Bundle) :
    ((allCandidates digest shaOf defaultDatabase bundles).map fun c => some c.runId).Sublist
      ((bundles.flatMap (·.runs)).map runIdOf) := by
  unfold allCandidates
  induction bundles with
  | nil => exact List.Sublist.refl _
  | cons b bundles ih =>
      rw [List.flatMap_cons, List.flatMap_cons, List.map_append, List.map_append]
      exact (runIds_sublist b).append ih

/-- Candidates with distinct run ids that can all be ranked. -/
structure Accountable (defaultDatabase : String) (cs : List Candidate) : Prop where
  keyed : ∀ c ∈ cs, c.Keyed defaultDatabase
  runIds : (cs.map (·.runId)).Nodup

theorem accountable_allCandidates (B : StoredBundles) :
    Accountable defaultDatabase (allCandidates digest shaOf defaultDatabase B.bundles) where
  keyed := by
    intro c h
    obtain ⟨b, hb, hc⟩ := List.mem_flatMap.mp h
    obtain ⟨run, hmem, hrun⟩ := mem_candidatesOf hc
    exact keyed_of_candidateOf hrun (B.typed b hb run hmem) (B.experimentIds b hb)
  runIds := by
    refine List.Nodup.of_map some ?_
    rw [List.map_map]
    exact B.unique.sublist (runIds_sublist_all B.bundles)

end Candidates

/-! ## One ranking for each group -/

section Ranked

variable {defaultDatabase : String} (useQueryAvg : Bool)
  (resultsByRun : String → List QueryResult)

def Candidate.key (defaultDatabase : String) (c : Candidate) : ConfigKey :=
  (hashedKey defaultDatabase c.run).toOption.getD unknownConfigKey

theorem Candidate.Keyed.key_eq {c : Candidate} (h : c.Keyed defaultDatabase) :
    hashedKey defaultDatabase c.run = .ok (c.key defaultDatabase) := by
  obtain ⟨key, hkey, -⟩ := h.key
  rw [Candidate.key, hkey]
  rfl

theorem Candidate.Keyed.key_store {c : Candidate} (h : c.Keyed defaultDatabase) :
    (c.key defaultDatabase).databaseProvider = .text c.store := by
  obtain ⟨key, hkey, hstore⟩ := h.key
  rw [Candidate.key, hkey]
  exact hstore

/-- The members of a group: at most one run of each store. -/
structure OnePerStore (defaultDatabase : String) (ms : List Candidate) : Prop where
  keyed : ∀ c ∈ ms, c.Keyed defaultDatabase
  runIds : (ms.map (·.runId)).Nodup
  stores : (ms.map (·.store)).Nodup

theorem OnePerStore.perm {ms ms' : List Candidate} (h : OnePerStore defaultDatabase ms)
    (hp : ms.Perm ms') : OnePerStore defaultDatabase ms' where
  keyed := fun c hc => h.keyed c (hp.mem_iff.mpr hc)
  runIds := (hp.map _).nodup_iff.mp h.runIds
  stores := (hp.map _).nodup_iff.mp h.stores

/-- Runs of different stores have different keys. -/
theorem OnePerStore.keys {ms : List Candidate} (h : OnePerStore defaultDatabase ms) :
    (ms.map (Candidate.key defaultDatabase)).Nodup := by
  refine List.Nodup.of_map KeyFields.databaseProvider ?_
  have hstores : ms.map (fun c => (c.key defaultDatabase).databaseProvider) =
      (ms.map (·.store)).map Value.Key.text := by
    rw [List.map_map]
    exact List.map_congr_left fun c hc => (h.keyed c hc).key_store
  rw [List.map_map, Function.comp_def, hstores]
  exact h.stores.map fun _ _ => Value.Key.text.inj

/-- Whether some query of the run retrieved something. -/
def Candidate.hasHit (c : Candidate) : Bool :=
  (resultsByRun c.runId).any fun r => !r.results.isEmpty

/-- The hits of a run, under its key. -/
def runHits (defaultDatabase : String) (c : Candidate) : List MatchedHit :=
  (resultsByRun c.runId).flatMap fun r =>
    r.results.map fun h => ⟨c.key defaultDatabase, r.queryText, h⟩

def groupHits (defaultDatabase : String) (ms : List Candidate) : List MatchedHit :=
  ms.flatMap (runHits resultsByRun defaultDatabase)

/-- The entry of a member in the ranking of its group. -/
def entryOf (defaultDatabase : String) (ms : List Candidate) (c : Candidate) : RankedConfig :=
  rankedConfig (groupHits resultsByRun defaultDatabase ms) (c.key defaultDatabase)

/-- The members that have a hit, best first. -/
def shownRuns (defaultDatabase : String) (ms : List Candidate) : List Candidate :=
  rankBy (fun c => sortKey useQueryAvg (entryOf resultsByRun defaultDatabase ms c))
    (ms.filter (Candidate.hasHit resultsByRun))

theorem isEmpty_runHits (c : Candidate) :
    (runHits resultsByRun defaultDatabase c).isEmpty = !c.hasHit resultsByRun := by
  unfold runHits Candidate.hasHit
  induction resultsByRun c.runId with
  | nil => rfl
  | cons r rows ih =>
      rw [List.flatMap_cons, List.any_cons, Bool.not_or, Bool.not_not, ← ih]
      cases r.results with
      | nil => rfl
      | cons hit hits => rfl

/-- The ranking of a group has one entry for each member with a hit. -/
theorem rankedConfigs_groupHits {ms : List Candidate} (h : OnePerStore defaultDatabase ms) :
    rankedConfigs useQueryAvg (groupHits resultsByRun defaultDatabase ms) =
      (shownRuns useQueryAvg resultsByRun defaultDatabase ms).map
        (entryOf resultsByRun defaultDatabase ms) := by
  have hblock : ∀ c ∈ ms, ∀ k ∈ (runHits resultsByRun defaultDatabase c).map (·.key),
      k = c.key defaultDatabase := by
    intro c _ k hk
    obtain ⟨m, hm, rfl⟩ := List.mem_map.mp hk
    obtain ⟨r, -, hr⟩ := List.mem_flatMap.mp hm
    obtain ⟨hit, -, rfl⟩ := List.mem_map.mp hr
    rfl
  have hkeys : firsts ((groupHits resultsByRun defaultDatabase ms).map (·.key)) =
      (ms.filter (Candidate.hasHit resultsByRun)).map (Candidate.key defaultDatabase) := by
    have hfirsts := firsts_flatMap hblock h.keys
    simp only [List.isEmpty_map, isEmpty_runHits, Bool.not_not] at hfirsts
    rw [groupHits, List.map_flatMap, hfirsts]
  unfold rankedConfigs shownRuns
  rw [hkeys, List.map_map]
  exact rankBy_map _ fun _ _ => rfl

/-- The key under which the results of a run id are filed within a group. -/
def memberKey (defaultDatabase : String) (ms : List Candidate) (runId : String) : ConfigKey :=
  ((ms.reverse.find? fun c => c.runId == runId).map (Candidate.key defaultDatabase)).getD
    unknownConfigKey

theorem configKeyOfRun_members {ms : List Candidate} (h : ∀ c ∈ ms, c.Keyed defaultDatabase)
    (runId : String) :
    configKeyOfRun defaultDatabase (ms.map (·.run)) runId =
      .ok (some (memberKey defaultDatabase ms runId)) := by
  have hfind : (ms.reverse.find? fun c => (c.run.get "run_id").isStr runId) =
      ms.reverse.find? fun c => c.runId == runId := by
    refine List.find?_congr fun c hc => ?_
    have hid := (h c (List.mem_reverse.mp hc)).runId
    unfold runIdOf at hid
    obtain ⟨v, hv, hstr⟩ := Option.bind_eq_some_iff.mp hid
    cases v with
    | str s =>
        obtain rfl := Option.some.inj hstr
        rw [Doc.get_eq_item, hv]
        rfl
    | _ => exact absurd hstr.symm (Option.some_ne_none _)
  have hrun : ((ms.map (·.run)).reverse.find? fun run => (run.get "run_id").isStr runId) =
      (ms.reverse.find? fun c => c.runId == runId).map (·.run) := by
    rw [← List.map_reverse, List.find?_map, Function.comp_def, hfind]
  unfold memberKey
  cases hc : ms.reverse.find? fun c => c.runId == runId with
  | none =>
      rw [hc] at hrun
      exact configKeyOfRun_of_none hrun
  | some c =>
      rw [hc] at hrun
      exact configKeyOfRun_of_find hrun
        (h c (List.mem_reverse.mp (List.mem_of_find?_eq_some hc))).key_eq

theorem memberKey_of_mem {ms : List Candidate} (h : OnePerStore defaultDatabase ms)
    {c : Candidate} (hc : c ∈ ms) :
    memberKey defaultDatabase ms c.runId = c.key defaultDatabase := by
  have hn : (ms.reverse.map (·.runId)).Nodup := by
    rw [List.map_reverse]
    exact List.nodup_reverse.mpr h.runIds
  rw [memberKey, (find?_key_eq_some_iff (·.runId) hn).mpr ⟨List.mem_reverse.mpr hc, rfl⟩]
  rfl

variable {resultsByRun} (hresults : ∀ runId, ∀ r ∈ resultsByRun runId, r.runId = runId)

include hresults

/-- The call of `analyze_results` for a group. -/
theorem analyzeResults_members {ms : List Candidate} (h : OnePerStore defaultDatabase ms) :
    ∃ response, analyzeResults useQueryAvg defaultDatabase
        (ms.flatMap fun c => resultsByRun c.runId) (ms.map (·.run)) none = some response ∧
      response.rankedConfigs = (shownRuns useQueryAvg resultsByRun defaultDatabase ms).map
        (entryOf resultsByRun defaultDatabase ms) := by
  refine ⟨_, analyzeResults_of_keys useQueryAvg defaultDatabase _ _ none
    (configKeyOfRun_members h.keyed), ?_⟩
  have hall : selectedResults (ms.flatMap fun c => resultsByRun c.runId) none =
      ms.flatMap fun c => resultsByRun c.runId :=
    List.filter_eq_self.mpr fun _ _ => rfl
  have hhits : (hitsUnder (memberKey defaultDatabase ms)
      (ms.flatMap fun c => resultsByRun c.runId)).map (·.2) =
        groupHits resultsByRun defaultDatabase ms := by
    unfold hitsUnder groupHits runHits
    rw [List.map_flatMap, List.flatMap_assoc]
    refine List.flatMap_congr fun c hc => List.flatMap_congr fun r hr => ?_
    rw [List.map_map, hresults _ r hr, memberKey_of_mem h hc]
    rfl
  rw [hall]
  change rankedConfigs useQueryAvg _ = _
  rw [hhits, rankedConfigs_groupHits useQueryAvg resultsByRun h]

end Ranked

/-! ## The rows of a group -/

section Rows

variable {defaultDatabase : String} (entry : Candidate → RankedConfig)

/-- The rows of some runs, best first, after the runs of the stores in `shown`. -/
def rowsFrom : List String → List Candidate → List ComparedRun
  | _, [] => []
  | shown, c :: cs =>
      { candidate := c
        experimentId := c.experiment.get "experiment_id"
        rank := shown.length + 1
        storeRank := shown.count c.store + 1
        entry := entry c } :: rowsFrom (shown ++ [c.store]) cs

theorem map_candidate_rowsFrom (shown : List String) (cs : List Candidate) :
    (rowsFrom entry shown cs).map (·.candidate) = cs := by
  induction cs generalizing shown with
  | nil => rfl
  | cons c cs ih => exact congrArg (c :: ·) (ih _)

theorem length_rowsFrom (shown : List String) (cs : List Candidate) :
    (rowsFrom entry shown cs).length = cs.length := by
  have h := congrArg List.length (map_candidate_rowsFrom entry shown cs)
  rwa [List.length_map] at h

theorem map_rank_rowsFrom (shown : List String) (cs : List Candidate) :
    (rowsFrom entry shown cs).map (·.rank) = List.range' (shown.length + 1) cs.length := by
  induction cs generalizing shown with
  | nil => rfl
  | cons c cs ih =>
      have hrest := ih (shown ++ [c.store])
      rw [List.length_append, List.length_singleton] at hrest
      exact congrArg (List.cons (shown.length + 1)) hrest

theorem entry_of_mem_rowsFrom {shown : List String} {cs : List Candidate} {r : ComparedRun}
    (h : r ∈ rowsFrom entry shown cs) : r.entry = entry r.candidate := by
  induction cs generalizing shown with
  | nil => cases h
  | cons c cs ih =>
      rcases List.mem_cons.mp h with rfl | h
      · rfl
      · exact ih h

theorem map_entry_rowsFrom (shown : List String) (cs : List Candidate) :
    (rowsFrom entry shown cs).map (·.entry) = cs.map entry := by
  have h : (rowsFrom entry shown cs).map (·.entry) =
      (rowsFrom entry shown cs).map (fun r => entry r.candidate) :=
    List.map_congr_left fun r hr => entry_of_mem_rowsFrom entry hr
  rw [h, ← map_candidate_rowsFrom entry shown cs, List.map_map, map_candidate_rowsFrom]
  rfl

/-- A ranked entry is traced back to its run. -/
theorem lookupKey_of_mem {ms : List Candidate} (h : OnePerStore defaultDatabase ms)
    {c : Candidate} (hc : c ∈ ms) :
    lookupKey ((ms.map (Candidate.key defaultDatabase)).zip ms) (c.key defaultDatabase) =
      some c :=
  congrArg (Option.map Prod.snd) (find?_zip_key (Candidate.key defaultDatabase) h.keys hc)

theorem compareRows_eq {byKey : List (ConfigKey × Candidate)} {cs : List Candidate}
    (hlookup : ∀ c ∈ cs, lookupKey byKey (entry c).key = some c)
    (hkeyed : ∀ c ∈ cs, c.Keyed defaultDatabase) (shown : List String) :
    compareRows byKey shown (cs.map entry) = some (rowsFrom entry shown cs) := by
  induction cs generalizing shown with
  | nil => rfl
  | cons c cs ih =>
      have hrest := ih (fun d hd => hlookup d (List.mem_cons_of_mem _ hd))
        (fun d hd => hkeyed d (List.mem_cons_of_mem _ hd)) (shown ++ [c.store])
      have hc := hlookup c (List.mem_cons_self ..)
      obtain ⟨id, hid⟩ := Option.isSome_iff_exists.mp
        (hkeyed c (List.mem_cons_self ..)).experimentId
      have hget : c.experiment.get "experiment_id" = id := by
        rw [Doc.get_eq_item, hid]
        rfl
      rw [List.map_cons, compareRows, rowsFrom, hc, hget]
      simp only [hid, hrest, Option.bind_eq_bind, Option.bind_some, Option.pure_def]

/-- The rows of the members of a group. -/
def groupRows (useQueryAvg : Bool) (resultsByRun : String → List QueryResult)
    (defaultDatabase : String) (members : List Candidate) : List ComparedRun :=
  let ms := rankBy (·.runId) members
  rowsFrom (entryOf resultsByRun defaultDatabase ms) []
    (shownRuns useQueryAvg resultsByRun defaultDatabase ms)

theorem rankGroup_eq (useQueryAvg : Bool) {resultsByRun : String → List QueryResult}
    (hresults : ∀ runId, ∀ r ∈ resultsByRun runId, r.runId = runId) {members : List Candidate}
    (h : OnePerStore defaultDatabase members) :
    rankGroup useQueryAvg defaultDatabase resultsByRun members =
      some (groupRows useQueryAvg resultsByRun defaultDatabase members) := by
  have hms := h.perm (rankBy_perm (·.runId) members).symm
  unfold rankGroup groupRows
  dsimp only
  generalize rankBy (·.runId) members = ms at hms
  obtain ⟨response, hresponse, hranked⟩ := analyzeResults_members useQueryAvg hresults hms
  have hkeys : (ms.mapM fun c => (hashedKey defaultDatabase c.run).toOption) =
      some (ms.map (Candidate.key defaultDatabase)) :=
    mapM_eq_some_map fun c hc => toOption_eq_some.mpr (hms.keyed c hc).key_eq
  have hshown : ∀ c ∈ shownRuns useQueryAvg resultsByRun defaultDatabase ms, c ∈ ms := fun c hc =>
    List.mem_of_mem_filter ((rankBy_perm _ _).mem_iff.mp hc)
  rw [hresponse, Option.bind_eq_bind, Option.bind_some, hkeys, Option.bind_eq_bind,
    Option.bind_some, hranked]
  exact compareRows_eq _ (fun c hc => lookupKey_of_mem hms (hshown c hc))
    (fun c hc => hms.keyed c (hshown c hc)) []

end Rows

/-! ## All groups -/

section Groups

variable {defaultDatabase : String} {cs : List Candidate}

theorem nodup_slots (cs : List Candidate) :
    ((latestPerStoreAndGroup cs).map (·.slot)).Nodup := by
  have h := nodup_firsts (cs.map Candidate.slot)
  rw [← map_key_leastPer Candidate.recency] at h
  exact h

theorem Accountable.eq_of_runId (h : Accountable defaultDatabase cs) {c d : Candidate}
    (hc : c ∈ cs) (hd : d ∈ cs) (heq : c.runId = d.runId) : c = d :=
  List.inj_on_of_nodup_map h.runIds hc hd heq

/-- The winners of a group have different stores. -/
theorem Accountable.onePerStore (h : Accountable defaultDatabase cs) (gid : String) :
    OnePerStore defaultDatabase ((latestPerStoreAndGroup cs).filter (·.groupId = gid)) where
  keyed := fun c hc => h.keyed c (mem_leastPer (List.mem_of_mem_filter hc)).1
  runIds := by
    refine List.Nodup.map_on (fun c hc d hd => ?_) ((nodup_slots cs).of_map.filter _)
    exact h.eq_of_runId (mem_leastPer (List.mem_of_mem_filter hc)).1
      (mem_leastPer (List.mem_of_mem_filter hd)).1
  stores := by
    refine List.Nodup.map_on (fun c hc d hd hstore => ?_) ((nodup_slots cs).of_map.filter _)
    obtain ⟨hcmem, hcgid⟩ := List.mem_filter.mp hc
    obtain ⟨hdmem, hdgid⟩ := List.mem_filter.mp hd
    have hgid : c.groupId = d.groupId :=
      (of_decide_eq_true hcgid).trans (of_decide_eq_true hdgid).symm
    exact List.inj_on_of_nodup_map (nodup_slots cs) hcmem hdmem (Prod.ext hstore hgid)

variable (useQueryAvg : Bool) (resultsByRun : String → List QueryResult)

/-- The ranked group of an id. -/
def rankedGroup (defaultDatabase : String) (cs : List Candidate) (gid : String) :
    ComparedGroup where
  groupId := gid
  runs := groupRows useQueryAvg resultsByRun defaultDatabase
    ((latestPerStoreAndGroup cs).filter (·.groupId = gid))

def rankedGroups (defaultDatabase : String) (cs : List Candidate) : List ComparedGroup :=
  (firsts ((latestPerStoreAndGroup cs).map (·.groupId))).map
    (rankedGroup useQueryAvg resultsByRun defaultDatabase cs)

theorem runId_of_mem_resultsOf (bundles : List Bundle) (runId : String) :
    ∀ r ∈ resultsOf bundles runId, r.runId = runId := fun _ hr =>
  of_decide_eq_true (List.mem_filter.mp hr).2

/-- No lookup fails, so the response is made. -/
theorem buildCompare_eq {digest : GroupPayload → Option String} {shaOf : Value → String}
    {bundles : List Bundle}
    (h : Accountable defaultDatabase (allCandidates digest shaOf defaultDatabase bundles)) :
    buildCompare digest shaOf useQueryAvg defaultDatabase bundles =
      some (compareOf (allCandidates digest shaOf defaultDatabase bundles)
        (rankedGroups useQueryAvg (resultsOf bundles) defaultDatabase
          (allCandidates digest shaOf defaultDatabase bundles))) := by
  unfold buildCompare
  dsimp only
  generalize allCandidates digest shaOf defaultDatabase bundles = cs at h
  rw [mapM_eq_some_map (g := rankedGroup useQueryAvg (resultsOf bundles) defaultDatabase cs)
    fun gid _ => ?_]
  · rfl
  · rw [rankGroup_eq useQueryAvg (runId_of_mem_resultsOf bundles) (h.onePerStore gid)]
    rfl

variable (defaultDatabase)

theorem map_candidate_groupRows (members : List Candidate) :
    ((groupRows useQueryAvg resultsByRun defaultDatabase members).map (·.candidate)).Perm
      (members.filter (Candidate.hasHit resultsByRun)) := by
  unfold groupRows
  dsimp only
  rw [map_candidate_rowsFrom]
  exact (rankBy_perm _ _).trans ((rankBy_perm _ _).filter _)

/-- The groups show the winners that have a hit, each once. -/
theorem shown_perm (cs : List Candidate) :
    ((rankedGroups useQueryAvg resultsByRun defaultDatabase cs).flatMap fun g =>
      g.runs.map (·.candidate)).Perm
        ((latestPerStoreAndGroup cs).filter (Candidate.hasHit resultsByRun)) := by
  generalize hlatest : latestPerStoreAndGroup cs = latest
  have hgroups : ((rankedGroups useQueryAvg resultsByRun defaultDatabase cs).flatMap fun g =>
      g.runs.map (·.candidate)).Perm
        (groups (·.groupId) (latest.filter (Candidate.hasHit resultsByRun))
          (firsts (latest.map (·.groupId)))) := by
    unfold rankedGroups groups
    rw [List.flatMap_map, hlatest]
    refine List.Perm.flatMap_left _ fun gid _ => ?_
    rw [List.filter_filter]
    refine (map_candidate_groupRows _ useQueryAvg resultsByRun _).trans (List.Perm.of_eq ?_)
    rw [hlatest, List.filter_filter]
    exact List.filter_congr fun c _ => Bool.and_comm _ _
  refine hgroups.trans ((groups_perm _ _ (nodup_firsts _)).trans (List.Perm.of_eq ?_))
  refine List.filter_eq_self.mpr fun c hc => decide_eq_true ?_
  exact mem_firsts.mpr (List.mem_map_of_mem (List.mem_of_mem_filter hc))

end Groups

/-! ## The order of the bundles -/

/-- The same bundles in another order, the runs and the results of each in another order. -/
def Rearranged (bundles bundles' : List Bundle) : Prop :=
  ∃ mid, bundles.Perm mid ∧ List.Forall₂ (fun b b' : Bundle =>
    b.experiment = b'.experiment ∧ b.runs.Perm b'.runs ∧ b.results.Perm b'.results) mid bundles'

section Order

variable {digest : GroupPayload → Option String} {shaOf : Value → String}
  {defaultDatabase : String}

theorem candidatesOf_perm {b b' : Bundle} (hexp : b.experiment = b'.experiment)
    (hruns : b.runs.Perm b'.runs) (hresults : b.results.Perm b'.results) :
    (candidatesOf digest shaOf defaultDatabase b).Perm
      (candidatesOf digest shaOf defaultDatabase b') := by
  have hsame : candidateOf digest shaOf defaultDatabase b =
      candidateOf digest shaOf defaultDatabase b' := by
    funext run
    unfold candidateOf
    simp only [hexp, (hresults.map (·.runId)).mem_iff]
  unfold candidatesOf
  rw [hexp, hsame]
  split
  · exact hruns.filterMap _
  · exact List.Perm.refl _

theorem allCandidates_perm {bundles bundles' : List Bundle} (h : Rearranged bundles bundles') :
    (allCandidates digest shaOf defaultDatabase bundles).Perm
      (allCandidates digest shaOf defaultDatabase bundles') :=
  flatMap_perm h fun _ _ hb => candidatesOf_perm hb.1 hb.2.1 hb.2.2

theorem resultsOf_perm {bundles bundles' : List Bundle} (h : Rearranged bundles bundles')
    (runId : String) : (resultsOf bundles runId).Perm (resultsOf bundles' runId) := by
  have hrows : (bundles.flatMap (·.results)).Perm (bundles'.flatMap (·.results)) :=
    flatMap_perm h fun _ _ hb => hb.2.2
  exact hrows.filter _

theorem Accountable.perm {cs cs' : List Candidate} (h : Accountable defaultDatabase cs)
    (hp : cs.Perm cs') : Accountable defaultDatabase cs' where
  keyed := fun c hc => h.keyed c (hp.mem_iff.mpr hc)
  runIds := (hp.map _).nodup_iff.mp h.runIds

variable (useQueryAvg : Bool) {resultsByRun resultsByRun' : String → List QueryResult}
  (hresults : ∀ runId, (resultsByRun runId).Perm (resultsByRun' runId))

include hresults

theorem groupRows_perm {ms ms' : List Candidate} (hp : ms.Perm ms')
    (hids : (ms.map (·.runId)).Nodup) :
    groupRows useQueryAvg resultsByRun defaultDatabase ms =
      groupRows useQueryAvg resultsByRun' defaultDatabase ms' := by
  have hsorted : rankBy (·.runId) ms = rankBy (·.runId) ms' :=
    rankBy_eq_of_perm _ hp fun _ ha _ hb => List.inj_on_of_nodup_map hids ha hb
  have hhit : Candidate.hasHit resultsByRun = Candidate.hasHit resultsByRun' :=
    funext fun c => (hresults c.runId).any_eq
  have hentry : ∀ ms, entryOf resultsByRun defaultDatabase ms =
      entryOf resultsByRun' defaultDatabase ms := by
    intro ms
    have hhits : (groupHits resultsByRun defaultDatabase ms).Perm
        (groupHits resultsByRun' defaultDatabase ms) :=
      List.Perm.flatMap_left _ fun c _ => (hresults c.runId).flatMap_right _
    funext c
    unfold entryOf
    rw [rankedConfig_perm hhits]
  unfold groupRows shownRuns
  rw [hsorted, hhit]
  simp only [hentry]

theorem rankedGroups_perm {cs cs' : List Candidate} (h : Accountable defaultDatabase cs)
    (hp : cs.Perm cs') :
    (rankedGroups useQueryAvg resultsByRun defaultDatabase cs).Perm
      (rankedGroups useQueryAvg resultsByRun' defaultDatabase cs') := by
  have hlatest : (latestPerStoreAndGroup cs).Perm (latestPerStoreAndGroup cs') :=
    leastPer_perm hp fun a ha b hb heq =>
      h.eq_of_runId ha hb (congrArg (fun x => (ofLex x).2) heq)
  have hgroup : ∀ gid, rankedGroup useQueryAvg resultsByRun defaultDatabase cs gid =
      rankedGroup useQueryAvg resultsByRun' defaultDatabase cs' gid := fun gid =>
    congrArg (ComparedGroup.mk gid)
      (groupRows_perm useQueryAvg hresults (hlatest.filter _) (h.onePerStore gid).runIds)
  unfold rankedGroups
  rw [funext hgroup]
  exact (firsts_perm (hlatest.map _)).map _

omit hresults in
theorem compareOf_perm {cs cs' : List Candidate} (hp : cs.Perm cs')
    {ranked ranked' : List ComparedGroup} (hranked : ranked.Perm ranked')
    (hids : (ranked.map (·.groupId)).Nodup) : compareOf cs ranked = compareOf cs' ranked' := by
  have hgroups := rankBy_eq_of_perm (fun g : ComparedGroup => toLex (-g.topScore, g.groupId))
    (hranked.filter fun g => !g.runs.isEmpty) fun a ha b hb heq =>
      List.inj_on_of_nodup_map hids (List.mem_of_mem_filter ha) (List.mem_of_mem_filter hb)
        (congrArg (fun x => (ofLex x).2) heq)
  have hslots := hp.map Candidate.slot
  unfold compareOf countDuplicatesCollapsed
  rw [hgroups, hslots.length_eq, (firsts_perm hslots).length_eq]

end Order

/-! ## The contract -/

theorem map_groupId_rankedGroups (useQueryAvg : Bool)
    (resultsByRun : String → List QueryResult) (defaultDatabase : String)
    (cs : List Candidate) :
    (rankedGroups useQueryAvg resultsByRun defaultDatabase cs).map (·.groupId) =
      firsts ((latestPerStoreAndGroup cs).map (·.groupId)) := by
  unfold rankedGroups
  rw [List.map_map]
  exact List.map_id _

/-- The members of a group in the order of their run ids. -/
def membersOf (cs : List Candidate) (gid : String) : List Candidate :=
  rankBy (·.runId) ((latestPerStoreAndGroup cs).filter (·.groupId = gid))

section Contract

variable (useQueryAvg : Bool) (defaultDatabase : String)

/-- What the response promises of a group, for the candidates and the results of all bundles. -/
structure GroupSound (cs : List Candidate) (resultsByRun : String → List QueryResult)
    (g : ComparedGroup) : Prop where
  onePerStore : g.stores.Nodup
  candidates : ∀ r ∈ g.runs, r.candidate ∈ cs ∧ r.candidate.groupId = g.groupId
  latest : ∀ r ∈ g.runs, ∀ c ∈ cs, c.slot = r.candidate.slot →
    c.stamp < r.candidate.stamp ∨
      (c.stamp = r.candidate.stamp ∧ r.candidate.runId ≤ c.runId)
  ranks : g.runs.map (·.rank) = List.range' 1 g.runs.length
  order : ∃ response, analyzeResults useQueryAvg defaultDatabase
      ((membersOf cs g.groupId).flatMap fun c => resultsByRun c.runId)
      ((membersOf cs g.groupId).map (·.run)) none = some response ∧
    g.runs.map (·.entry) = response.rankedConfigs
  entries : ∀ r ∈ g.runs, hashedKey defaultDatabase r.candidate.run = .ok r.entry.key
  ties : g.runs.Pairwise fun r s =>
    sortKey useQueryAvg r.entry < sortKey useQueryAvg s.entry ∨
      (sortKey useQueryAvg r.entry = sortKey useQueryAvg s.entry ∧
        r.candidate.runId < s.candidate.runId)

variable {defaultDatabase} {cs : List Candidate} (h : Accountable defaultDatabase cs)
  (resultsByRun : String → List QueryResult) (gid : String)

theorem mem_of_mem_rankedGroup {r : ComparedRun}
    (hr : r ∈ (rankedGroup useQueryAvg resultsByRun defaultDatabase cs gid).runs) :
    r.candidate ∈ (latestPerStoreAndGroup cs).filter (·.groupId = gid) := by
  have hmem := (map_candidate_groupRows _ useQueryAvg resultsByRun _).mem_iff.mp
    (List.mem_map_of_mem hr)
  exact List.mem_of_mem_filter hmem

include h

theorem onePerStore_membersOf : OnePerStore defaultDatabase (membersOf cs gid) :=
  (h.onePerStore gid).perm (rankBy_perm _ _).symm

/-- Equal sort keys are decided by the run id. -/
theorem pairwise_shownRuns :
    (shownRuns useQueryAvg resultsByRun defaultDatabase (membersOf cs gid)).Pairwise fun c d =>
      sortKey useQueryAvg (entryOf resultsByRun defaultDatabase (membersOf cs gid) c) <
          sortKey useQueryAvg (entryOf resultsByRun defaultDatabase (membersOf cs gid) d) ∨
        (sortKey useQueryAvg (entryOf resultsByRun defaultDatabase (membersOf cs gid) c) =
            sortKey useQueryAvg (entryOf resultsByRun defaultDatabase (membersOf cs gid) d) ∧
          c.runId < d.runId) := by
  have hdistinct : (membersOf cs gid).Pairwise fun c d => c.runId ≠ d.runId :=
    List.pairwise_map.mp (onePerStore_membersOf h gid).runIds
  have hsorted : (membersOf cs gid).Pairwise fun c d => c.runId < d.runId :=
    ((pairwise_rankBy _ _).and hdistinct).imp fun hcd => lt_of_le_of_ne hcd.1 hcd.2
  exact pairwise_stable _ (hsorted.filter _)

theorem groupSound_rankedGroup
    (hresults : ∀ runId, ∀ r ∈ resultsByRun runId, r.runId = runId) :
    GroupSound useQueryAvg defaultDatabase cs resultsByRun
      (rankedGroup useQueryAvg resultsByRun defaultDatabase cs gid) where
  onePerStore := by
    have hperm := (map_candidate_groupRows defaultDatabase useQueryAvg resultsByRun
      ((latestPerStoreAndGroup cs).filter (·.groupId = gid))).map Candidate.store
    rw [List.map_map] at hperm
    exact hperm.nodup_iff.mpr
      ((h.onePerStore gid).stores.sublist (List.filter_sublist.map _))
  candidates := by
    intro r hr
    obtain ⟨hmem, hgid⟩ := List.mem_filter.mp (mem_of_mem_rankedGroup useQueryAvg _ gid hr)
    exact ⟨(mem_leastPer hmem).1, of_decide_eq_true hgid⟩
  latest := by
    intro r hr c hc hslot
    have hmem := List.mem_of_mem_filter (mem_of_mem_rankedGroup useQueryAvg _ gid hr)
    have hle : r.candidate.recency ≤ c.recency := (mem_leastPer hmem).2 c hc hslot
    unfold Candidate.recency at hle
    rw [Prod.Lex.toLex_le_toLex] at hle
    rcases hle with hlt | ⟨heq, hid⟩
    · exact Or.inl (neg_lt_neg_iff.mp hlt)
    · exact Or.inr ⟨(neg_inj.mp heq).symm, hid⟩
  ranks := by
    unfold rankedGroup groupRows
    dsimp only
    rw [map_rank_rowsFrom, length_rowsFrom]
    rfl
  order := by
    obtain ⟨response, hresponse, hranked⟩ :=
      analyzeResults_members useQueryAvg hresults (onePerStore_membersOf h gid)
    refine ⟨response, hresponse, ?_⟩
    rw [hranked]
    exact map_entry_rowsFrom _ _ _
  entries := by
    intro r hr
    have hmem := List.mem_of_mem_filter (mem_of_mem_rankedGroup useQueryAvg _ gid hr)
    rw [(h.keyed _ (mem_leastPer hmem).1).key_eq, entry_of_mem_rowsFrom _ hr]
    rfl
  ties := by
    have hpairs := pairwise_shownRuns useQueryAvg h resultsByRun gid
    rw [← map_candidate_rowsFrom (entryOf resultsByRun defaultDatabase (membersOf cs gid)) []
      (shownRuns useQueryAvg resultsByRun defaultDatabase (membersOf cs gid)),
      List.pairwise_map] at hpairs
    refine hpairs.imp_of_mem fun hr hs hrs => ?_
    rw [entry_of_mem_rowsFrom _ hr, entry_of_mem_rowsFrom _ hs]
    exact hrs

end Contract

/-! ## Every run is accounted for -/

section Accounts

theorem groups_compareOf_perm (cs : List Candidate) (ranked : List ComparedGroup) :
    (compareOf cs ranked).groups.Perm (ranked.filter fun g => !g.runs.isEmpty) :=
  rankBy_perm _ _

/-- A group without a run shows nothing, so nothing is lost with it. -/
theorem shown_compareOf_perm (cs : List Candidate) (ranked : List ComparedGroup) :
    ((compareOf cs ranked).groups.flatMap fun g => g.runs.map (·.candidate)).Perm
      (ranked.flatMap fun g => g.runs.map (·.candidate)) := by
  refine ((groups_compareOf_perm cs ranked).flatMap_right _).trans (List.Perm.of_eq ?_)
  induction ranked with
  | nil => rfl
  | cons g ranked ih =>
      cases hruns : g.runs with
      | nil => simp [hruns, ih]
      | cons r runs => simp [hruns, ih]

theorem runCount_compareOf (cs : List Candidate) (ranked : List ComparedGroup) :
    (compareOf cs ranked).runCount =
      ((compareOf cs ranked).groups.flatMap fun g => g.runs.map (·.candidate)).length := by
  rw [List.length_flatMap]
  simp only [List.length_map]
  rfl

/-- The winners of the slots are the candidates less the duplicates. -/
theorem duplicatesCollapsed_compareOf (cs : List Candidate) (ranked : List ComparedGroup) :
    cs.length = (compareOf cs ranked).duplicatesCollapsed +
      (latestPerStoreAndGroup cs).length := by
  have hwinners : (latestPerStoreAndGroup cs).length =
      (firsts (cs.map Candidate.slot)).length := by
    rw [← map_key_leastPer Candidate.recency, List.length_map]
    rfl
  have hle : (firsts (cs.map Candidate.slot)).length ≤ (cs.map Candidate.slot).length :=
    (List.subperm_of_subset (nodup_firsts _) fun _ hs => mem_firsts.mp hs).length_le
  have hcollapsed : (compareOf cs ranked).duplicatesCollapsed =
      (cs.map Candidate.slot).length - (firsts (cs.map Candidate.slot)).length := rfl
  rw [List.length_map] at hle hcollapsed
  omega

variable (useQueryAvg : Bool) (resultsByRun : String → List QueryResult)
  (defaultDatabase : String) (cs : List Candidate)

theorem nodup_groupIds :
    ((compareOf cs (rankedGroups useQueryAvg resultsByRun defaultDatabase cs)).groups.map
      (·.groupId)).Nodup := by
  refine ((groups_compareOf_perm cs _).map _).nodup_iff.mpr
    (List.Nodup.sublist (List.filter_sublist.map _) ?_)
  rw [map_groupId_rankedGroups]
  exact nodup_firsts _

theorem shown_groups :
    ((compareOf cs (rankedGroups useQueryAvg resultsByRun defaultDatabase cs)).groups.flatMap
      fun g => g.runs.map (·.candidate)).Perm
        ((latestPerStoreAndGroup cs).filter (Candidate.hasHit resultsByRun)) :=
  (shown_compareOf_perm cs _).trans (shown_perm defaultDatabase useQueryAvg resultsByRun cs)

theorem accounted_groups :
    cs.length =
      (compareOf cs (rankedGroups useQueryAvg resultsByRun defaultDatabase cs)).runCount +
        (compareOf cs
          (rankedGroups useQueryAvg resultsByRun defaultDatabase cs)).duplicatesCollapsed +
        ((latestPerStoreAndGroup cs).filter fun c => !c.hasHit resultsByRun).length := by
  have hcount := (shown_groups useQueryAvg resultsByRun defaultDatabase cs).length_eq
  rw [← runCount_compareOf] at hcount
  have hwinners := duplicatesCollapsed_compareOf cs
    (rankedGroups useQueryAvg resultsByRun defaultDatabase cs)
  have hsplit := List.length_eq_length_filter_add (l := latestPerStoreAndGroup cs)
    (Candidate.hasHit resultsByRun)
  omega

end Accounts

section Build

variable (digest : GroupPayload → Option String) (shaOf : Value → String) (useQueryAvg : Bool)
  (defaultDatabase : String)

/-- What the response for some bundles promises. -/
structure ComparesSoundly (bundles : List Bundle) (x : Compare) : Prop where
  rearranged : ∀ bundles', Rearranged bundles bundles' →
    buildCompare digest shaOf useQueryAvg defaultDatabase bundles' = some x
  groupIds : (x.groups.map (·.groupId)).Nodup
  groups : ∀ g ∈ x.groups, GroupSound useQueryAvg defaultDatabase
    (allCandidates digest shaOf defaultDatabase bundles) (resultsOf bundles) g
  shown : (x.groups.flatMap fun g => g.runs.map (·.candidate)).Perm
    ((latestPerStoreAndGroup (allCandidates digest shaOf defaultDatabase bundles)).filter
      (Candidate.hasHit (resultsOf bundles)))
  accounted : (allCandidates digest shaOf defaultDatabase bundles).length =
    x.runCount + x.duplicatesCollapsed +
      ((latestPerStoreAndGroup (allCandidates digest shaOf defaultDatabase bundles)).filter
        fun c => !c.hasHit (resultsOf bundles)).length

/-- One configuration run on two databases: in the first experiment the second attempt failed. -/
def oneConfigTwoStores : List EndedExperiment :=
  [{ store := .mongo, experimentId := "e1", database := .mongodb, completedAt := ⟨80, true⟩
     attempts :=
       [⟨"r1", runParamsOf (miniLmGrid .continue 512 [] []) (miniLm, .recursive, 512, 0, 0,
          RetrieverConfig.dense), .complete, 0, 60, 60, none⟩,
        ⟨"r2", runParamsOf (miniLmGrid .continue 256 [] []) (miniLm, .recursive, 256, 0, 0,
          RetrieverConfig.dense), .failed, 60, 70, 10, some "out of memory"⟩]
     results :=
       [⟨"r1", "where?", [⟨"here", "dense", 3 / 4, none⟩, ⟨"there", "dense", 1 / 2, none⟩]⟩] },
   { store := .sqlite, experimentId := "e2", database := .postgres, completedAt := ⟨95, true⟩
     attempts :=
       [⟨"r3", { runParamsOf (miniLmGrid .continue 512 [] []) (miniLm, .recursive, 512, 0, 0,
          RetrieverConfig.dense) with databaseProvider := .postgres }, .complete, 80, 90, 10, none⟩]
     results := [⟨"r3", "where?", [⟨"here", "dense", 3 / 4, some (9 / 10)⟩]⟩] }]

end Build

end RagParamsFinder
