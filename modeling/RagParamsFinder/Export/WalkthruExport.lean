/-
  The results exporter (`scripts/walkthru/export_walkthru_results.py`): `build_export` ranks
  the selected runs with one call of `analyze_results`, marks the best, the median and the
  worst run of each store and tells the story of the primary one.

  The questions file and the databases are what their readers return, or the message of the
  `ExportError` that the reader raises. The parts of the payload that are constant, digests or
  copies of a run's or an experiment's own fields are left out. The payload keeps the recorded
  exclusions beside the groups that it prints, since only they know their database.

  Proved: `build_export_accounts_iff`. The payload accounts for every run exactly when the selected
  runs can be ranked and every one is shown (`accounted_iff`).
-/
import RagParamsFinder.Chunking.Chunkers
import RagParamsFinder.Export.Selection

namespace RagParamsFinder

open Documents Grouping Ranking Traversals

/-- `ExportError`, or another exception. -/
inductive ExportFailure where
  | exportError (message : String) (code : Nat)
  | raised (e : Raised)
  deriving DecidableEq

def exitNoPrimary : Nat := 1

def exitOverCap : Nat := 2

/-! ## Ranking -/

/-- `_tie_signature`. -/
def tieSignature (entry : RankedConfig) : List Int :=
  [entry.maxScore, entry.queryAvgScore, entry.avgScore, entry.key.chunkSize, entry.key.overlap,
    entry.key.padding]

/-- The loop of `apply_run_id_tiebreak`; `block` holds the last tied entries. -/
def tiebreakFrom (block : List (RankedConfig × ExportCandidate)) :
    List (RankedConfig × ExportCandidate) → List (RankedConfig × ExportCandidate)
  | [] => rankBy (·.2.runId) block
  | item :: ranked =>
      if block.head?.any fun first => tieSignature first.1 ≠ tieSignature item.1 then
        rankBy (·.2.runId) block ++ tiebreakFrom [item] ranked
      else tiebreakFrom (block ++ [item]) ranked

/-- `apply_run_id_tiebreak`. -/
def applyRunIdTiebreak (ranked : List (RankedConfig × ExportCandidate)) :
    List (RankedConfig × ExportCandidate) := tiebreakFrom [] ranked

def rowOrder (r : ExportResult) : Lex (String × String) := toLex (r.runId, r.queryId)

/-- `read_results`. -/
def readResults (source : Source) (experimentId : String) (runIds : List String) :
    List ExportResult :=
  (rankBy rowOrder (source.results.filter (·.experimentId = experimentId))).filter
    (·.runId ∈ runIds)

/-- The selected runs of an experiment, of which the first names the database. -/
def experimentRows (selected : List ExportCandidate) (experimentId : String) : List ExportResult :=
  match selected.find? (·.experimentId = experimentId) with
  | some c => readResults c.source experimentId
      ((selected.filter (·.experimentId = experimentId)).map (·.runId))
  | none => []

/-- The rows of `query_results` in `rank_union`. -/
def unionRows (selected : List ExportCandidate) : List ExportResult :=
  rankBy rowOrder ((rankBy id (firsts (selected.map (·.experimentId)))).flatMap
    (experimentRows selected))

/-- What they say. -/
def unionResults (selected : List ExportCandidate) : List QueryResult :=
  (unionRows selected).map (·.result)

/-- `max_raw - min_raw` of the results. -/
def scoreSpan (results : List QueryResult) : Rat :=
  let raws := results.flatMap fun r => r.results.map effectiveScore
  maxRaw raws - minRaw raws

/-- The candidate with its group id folded into the provider slot. -/
def ExportCandidate.folded (c : ExportCandidate) : Candidate :=
  { c.toCandidate with
    run := c.run.set "database_provider" (.str (c.store ++ "#" ++ c.groupId))
    store := c.store ++ "#" ++ c.groupId }

/-- `lookup[...]`, where the last candidate of a key stays. -/
def lookupCandidate (lookup : List (ConfigKey × ExportCandidate)) (key : ConfigKey) :
    Option ExportCandidate :=
  (lookup.reverse.find? fun kc => kc.1 == key).map (·.2)

section Export

variable (useQueryAvg : Bool) (defaultDatabase : String)

/-- `rank_union`. Where the span of the scores is infinite, the highest one becomes no number,
    and `round` raises. -/
def rankUnion (selected : List ExportCandidate) :
    Except Raised (List (RankedConfig × ExportCandidate) × Explored) := do
  let results ← (unionRows selected).mapM ExportResult.read
  let _ ← raising .valueError (finite (scoreSpan results))
  let analysis ← raising .typeError (analyzeResults useQueryAvg defaultDatabase results
    (selected.map (·.folded.run)) none)
  let keys ← selected.mapM fun c => hashedKey defaultDatabase c.folded.run
  let ranked ← raising .keyError (analysis.rankedConfigs.mapM fun entry =>
    (lookupCandidate (keys.zip selected) entry.key).map fun c => (entry, c))
  return (applyRunIdTiebreak ranked, analysis)

end Export

/-! ## The exported runs -/

structure TopResult where
  queryText : String
  score : Int
  rawScore : Rat
  chunkText : String
  retrievalMethod : String

structure ExportedRun where
  candidate : ExportCandidate
  rank : Nat
  storeRank : Nat
  roles : List String
  entry : RankedConfig
  topResults : List TopResult

/-- `clip_text`. -/
def clipText (text : String) : String :=
  let flat := Text.join ((text.toList.splitOnP Text.isSpace).filter (· ≠ []))
  String.ofList (if flat.length ≤ 200 then flat else flat.take 199 ++ ['…'])

/-- `top_results`, after the questions in `seen`. -/
def topResults (seen : List String) : List DetailedResult → List TopResult
  | [] => []
  | row :: rows =>
      if seen.length = 5 then []
      else if row.queryText ∈ seen then topResults seen rows
      else
        { queryText := row.queryText
          score := row.score
          rawScore := row.rawScore
          chunkText := clipText row.hit.chunkText
          retrievalMethod := row.hit.retrievalMethod } :: topResults (row.queryText :: seen) rows

/-- `rows_by_run`. -/
def rowsByRun (analysis : Explored) (runId : String) : List DetailedResult :=
  analysis.detailedResults.filter (·.runId = runId)

/-- `build_runs`, from a position on. -/
def buildRuns (analysis : Explored) :
    Nat → List (RankedConfig × ExportCandidate) → List ExportedRun
  | _, [] => []
  | position, (entry, c) :: ranked =>
      { candidate := c
        rank := position
        storeRank := 0
        roles := []
        entry := entry
        topResults := topResults [] (rowsByRun analysis c.runId) } ::
      buildRuns analysis (position + 1) ranked

structure Picks where
  best : ExportedRun
  median : ExportedRun
  worst : ExportedRun

/-- The best, the median and the worst of some ranked runs; `none` is `IndexError`. -/
def picksOf (ordered : List ExportedRun) : Option Picks := do
  let best ← ordered.head?
  let median ← ordered[(ordered.length - 1) / 2]?
  let worst ← ordered.getLast?
  return ⟨best, median, worst⟩

structure StoreSummary where
  store : String
  isPrimary : Bool
  runCount : Nat
  bestRunId : String
  medianRunId : String
  worstRunId : String

/-- The summaries of `store_summary`. -/
def storeSummary (runs : List ExportedRun) : Except Raised (List StoreSummary) :=
  (rankBy id (firsts (runs.map (·.candidate.store)))).mapM fun store => do
    let ordered := runs.filter (·.candidate.store = store)
    let picks ← raising .indexError (picksOf ordered)
    return { store := store
             isPrimary := store = primaryStore
             runCount := ordered.length
             bestRunId := picks.best.candidate.runId
             medianRunId := picks.median.candidate.runId
             worstRunId := picks.worst.candidate.runId }

/-- The ranks and the roles that `store_summary` marks, after the runs of the stores in
    `seen`. -/
def markRoles (runs : List ExportedRun) : List String → List ExportedRun → List ExportedRun
  | _, [] => []
  | seen, run :: rest =>
      let store := run.candidate.store
      let last := runs.countP (·.candidate.store = store) - 1
      let i := seen.count store
      { run with
        storeRank := i + 1
        roles := (if i = 0 then ["best"] else []) ++ (if i = last / 2 then ["median"] else []) ++
          (if i = last then ["worst"] else []) } :: markRoles runs (seen ++ [store]) rest

/-! ## The story -/

structure ScoreLine where
  runId : String
  rank : Nat
  maxScore : Int
  queryAvgScore : Int
  avgScore : Int

/-- `_score_line`. -/
def scoreLine (run : ExportedRun) : ScoreLine where
  runId := run.candidate.runId
  rank := run.rank
  maxScore := run.entry.maxScore
  queryAvgScore := run.entry.queryAvgScore
  avgScore := run.entry.avgScore

structure StoryQuestion where
  text : String
  focus : Value
  bestTop1 : Int
  worstTop1 : Int
  gap : Int

structure TopChunk where
  runId : String
  position : Nat
  score : Int
  rawScore : Rat
  chunkText : String

/-- `_top_chunks`. -/
def topChunks (rows : List DetailedResult) (runId question : String) : List TopChunk :=
  (((rows.filter (·.queryText = question)).take 3).zipIdx 1).map fun r =>
    { runId := runId
      position := r.2
      score := r.1.score
      rawScore := r.1.rawScore
      chunkText := clipText r.1.hit.chunkText }

/-- `_top1`, for a question of the rows. -/
def top1 (rows : List DetailedResult) (question : String) : Int :=
  (((rows.filter (·.queryText = question)).map (·.score)).max?).getD 0

/-- The question on which the best and the worst run differ most. -/
def storyQuestion (focus : List (String × Value)) (bestRows worstRows : List DetailedResult) :
    Option StoryQuestion :=
  let shared := rankBy id ((firsts (bestRows.map (·.queryText))).filter
    (· ∈ worstRows.map (·.queryText)))
  let gap := fun q => top1 bestRows q - top1 worstRows q
  (rankBy (fun q => toLex (-gap q, q)) shared).head?.map fun text =>
    { text := text
      focus := (focus.lookup text).getD (.str "")
      bestTop1 := top1 bestRows text
      worstTop1 := top1 worstRows text
      gap := gap text }

structure Story where
  runCount : Nat
  best : ScoreLine
  median : ScoreLine
  worst : ScoreLine
  maxScoreSpread : Int
  queryAvgSpread : Int
  question : Option StoryQuestion
  bestTopChunks : List TopChunk
  worstTopChunks : List TopChunk

/-- `build_story`. -/
def buildStory (runs : List ExportedRun) (analysis : Explored) (focus : List (String × Value)) :
    Except Raised Story := do
  let primary := runs.filter (·.candidate.store = primaryStore)
  let picks ← raising .indexError (picksOf primary)
  let bestRows := rowsByRun analysis picks.best.candidate.runId
  let worstRows := rowsByRun analysis picks.worst.candidate.runId
  let question := storyQuestion focus bestRows worstRows
  return {
    runCount := primary.length
    best := scoreLine picks.best
    median := scoreLine picks.median
    worst := scoreLine picks.worst
    maxScoreSpread := picks.best.entry.maxScore - picks.worst.entry.maxScore
    queryAvgSpread := picks.best.entry.queryAvgScore - picks.worst.entry.queryAvgScore
    question := question
    bestTopChunks := (question.map fun q =>
      topChunks bestRows picks.best.candidate.runId q.text).getD []
    worstTopChunks := (question.map fun q =>
      topChunks worstRows picks.worst.candidate.runId q.text).getD [] }

/-- The printed line. -/
def storyLine (strOf : Value → String) (story : Story) : String :=
  match story.question with
  | some q =>
      "Improvement story question (confirm or swap): \"" ++ q.text ++ "\" [" ++ strOf q.focus ++
        s!"] top-1 gap {q.gap} ({q.worstTop1} -> {q.bestTop1})"
  | none => "Improvement story: best and worst runs share no question; none chosen."

/-! ## The payload -/

structure PartialExperiment where
  experimentId : String
  runsTotal : Nat
  runsExported : Nat
  runsNotComplete : Nat

/-- `partial_experiments`. -/
def partialExperiments (selected : List ExportCandidate) : List PartialExperiment :=
  let partials := selected.filter fun c =>
    (c.experiment.get "status").isStr ExperimentStatus.partialStatus.value
  (rankBy id (firsts (partials.map (·.experimentId)))).filterMap fun experimentId =>
    (partials.find? (·.experimentId = experimentId)).map fun c =>
      let runs := readRunRows c.source experimentId
      { experimentId := experimentId
        runsTotal := runs.length
        runsExported := partials.countP (·.experimentId = experimentId)
        runsNotComplete := runs.countP fun r => !(r.doc.get "phase").isStr Phase.complete.value }

def Scope.value : Scope → String
  | .experiment => "experiment"
  | .run => "run"

structure ExclusionGroup where
  scope : String
  reason : String
  count : Nat
  ids : List String

/-- `Exclusions.as_list`. -/
def asList (recorded : List Exclusion) : List ExclusionGroup :=
  (rankBy toLex (firsts (recorded.map fun e => (e.scope.value, e.reason)))).map fun key =>
    let ids := (recorded.filter fun e => (e.scope.value, e.reason) = key).map (·.id)
    { scope := key.1
      reason := key.2
      count := ids.length
      ids := rankBy id ids }

/-- Every recorded exclusion is printed once, under its scope and its reason. -/
theorem asList_perm (recorded : List Exclusion) :
    ((asList recorded).flatMap fun g => g.ids.map fun id => (g.scope, g.reason, id)).Perm
      (recorded.map fun e => (e.scope.value, e.reason, e.id)) := by
  let key : Exclusion → String × String := fun e => (e.scope.value, e.reason)
  have hkeys : (rankBy toLex (firsts (recorded.map key))).Nodup :=
    (rankBy_perm _ _).nodup_iff.mpr (nodup_firsts _)
  have hmem : ∀ e ∈ recorded, key e ∈ rankBy toLex (firsts (recorded.map key)) := fun e he =>
    (rankBy_perm _ _).mem_iff.mpr (mem_firsts.mpr (List.mem_map_of_mem he))
  have hgroups : (groups key recorded (rankBy toLex (firsts (recorded.map key)))).Perm recorded :=
    (groups_perm key recorded hkeys).trans (List.Perm.of_eq
      (List.filter_eq_self.mpr fun e he => by simpa using hmem e he))
  refine List.Perm.trans ?_ (hgroups.map fun e => (e.scope.value, e.reason, e.id))
  unfold asList groups
  rw [List.flatMap_map, List.map_flatMap]
  refine List.Perm.flatMap_left _ fun k _ => ?_
  dsimp only
  refine ((rankBy_perm _ _).map _).trans (List.Perm.of_eq ?_)
  rw [List.map_map]
  refine List.map_congr_left fun e he => ?_
  have hk : key e = k := of_decide_eq_true (List.mem_filter.mp he).2
  rw [← hk]
  rfl

structure Payload where
  experimentsRead : Nat
  runsExported : Nat
  storeCount : Nat
  partialExperiments : List PartialExperiment
  recorded : List Exclusion
  exclusions : List ExclusionGroup
  stores : List StoreSummary
  runs : List ExportedRun
  story : Story

/-- The printed groups hold what was recorded, each exclusion once. -/
def Payload.PrintsRecorded (payload : Payload) : Prop :=
  (payload.exclusions.flatMap fun g => g.ids.map fun id => (g.scope, g.reason, id)).Perm
    (payload.recorded.map fun e => (e.scope.value, e.reason, e.id))

section Export

variable (strOf : Value → String) (digest : GroupPayload → Option GroupDigest)
  (useQueryAvg : Bool) (defaultDatabase questionsName questionsSha : String)
  (needles : List String)

/-- The payload for some selected runs and the exclusions recorded on the way. -/
def assemble (focus : List (String × Value)) (dbs : List Source)
    (recorded : List Exclusion) (selected : List ExportCandidate) :
    Except Raised (Payload × String) := do
  let (ranked, analysis) ← rankUnion useQueryAvg defaultDatabase selected
  let unmarked := buildRuns analysis 1 ranked
  let stores ← storeSummary unmarked
  let runs := markRoles unmarked [] unmarked
  let story ← buildStory runs analysis focus
  let payload : Payload :=
    { experimentsRead := (dbs.map (·.experiments.length)).sum
      runsExported := runs.length
      storeCount := stores.length
      partialExperiments := partialExperiments selected
      recorded := recorded
      exclusions := asList recorded
      stores := stores
      runs := runs
      story := story }
  return (payload, storyLine strOf story)

def noPrimaryMessage (sourceCount candidateCount : Nat) : String :=
  s!"ERROR: no exportable {primaryStore} run found in {sourceCount} database(s) " ++
    s!"({candidateCount} completed runs checked). Run the {primaryStore} sweep first, " ++
    "or pass its run-state file with another --db."

def overCapMessage (selectedCount : Nat) (maxRuns : Int) : String :=
  s!"STOP: the export would hold {selectedCount} runs (cap {maxRuns}). Nothing was " ++
    "written and no run was dropped. Supply a selection rule (narrow the --db inputs) " ++
    "or raise --max-runs."

/-- `build_export`, for what the readers of the questions file and of the databases return. -/
def buildExport (questions : Except String (List (String × Value)))
    (databases : List (Except String Source)) (maxRuns : Int) :
    Except ExportFailure (Payload × String) := do
  let focus ← questions.mapError (.exportError · exitNoPrimary)
  let dbs ← (databases.mapM id).mapError (.exportError · exitNoPrimary)
  let (excluded, candidates) ← (collectCandidates strOf digest questionsName questionsSha
    needles dbs).mapError .raised
  let selected := selectCandidates candidates
  if ¬selected.any (·.store = primaryStore) then
    .error (.exportError (noPrimaryMessage dbs.length candidates.length) exitNoPrimary)
  else if maxRuns < selected.length then
    .error (.exportError (overCapMessage selected.length maxRuns) exitOverCap)
  else
    (assemble strOf useQueryAvg defaultDatabase focus dbs
      (excluded ++ selectionExclusions candidates) selected).mapError .raised

end Export

/-! ## Every selected run that has an entry is ranked -/

theorem tiebreakFrom_perm (block ranked : List (RankedConfig × ExportCandidate)) :
    (tiebreakFrom block ranked).Perm (block ++ ranked) := by
  induction ranked generalizing block with
  | nil =>
      rw [List.append_nil]
      exact rankBy_perm _ _
  | cons item ranked ih =>
      unfold tiebreakFrom
      split
      · exact (rankBy_perm _ _).append (ih [item])
      · exact (ih (block ++ [item])).trans (List.Perm.of_eq (List.append_assoc _ _ _))

section Ranked

variable {defaultDatabase : String}

/-- The key under which a selected run is ranked. -/
def ExportCandidate.foldedKey (defaultDatabase : String) (c : ExportCandidate) : ConfigKey :=
  c.folded.key defaultDatabase

/-- The key of the run has a hash. -/
def ExportCandidate.hashable (c : ExportCandidate) : Bool :=
  match providerLessKey c.run with
  | .ok key => key.hashed.isSome
  | .error _ => false

/-- Whether the key has a hash does not depend on the store. -/
theorem isSome_hashed_store {run : Doc} {key : KeyFields Value}
    (h : providerLessKey run = .ok key) (store : String) :
    ({ key with databaseProvider := Value.str store } : KeyFields Value).hashed.isSome =
      key.hashed.isSome := by
  have hstore : key.databaseProvider = .str "" := by
    have hset := @runConfigKey_of_database "" _ _
      (Doc.item_set_self run "database_provider" (.str ""))
    rw [Doc.set_set] at hset
    change providerLessKey run = (providerLessKey run).map _ at hset
    rw [h] at hset
    exact congrArg KeyFields.databaseProvider (Except.ok.inj hset)
  rw [Bool.eq_iff_iff, isSome_hashed_iff, isSome_hashed_iff]
  simp only [KeyFields.parts, List.forall_mem_cons, hstore]
  rfl

theorem ExportCandidate.Keyed.hashable_iff {c : ExportCandidate} (h : c.Keyed) :
    c.hashable = true ↔ ∃ key, hashedKey defaultDatabase c.folded.run = .ok key := by
  obtain ⟨key, hkey⟩ := h.key
  have hfolded := runConfigKey_set hkey defaultDatabase (c.store ++ "#" ++ c.groupId)
  unfold ExportCandidate.hashable
  rw [hkey]
  dsimp only
  rw [← isSome_hashed_store hkey (c.store ++ "#" ++ c.groupId), Option.isSome_iff_exists]
  refine exists_congr fun k => ?_
  rw [hashedKey_eq_ok]
  constructor
  · exact fun hk => ⟨_, hfolded, hk⟩
  · rintro ⟨fields, hfields, hk⟩
    obtain rfl := Except.ok.inj (hfolded.symm.trans hfields)
    exact hk

theorem ExportCandidate.Keyed.folded {c : ExportCandidate} (h : c.Keyed)
    (hhash : c.hashable = true) : c.folded.Keyed defaultDatabase where
  key := by
    obtain ⟨key, hkey⟩ := h.hashable_iff.mp hhash
    obtain ⟨fields, hfields, hk⟩ := hashedKey_eq_ok.mp hkey
    obtain ⟨own, hown⟩ := h.key
    obtain rfl := Except.ok.inj
      ((runConfigKey_set hown defaultDatabase (c.store ++ "#" ++ c.groupId)).symm.trans hfields)
    exact ⟨key, hkey, (Option.some.inj (databaseProvider_of_hashed hk)).symm⟩
  runId := by
    change (c.run.set "database_provider" (.str _)).item "run_id" >>= textOf = _
    rw [Doc.item_set_of_ne c.run (by decide)]
    exact h.runId
  experimentId := h.experimentId

/-- The store and the group can be read off the folded provider: a digest has one length. -/
theorem slot_of_folded_store {c d : ExportCandidate} (hc : c.groupId.length = 12)
    (hd : d.groupId.length = 12) (h : c.folded.store = d.folded.store) : c.slot = d.slot := by
  have htext := congrArg String.toList h
  change (c.store ++ "#" ++ c.groupId).toList = (d.store ++ "#" ++ d.groupId).toList at htext
  rw [String.toList_append, String.toList_append, String.toList_append, String.toList_append]
    at htext
  have hlen : c.groupId.toList.length = d.groupId.toList.length := by
    rw [String.length_toList, String.length_toList, hc, hd]
  obtain ⟨hstore, hgroup⟩ := List.append_inj' htext hlen
  have hstore := List.append_cancel_right hstore
  exact Prod.ext (String.toList_inj.mp hstore) (String.toList_inj.mp hgroup)

/-- Runs selected for the export. -/
structure Selected (selected : List ExportCandidate) : Prop where
  keyed : ∀ c ∈ selected, c.Keyed
  slots : (selected.map (·.slot)).Nodup
  sources : ∀ c ∈ selected, ∀ d ∈ selected, c.experimentId = d.experimentId →
    c.source = d.source

/-- The rows of selected runs on which nothing raises: the keys have hashes, the hits can be
    read, and the scores span a finite range. -/
structure Rankable (selected : List ExportCandidate) : Prop extends Selected selected where
  hashed : ∀ c ∈ selected, c.hashable = true
  read : ∀ row ∈ unionRows selected, (readHits row.doc).isOk = true
  span : (finite (scoreSpan (unionResults selected))).isSome = true

theorem Rankable.folded {selected : List ExportCandidate} (h : Rankable selected)
    {c : ExportCandidate} (hc : c ∈ selected) : c.folded.Keyed defaultDatabase :=
  (h.keyed c hc).folded (h.hashed c hc)

variable (defaultDatabase) in
theorem Rankable.keys {selected : List ExportCandidate} (h : Rankable selected) :
    (selected.map (ExportCandidate.foldedKey defaultDatabase)).Nodup := by
  refine List.Nodup.map_on (fun c hc d hd heq => ?_) (List.Nodup.of_map _ h.slots)
  refine List.inj_on_of_nodup_map h.slots hc hd ?_
  refine slot_of_folded_store (h.keyed c hc).digest (h.keyed d hd).digest ?_
  have hstores := congrArg KeyFields.databaseProvider heq
  change (c.folded.key defaultDatabase).databaseProvider =
    (d.folded.key defaultDatabase).databaseProvider at hstores
  rw [(h.folded hc).key_store, (h.folded hd).key_store] at hstores
  exact Value.Key.text.inj hstores

theorem Selected.source_of_find {selected : List ExportCandidate} (h : Selected selected)
    {c first : ExportCandidate} (hc : c ∈ selected)
    (hfirst : selected.find? (·.experimentId = c.experimentId) = some first) :
    first.source = c.source := by
  have hid : first.experimentId = c.experimentId := by simpa using List.find?_some hfirst
  exact h.sources first (List.mem_of_find?_eq_some hfirst) c hc hid

/-- A row of the union is one of a selected run, in its database. -/
theorem mem_unionRows {selected : List ExportCandidate} (h : Selected selected)
    {row : ExportResult} :
    row ∈ unionRows selected ↔ ∃ c ∈ selected, row ∈ c.source.results ∧
      row.experimentId = c.experimentId ∧ row.runId = c.runId := by
  unfold unionRows
  simp only [(rankBy_perm _ _).mem_iff, List.mem_flatMap, mem_firsts]
  constructor
  · rintro ⟨e, he, hrow⟩
    unfold experimentRows at hrow
    split at hrow
    · rename_i first hfirst
      obtain ⟨hmem, hid⟩ := List.mem_filter.mp hrow
      obtain ⟨hsource, hexp⟩ := List.mem_filter.mp ((rankBy_perm _ _).mem_iff.mp hmem)
      obtain ⟨c, hselected, hrun⟩ := List.mem_map.mp (of_decide_eq_true hid)
      obtain ⟨hc, hce⟩ := List.mem_filter.mp hselected
      obtain rfl := of_decide_eq_true hce
      have hsame := h.source_of_find hc hfirst
      exact ⟨c, hc, hsame ▸ hsource, of_decide_eq_true hexp, hrun.symm⟩
    · cases hrow
  · rintro ⟨c, hc, hrow, hexp, hrun⟩
    refine ⟨c.experimentId, List.mem_map_of_mem hc, ?_⟩
    unfold experimentRows
    cases hfirst : selected.find? (·.experimentId = c.experimentId) with
    | none => simpa using List.find?_eq_none.mp hfirst c hc
    | some first =>
        have hsame := h.source_of_find hc hfirst
        refine List.mem_filter.mpr ⟨(rankBy_perm _ _).mem_iff.mpr (List.mem_filter.mpr
          ⟨hsame ▸ hrow, decide_eq_true hexp⟩), decide_eq_true ?_⟩
        exact hrun ▸ List.mem_map_of_mem (List.mem_filter.mpr ⟨hc, decide_eq_true rfl⟩)

theorem mem_unionResults {selected : List ExportCandidate} (h : Selected selected)
    {r : QueryResult} :
    r ∈ unionResults selected ↔ ∃ c ∈ selected, ∃ row ∈ c.source.results,
      row.experimentId = c.experimentId ∧ row.runId = c.runId ∧ row.result = r := by
  simp only [unionResults, List.mem_map, mem_unionRows h]
  constructor
  · rintro ⟨row, ⟨c, hc, hrow, hexp, hrun⟩, rfl⟩
    exact ⟨c, hc, row, hrow, hexp, hrun, rfl⟩
  · rintro ⟨c, hc, row, hrow, hexp, hrun, rfl⟩
    exact ⟨row, ⟨c, hc, hrow, hexp, hrun⟩, rfl⟩

variable (defaultDatabase) in
/-- The key under which the results of a selected run id are filed is the one of the last run
    selected with this id. -/
theorem exists_memberKey {selected : List ExportCandidate} {c : ExportCandidate}
    (hc : c ∈ selected) :
    ∃ d ∈ selected, d.runId = c.runId ∧
      selected.reverse.find? (fun d => d.runId == c.runId) = some d ∧
      memberKey defaultDatabase (selected.map (·.folded)) c.runId =
        d.foldedKey defaultDatabase := by
  cases hlast : selected.reverse.find? fun d => d.runId == c.runId with
  | none => simpa using List.find?_eq_none.mp hlast c (List.mem_reverse.mpr hc)
  | some d =>
      refine ⟨d, List.mem_reverse.mp (List.mem_of_find?_eq_some hlast),
        by simpa using List.find?_some hlast, rfl, ?_⟩
      unfold memberKey
      rw [← List.map_reverse, List.find?_map]
      change (((selected.reverse.find? fun d => d.runId == c.runId).map _).map _).getD _ = _
      rw [hlast]
      rfl

/-- Whether the hits of the run can be read. -/
def ExportCandidate.readable (c : ExportCandidate) : Bool :=
  c.source.results.all fun row =>
    !(row.experimentId = c.experimentId ∧ row.runId = c.runId) || (readHits row.doc).isOk

/-- Whether some query of the run retrieved something. -/
def ExportCandidate.retrieved (c : ExportCandidate) : Bool :=
  c.source.results.any fun row => row.experimentId = c.experimentId ∧
    row.runId = c.runId ∧ row.result.results ≠ []

/-- The keys of the hits of the union. -/
def hitKeys (defaultDatabase : String) (selected : List ExportCandidate) : List ConfigKey :=
  (hitsUnder (memberKey defaultDatabase (selected.map (·.folded)))
    (unionResults selected)).map (·.2.key)

/-- The selected runs whose key has a hit. -/
def shownCandidates (defaultDatabase : String) (selected : List ExportCandidate) :
    List ExportCandidate :=
  selected.filter fun c => c.foldedKey defaultDatabase ∈ hitKeys defaultDatabase selected

theorem mem_hitKeys {selected : List ExportCandidate} (h : Selected selected)
    {key : ConfigKey} :
    key ∈ hitKeys defaultDatabase selected ↔ ∃ c ∈ selected, c.retrieved = true ∧
      memberKey defaultDatabase (selected.map (·.folded)) c.runId = key := by
  unfold hitKeys hitsUnder
  simp only [List.mem_map, List.mem_flatMap, mem_unionResults h]
  constructor
  · rintro ⟨m, ⟨r, ⟨c, hc, row, hrow, hexp, hrun, rfl⟩, hit, hhit, rfl⟩, rfl⟩
    refine ⟨c, hc, List.any_eq_true.mpr ⟨row, hrow, decide_eq_true ⟨hexp, hrun, ?_⟩⟩, ?_⟩
    · exact List.ne_nil_of_mem hhit
    · exact congrArg (memberKey defaultDatabase (selected.map (·.folded))) hrun.symm
  · rintro ⟨c, hc, hret, rfl⟩
    obtain ⟨row, hrow, hprop⟩ := List.any_eq_true.mp hret
    obtain ⟨hexp, hrun, hne⟩ := of_decide_eq_true hprop
    obtain ⟨hit, hhit⟩ := List.exists_mem_of_ne_nil _ hne
    exact ⟨_, ⟨row.result, ⟨c, hc, row, hrow, hexp, hrun, rfl⟩, hit, hhit, rfl⟩,
      congrArg (memberKey defaultDatabase (selected.map (·.folded))) hrun⟩


theorem lookupCandidate_of_mem {selected : List ExportCandidate}
    (h : Rankable selected) {c : ExportCandidate} (hc : c ∈ selected) :
    lookupCandidate ((selected.map (ExportCandidate.foldedKey defaultDatabase)).zip selected)
      (c.foldedKey defaultDatabase) = some c :=
  congrArg (Option.map Prod.snd) (find?_zip_key _ (h.keys defaultDatabase) hc)

/-- A hit is filed under the key of a selected run. -/
theorem exists_foldedKey {selected : List ExportCandidate} (h : Rankable selected)
    {key : ConfigKey} (hkey : key ∈ hitKeys defaultDatabase selected) :
    ∃ c ∈ selected, c.foldedKey defaultDatabase = key := by
  obtain ⟨c, hc, -, hmember⟩ := (mem_hitKeys h.toSelected).mp hkey
  obtain ⟨d, hd, -, -, hd'⟩ := exists_memberKey defaultDatabase hc
  exact ⟨d, hd, hd'.symm.trans hmember⟩

/-- The call of `analyze_results` over the union. -/
theorem analyzeResults_union (useQueryAvg : Bool) {selected : List ExportCandidate}
    (h : Rankable selected) :
    ∃ analysis, analyzeResults useQueryAvg defaultDatabase (unionResults selected)
        (selected.map (·.folded.run)) none = some analysis ∧
      analysis.rankedConfigs = rankedConfigs useQueryAvg
        ((hitsUnder (memberKey defaultDatabase (selected.map (·.folded)))
          (unionResults selected)).map (·.2)) := by
  have hkeyed : ∀ c ∈ selected.map (·.folded), c.Keyed defaultDatabase := by
    intro c hc
    obtain ⟨d, hd, rfl⟩ := List.mem_map.mp hc
    exact h.folded hd
  have hruns : selected.map (·.folded.run) = (selected.map (·.folded)).map (·.run) :=
    (List.map_map ..).symm
  have hall : selectedResults (unionResults selected) none = unionResults selected :=
    List.filter_eq_self.mpr fun _ _ => rfl
  rw [hruns]
  refine ⟨_, analyzeResults_of_keys useQueryAvg defaultDatabase _ _ none
    (configKeyOfRun_members hkeyed), ?_⟩
  rw [hall]
  rfl

/-- The entries are those of the keys that have a hit. -/
theorem perm_keys_union (useQueryAvg : Bool) (selected : List ExportCandidate) :
    ((rankedConfigs useQueryAvg ((hitsUnder (memberKey defaultDatabase
        (selected.map (·.folded))) (unionResults selected)).map (·.2))).map (·.key)).Perm
      (firsts (hitKeys defaultDatabase selected)) := by
  refine (perm_keys_rankedConfigs useQueryAvg _).trans (List.Perm.of_eq ?_)
  rw [List.map_map]
  rfl

/-- Every ranked entry is traced back to a selected run, and different ones to different runs. -/
theorem trace_ranked {selected : List ExportCandidate} (h : Rankable selected)
    {entries : List RankedConfig}
    (hentries : (entries.map (·.key)).Perm (firsts (hitKeys defaultDatabase selected))) :
    ∃ ranked, entries.mapM (fun entry => (lookupCandidate
        ((selected.map (ExportCandidate.foldedKey defaultDatabase)).zip selected)
          entry.key).map fun c => (entry, c)) = some ranked ∧
      (ranked.map (·.2)).Perm (shownCandidates defaultDatabase selected) := by
  have hlookup : ∀ entry ∈ entries, ∃ y : RankedConfig × ExportCandidate, (lookupCandidate
      ((selected.map (ExportCandidate.foldedKey defaultDatabase)).zip selected)
        entry.key).map (fun c => (entry, c)) = some y ∧
        entry.key = y.2.foldedKey defaultDatabase ∧ y.2 ∈ selected := by
    intro entry hentry
    obtain ⟨c, hc, hkey⟩ := exists_foldedKey h
      (mem_firsts.mp (hentries.mem_iff.mp (List.mem_map_of_mem hentry)))
    exact ⟨(entry, c), by rw [← hkey, lookupCandidate_of_mem h hc]; rfl, hkey.symm, hc⟩
  obtain ⟨ranked, hranked, htraced⟩ := exists_mapM_some hlookup
  have hkeys : (ranked.map (·.2)).map (ExportCandidate.foldedKey defaultDatabase) =
      entries.map (·.key) := by
    rw [List.map_map, eq_comm, ← List.forall₂_eq_eq_eq, List.forall₂_map_left_iff,
      List.forall₂_map_right_iff]
    exact htraced.imp fun _ _ hy => hy.1
  have hkey : ∀ key, key ∈ entries.map (·.key) ↔ key ∈ hitKeys defaultDatabase selected :=
    fun key => hentries.mem_iff.trans mem_firsts
  have hselected : ∀ c ∈ ranked.map (·.2), c ∈ selected := by
    intro c hc
    obtain ⟨y, hy, rfl⟩ := List.mem_map.mp hc
    obtain ⟨entry, -, -, hmem⟩ := exists_of_mem_forall₂ htraced hy
    exact hmem
  refine ⟨ranked, hranked, (List.perm_ext_iff_of_nodup ?_ ?_).mpr fun c => ?_⟩
  · refine List.Nodup.of_map (ExportCandidate.foldedKey defaultDatabase) ?_
    rw [hkeys]
    exact hentries.nodup_iff.mpr (nodup_firsts _)
  · exact (List.Nodup.of_map _ h.slots).filter _
  · rw [shownCandidates, List.mem_filter, decide_eq_true_iff, ← hkey, ← hkeys]
    constructor
    · exact fun hc => ⟨hselected c hc, List.mem_map_of_mem hc⟩
    · rintro ⟨hc, hranked⟩
      obtain ⟨d, hd, hdc⟩ := List.mem_map.mp hranked
      exact List.inj_on_of_nodup_map (h.keys defaultDatabase) (hselected d hd) hc hdc ▸ hd

/-- The reading of the union. -/
theorem Rankable.mapM_read {selected : List ExportCandidate} (h : Rankable selected) :
    (unionRows selected).mapM ExportResult.read = .ok (unionResults selected) := by
  obtain ⟨results, hresults⟩ : ∃ results, (unionRows selected).mapM ExportResult.read =
      .ok results := by
    refine exists_mapM_iff.mpr fun row hrow => ?_
    have hread := h.read row hrow
    unfold ExportResult.read
    cases hhits : readHits row.doc with
    | error e =>
        rw [hhits] at hread
        cases hread
    | ok hits => exact ⟨_, rfl⟩
  rw [hresults, eq_map_of_mapM (fun _ _ => ExportResult.eq_result_of_read) hresults]
  rfl

theorem Rankable.mapM_keys {selected : List ExportCandidate} (h : Rankable selected) :
    (selected.mapM fun c => hashedKey defaultDatabase c.folded.run) =
      .ok (selected.map (ExportCandidate.foldedKey defaultDatabase)) :=
  mapM_of_forall₂ (List.forall₂_map_right_iff.mpr
    (List.forall₂_same.mpr fun _ hc => (h.folded hc).key_eq))

/-- On rankable runs `rank_union` analyses the union and traces its entries back. -/
theorem rankUnion_of_rankable (useQueryAvg : Bool) {selected : List ExportCandidate}
    (h : Rankable selected) {analysis : Explored}
    (hanalysis : analyzeResults useQueryAvg defaultDatabase (unionResults selected)
      (selected.map (·.folded.run)) none = some analysis)
    {ranked : List (RankedConfig × ExportCandidate)}
    (hranked : (analysis.rankedConfigs.mapM fun entry => (lookupCandidate
        ((selected.map (ExportCandidate.foldedKey defaultDatabase)).zip selected)
          entry.key).map fun c => (entry, c)) = some ranked) :
    rankUnion useQueryAvg defaultDatabase selected =
      .ok (applyRunIdTiebreak ranked, analysis) := by
  obtain ⟨span, hspan⟩ := Option.isSome_iff_exists.mp h.span
  unfold rankUnion
  rw [h.mapM_read]
  change (raising .valueError (finite (scoreSpan (unionResults selected))) >>= _) = _
  rw [hspan]
  change (raising .typeError (analyzeResults _ _ (unionResults selected) _ _) >>= _) = _
  rw [hanalysis]
  change ((selected.mapM fun c => hashedKey defaultDatabase c.folded.run) >>= _) = _
  rw [h.mapM_keys]
  change (raising .keyError (analysis.rankedConfigs.mapM _) >>= _) = _
  rw [hranked]
  rfl

/-- The ranking of the union holds the selected runs whose key has a hit, each once. -/
theorem rankUnion_eq (useQueryAvg : Bool) {selected : List ExportCandidate}
    (h : Rankable selected) :
    ∃ ranked analysis, rankUnion useQueryAvg defaultDatabase selected = .ok (ranked, analysis) ∧
      (ranked.map (·.2)).Perm (shownCandidates defaultDatabase selected) := by
  obtain ⟨analysis, hanalysis, hentries⟩ := analyzeResults_union useQueryAvg h
  obtain ⟨ranked, hranked, hperm⟩ :=
    trace_ranked h (hentries ▸ perm_keys_union useQueryAvg selected)
  exact ⟨applyRunIdTiebreak ranked, analysis, rankUnion_of_rankable useQueryAvg h hanalysis hranked,
    ((tiebreakFrom_perm [] ranked).map _).trans hperm⟩

/-- `rank_union` returns on rankable runs only. -/
theorem rankable_of_rankUnion {useQueryAvg : Bool} {selected : List ExportCandidate}
    (h : Selected selected) {r : List (RankedConfig × ExportCandidate) × Explored}
    (hok : rankUnion useQueryAvg defaultDatabase selected = .ok r) : Rankable selected := by
  unfold rankUnion at hok
  obtain ⟨results, hresults, hok⟩ := bind_eq_ok.mp hok
  obtain ⟨span, hspan, hok⟩ := bind_eq_ok.mp hok
  obtain ⟨analysis, -, hok⟩ := bind_eq_ok.mp hok
  obtain ⟨keys, hkeys, -⟩ := bind_eq_ok.mp hok
  have hunion : results = unionResults selected :=
    eq_map_of_mapM (fun _ _ => ExportResult.eq_result_of_read) hresults
  refine ⟨h, fun c hc => ?_, fun row hrow => ?_, ?_⟩
  · exact (h.keyed _ hc).hashable_iff.mpr (exists_mapM_iff.mp ⟨keys, hkeys⟩ c hc)
  · obtain ⟨q, hq⟩ := exists_mapM_iff.mp ⟨results, hresults⟩ row hrow
    unfold ExportResult.read at hq
    cases hhits : readHits row.doc with
    | error e =>
        rw [hhits] at hq
        cases hq
    | ok hits => rfl
  · rw [← hunion, raising_eq_ok.mp hspan]
    rfl

/-! ## When every selected run is exported -/

/-- Every selected run is shown exactly when no id is selected twice and every run has a hit. -/
theorem shownCandidates_eq_self_iff {selected : List ExportCandidate}
    (h : Rankable selected) :
    shownCandidates defaultDatabase selected = selected ↔
      (selected.map (·.runId)).Nodup ∧ ∀ c ∈ selected, c.retrieved = true := by
  unfold shownCandidates
  simp only [List.filter_eq_self, decide_eq_true_iff]
  constructor
  · intro hall
    have hlast : ∀ c ∈ selected, (∃ d ∈ selected, d.retrieved = true ∧ d.runId = c.runId) ∧
        selected.reverse.find? (fun d => d.runId == c.runId) = some c := by
      intro c hc
      obtain ⟨d, hd, hret, hkey⟩ := (mem_hitKeys h.toSelected).mp (hall c hc)
      obtain ⟨e, he, hid, hfind, hmember⟩ :=
        exists_memberKey defaultDatabase hd
      obtain rfl := List.inj_on_of_nodup_map (h.keys defaultDatabase) he hc
        (hmember.symm.trans hkey)
      rw [hid]
      exact ⟨⟨d, hd, hret, rfl⟩, hfind⟩
    have hinj : ∀ c ∈ selected, ∀ d ∈ selected, c.runId = d.runId → c = d := by
      intro c hc d hd heq
      have hfind := (hlast c hc).2
      rw [heq, (hlast d hd).2] at hfind
      exact (Option.some.inj hfind).symm
    refine ⟨List.Nodup.map_on hinj (List.Nodup.of_map _ h.slots), fun c hc => ?_⟩
    obtain ⟨⟨d, hd, hret, hid⟩, -⟩ := hlast c hc
    exact hinj d hd c hc hid ▸ hret
  · rintro ⟨hids, hret⟩ c hc
    refine (mem_hitKeys h.toSelected).mpr ⟨c, hc, hret c hc, ?_⟩
    obtain ⟨d, hd, hid, -, hkey⟩ := exists_memberKey defaultDatabase hc
    rw [hkey, List.inj_on_of_nodup_map hids hd hc hid]


end Ranked

/-! ## The runs of the payload -/

theorem map_candidate_buildRuns (analysis : Explored) (position : Nat)
    (ranked : List (RankedConfig × ExportCandidate)) :
    (buildRuns analysis position ranked).map (·.candidate) = ranked.map (·.2) := by
  induction ranked generalizing position with
  | nil => rfl
  | cons item ranked ih => exact congrArg (item.2 :: ·) (ih _)

theorem map_candidate_markRoles (all : List ExportedRun) (seen : List String)
    (runs : List ExportedRun) :
    (markRoles all seen runs).map (·.candidate) = runs.map (·.candidate) := by
  induction runs generalizing seen with
  | nil => rfl
  | cons run runs ih => exact congrArg (run.candidate :: ·) (ih _)

theorem exists_picksOf {ordered : List ExportedRun} (h : ordered ≠ []) :
    ∃ picks, picksOf ordered = some picks := by
  have hpos : 0 < ordered.length := List.length_pos_iff.mpr h
  have hmedian : (ordered.length - 1) / 2 < ordered.length := by omega
  unfold picksOf
  rw [List.head?_eq_some_head h, List.getElem?_eq_getElem hmedian, List.getLast?_eq_some_getLast h]
  exact ⟨_, rfl⟩

/-- A store has a run, so its summary never fails. -/
theorem exists_storeSummary (runs : List ExportedRun) :
    ∃ stores, storeSummary runs = .ok stores := by
  refine exists_mapM_iff.mpr fun store hstore => ?_
  obtain ⟨run, hrun, hs⟩ := List.mem_map.mp
    (mem_firsts.mp ((rankBy_perm _ _).mem_iff.mp hstore))
  have hne : runs.filter (·.candidate.store = store) ≠ [] :=
    List.ne_nil_of_mem (List.mem_filter.mpr ⟨hrun, decide_eq_true hs⟩)
  obtain ⟨picks, hpicks⟩ := exists_picksOf hne
  exact ⟨_, by dsimp only; rw [hpicks]; rfl⟩

theorem buildStory_cases (runs : List ExportedRun) (analysis : Explored)
    (focus : List (String × Value)) :
    (runs.any (·.candidate.store = primaryStore) = true ∧
        ∃ story, buildStory runs analysis focus = .ok story) ∨
      (runs.any (·.candidate.store = primaryStore) = false ∧
        buildStory runs analysis focus = .error .indexError) := by
  unfold buildStory
  dsimp only
  by_cases hprimary : runs.filter (·.candidate.store = primaryStore) = []
  · refine Or.inr ⟨?_, by rw [hprimary]; rfl⟩
    exact List.any_eq_false.mpr fun run hrun => List.filter_eq_nil_iff.mp hprimary run hrun
  · obtain ⟨picks, hpicks⟩ := exists_picksOf hprimary
    obtain ⟨run, hrun⟩ := List.exists_mem_of_ne_nil _ hprimary
    obtain ⟨hrun, hstore⟩ := List.mem_filter.mp hrun
    exact Or.inl ⟨List.any_eq_true.mpr ⟨run, hrun, hstore⟩, _, by rw [hpicks]; rfl⟩

section Assemble

variable (strOf : Value → String) (useQueryAvg : Bool) {defaultDatabase : String}
  (focus : List (String × Value)) (dbs : List Source) (recorded : List Exclusion)

theorem assemble_cases {selected : List ExportCandidate} (h : Rankable selected) :
    ((shownCandidates defaultDatabase selected).any (·.store = primaryStore) = true ∧
        ∃ payload line, assemble strOf useQueryAvg defaultDatabase focus dbs recorded selected =
          .ok (payload, line) ∧ payload.recorded = recorded ∧ payload.PrintsRecorded ∧
          (payload.runs.map (·.candidate)).Perm (shownCandidates defaultDatabase selected)) ∨
      ((shownCandidates defaultDatabase selected).any (·.store = primaryStore) = false ∧
        assemble strOf useQueryAvg defaultDatabase focus dbs recorded selected =
          .error .indexError) := by
  obtain ⟨ranked, analysis, hranked, hperm⟩ := rankUnion_eq useQueryAvg h
  obtain ⟨stores, hstores⟩ := exists_storeSummary (buildRuns analysis 1 ranked)
  have hcandidates := map_candidate_markRoles (buildRuns analysis 1 ranked) []
    (buildRuns analysis 1 ranked)
  generalize hruns : markRoles (buildRuns analysis 1 ranked) [] (buildRuns analysis 1 ranked) =
    runs at hcandidates
  rw [map_candidate_buildRuns] at hcandidates
  have hany : runs.any (·.candidate.store = primaryStore) =
      (shownCandidates defaultDatabase selected).any (·.store = primaryStore) := by
    rw [← hperm.any_eq, ← hcandidates, List.any_map]
    rfl
  have hassemble : ∃ payload : Story → Payload,
      (∀ story, (payload story).recorded = recorded ∧ (payload story).PrintsRecorded ∧
        (payload story).runs = runs) ∧
      assemble strOf useQueryAvg defaultDatabase focus dbs recorded selected =
        buildStory runs analysis focus >>= fun story =>
          .ok (payload story, storyLine strOf story) := by
    unfold assemble
    rw [hranked]
    change ∃ payload : Story → Payload, _ ∧ (storeSummary (buildRuns analysis 1 ranked) >>= _) = _
    rw [hstores]
    change ∃ payload : Story → Payload, _ ∧ (buildStory (markRoles _ _ _) _ _ >>= _) = _
    rw [hruns]
    refine ⟨_, fun story => ⟨?_, ?_, ?_⟩, rfl⟩
    · rfl
    · exact asList_perm recorded
    · rfl
  obtain ⟨payload, hpayload, hassemble⟩ := hassemble
  rw [hassemble]
  rcases buildStory_cases runs analysis focus with ⟨hprimary, story, hstory⟩ | ⟨hnone, hstory⟩
  · obtain ⟨hrecorded, hprints, hshown⟩ := hpayload story
    refine Or.inl ⟨hany ▸ hprimary, payload story, _, by rw [hstory]; rfl, hrecorded, hprints, ?_⟩
    rw [hshown, hcandidates]
    exact hperm
  · exact Or.inr ⟨hany ▸ hnone, by rw [hstory]; rfl⟩

/-- The payload is there for rankable runs only. -/
theorem rankable_of_assemble {selected : List ExportCandidate} (h : Selected selected)
    {r : Payload × String}
    (hok : assemble strOf useQueryAvg defaultDatabase focus dbs recorded selected = .ok r) :
    Rankable selected := by
  unfold assemble at hok
  obtain ⟨ranked, hranked, -⟩ := bind_eq_ok.mp hok
  exact rankable_of_rankUnion h hranked

end Assemble

/-! ## Every run of every database -/

/-- How often the payload accounts for a run of the database of a number: as an exported run,
    as an excluded one and with an excluded experiment. -/
def Payload.accountsFor (payload : Payload) (i : Nat) (run : ExportRun) : Nat :=
  payload.runs.countP (fun r => r.candidate.isAt i run.id) +
    payload.recorded.countP (Exclusion.isAbout .run i run.id) +
    payload.recorded.countP (Exclusion.isAbout .experiment i run.experimentId)

/-- The export raises `ExportError`, or it prints what it recorded and accounts for every run
    once. -/
def Accounts (databases : List (Except String Source)) :
    Except ExportFailure (Payload × String) → Prop
  | .error (.exportError _ _) => True
  | .error (.raised _) => False
  | .ok (payload, _) => payload.PrintsRecorded ∧
      ∀ (i : Nat) (db : Source), databases[i]? = some (.ok db) →
        ∀ run ∈ db.runs, payload.accountsFor i run = 1

/-- A reader raises `ExportError`. -/
def Unreadable (questions : Except String (List (String × Value)))
    (databases : List (Except String Source)) : Prop :=
  (∃ message, questions = .error message) ∨ ∃ message, .error message ∈ databases

/-- Every run row has its experiment in the database. -/
def NoOrphans (dbs : List Source) : Prop :=
  ∀ db ∈ dbs, ∀ run ∈ db.runs, run.experimentId ∈ db.experiments.map (·.id)

section Accounts

variable {defaultDatabase : String}

/-- The selected runs are what the ranking relies on. -/
theorem Collected.selected {dbs : List Source} {exclusions : List Exclusion}
    {cs : List ExportCandidate} (h : Collected dbs exclusions cs) :
    Selected (selectCandidates cs) where
  keyed := fun c hc => h.keyed c (mem_of_mem_selectCandidates hc)
  slots := nodup_slots_selectCandidates cs
  sources := fun c hc d hd => h.sources c (mem_of_mem_selectCandidates hc) d
    (mem_of_mem_selectCandidates hd)

section Payload

variable {dbs : List Source} {exclusions : List Exclusion} {cs : List ExportCandidate}
  (h : Collected dbs exclusions cs) {payload : Payload}
  (hrecorded : payload.recorded = exclusions ++ selectionExclusions cs)
  (hruns : (payload.runs.map (·.candidate)).Perm
    (shownCandidates defaultDatabase (selectCandidates cs)))

include h hrecorded hruns

/-- A run is accounted for once, less the times that it is selected and not shown. -/
theorem accountsFor_add_selected {i : Nat} {db : Source} (hdb : dbs[i]? = some db)
    {run : ExportRun} (hrun : run ∈ db.runs) :
    payload.accountsFor i run + (selectCandidates cs).countP (ExportCandidate.isAt i run.id) =
      (decide (run.experimentId ∈ db.experiments.map (·.id))).toNat +
        (shownCandidates defaultDatabase (selectCandidates cs)).countP
          (ExportCandidate.isAt i run.id) := by
  have haccounted := h.accounted i db hdb run hrun
  have hselection := countP_selectionExclusions cs i run.id
  have hnone := countP_experiment_selectionExclusions cs i run.experimentId
  have hexported : payload.runs.countP (fun r => r.candidate.isAt i run.id) =
      (shownCandidates defaultDatabase (selectCandidates cs)).countP
        (ExportCandidate.isAt i run.id) := by
    rw [← hruns.countP_eq, List.countP_map]
    rfl
  unfold Payload.accountsFor
  rw [hrecorded, List.countP_append, List.countP_append, hexported]
  omega

/-- The payload accounts for every run when no row is an orphan and every selected run is
    shown. -/
theorem accountsFor_iff :
    (∀ (i : Nat) (db : Source), dbs[i]? = some db →
        ∀ run ∈ db.runs, payload.accountsFor i run = 1) ↔
      NoOrphans dbs ∧
        shownCandidates defaultDatabase (selectCandidates cs) = selectCandidates cs := by
  have hle : ∀ p : ExportCandidate → Bool,
      (shownCandidates defaultDatabase (selectCandidates cs)).countP p ≤
        (selectCandidates cs).countP p := fun p => List.filter_sublist.countP_le
  constructor
  · intro hall
    refine ⟨fun db hdb run hrun => ?_, List.filter_eq_self.mpr fun c hc => ?_⟩
    · obtain ⟨i, hi⟩ := List.mem_iff_getElem?.mp hdb
      have hone := accountsFor_add_selected h hrecorded hruns hi hrun
      have hless := hle (ExportCandidate.isAt i run.id)
      rw [hall i db hi run hrun] at hone
      by_contra horphan
      rw [decide_eq_false horphan, Bool.toNat_false] at hone
      omega
    · obtain ⟨hi, run, hrun, hid⟩ := h.placed c (mem_of_mem_selectCandidates hc)
      have hone := accountsFor_add_selected h hrecorded hruns hi hrun
      have hless := hle (ExportCandidate.isAt c.index run.id)
      have hbool := Bool.toNat_le (decide (run.experimentId ∈ c.source.experiments.map (·.id)))
      rw [hall c.index c.source hi run hrun] at hone
      have hsame : (shownCandidates defaultDatabase (selectCandidates cs)).countP
          (ExportCandidate.isAt c.index run.id) =
            (selectCandidates cs).countP (ExportCandidate.isAt c.index run.id) := by omega
      exact of_countP_filter_eq hsame hc (decide_eq_true ⟨rfl, hid.symm⟩)
  · rintro ⟨horphans, hshown⟩ i db hi run hrun
    have hone := accountsFor_add_selected h hrecorded hruns hi hrun
    rw [hshown, decide_eq_true (horphans db (List.mem_of_getElem? hi) run hrun),
      Bool.toNat_true] at hone
    omega

end Payload

/-- The runs are rankable, by themselves and their rows. -/
theorem Selected.rankable_iff {selected : List ExportCandidate} (h : Selected selected) :
    Rankable selected ↔ (∀ c ∈ selected, c.hashable = true ∧ c.readable = true) ∧
      (finite (scoreSpan (unionResults selected))).isSome = true := by
  have hread : (∀ c ∈ selected, c.readable = true) ↔
      ∀ row ∈ unionRows selected, (readHits row.doc).isOk = true := by
    simp only [ExportCandidate.readable, List.all_eq_true, Bool.or_eq_true,
      Bool.not_eq_true', decide_eq_false_iff_not, mem_unionRows h]
    constructor
    · rintro hall row ⟨c, hc, hrow, hown⟩
      exact (hall c hc row hrow).resolve_left (not_not.mpr hown)
    · intro hall c hc row hrow
      by_cases hown : row.experimentId = c.experimentId ∧ row.runId = c.runId
      · exact Or.inr (hall row ⟨c, hc, hrow, hown⟩)
      · exact Or.inl hown
  constructor
  · exact fun hr => ⟨fun c hc => ⟨hr.hashed c hc, hread.mpr hr.read c hc⟩, hr.span⟩
  · rintro ⟨hall, hspan⟩
    exact ⟨h, fun c hc => (hall c hc).1, hread.mp fun c hc => (hall c hc).2, hspan⟩

/-- The same of what the exporter returns once a run of the primary store is selected: without
    one that is shown it raises. -/
theorem accounts_assemble_iff (strOf : Value → String) (useQueryAvg : Bool)
    (focus : List (String × Value)) {dbs : List Source} {exclusions : List Exclusion}
    {cs : List ExportCandidate} (h : Collected dbs exclusions cs)
    (hprimary : (selectCandidates cs).any (·.store = primaryStore) = true) :
    Accounts (dbs.map .ok) ((assemble strOf useQueryAvg defaultDatabase focus dbs
        (exclusions ++ selectionExclusions cs) (selectCandidates cs)).mapError .raised) ↔
      Rankable (selectCandidates cs) ∧ NoOrphans dbs ∧
        shownCandidates defaultDatabase (selectCandidates cs) = selectCandidates cs := by
  by_cases hrankable : Rankable (selectCandidates cs)
  · rw [and_iff_right hrankable]
    rcases assemble_cases strOf useQueryAvg focus dbs (exclusions ++ selectionExclusions cs)
      hrankable with ⟨-, payload, line, hok, hrecorded, hprints, hruns⟩ | ⟨hnone, herror⟩
    · rw [hok, ← accountsFor_iff h hrecorded hruns]
      refine (and_iff_right hprints).trans (forall₂_congr fun i db => ?_)
      rw [List.getElem?_map, Option.map_eq_some_iff]
      simp
    · rw [herror]
      refine iff_of_false id fun ⟨_, hself⟩ => ?_
      rw [hself, hprimary] at hnone
      cases hnone
  · cases hassemble : assemble strOf useQueryAvg defaultDatabase focus dbs
        (exclusions ++ selectionExclusions cs) (selectCandidates cs) with
    | error e => exact iff_of_false id fun hall => hrankable hall.1
    | ok r =>
        exact absurd (rankable_of_assemble strOf useQueryAvg focus dbs _ h.selected hassemble)
          hrankable

end Accounts

section Export

variable (strOf : Value → String) (digest : GroupPayload → Option GroupDigest)
  (useQueryAvg : Bool) (defaultDatabase questionsName questionsSha : String)
  (needles : List String)

/-- The runs that the exporter selects from some databases. -/
def selectedFrom (dbs : List Source) : List ExportCandidate :=
  match collectCandidates strOf digest questionsName questionsSha needles dbs with
  | .ok (_, candidates) => selectCandidates candidates
  | .error _ => []

/-- When the runs of some databases are accounted for: no row raises on the way to the selected
    runs, and either an `ExportError` is due, or there is no orphan, no run id is selected twice,
    the key of every selected run has a hash, its hits can be read and there is one, and the
    scores span a finite range. -/
def AccountsWhen (dbs : List Source) (maxRuns : Int) : Prop :=
  let selected := selectedFrom strOf digest questionsName questionsSha needles dbs
  NothingRaises strOf questionsName needles dbs ∧
    (selected.any (·.store = primaryStore) = false ∨ maxRuns < selected.length ∨
      (NoOrphans dbs ∧ (selected.map (·.runId)).Nodup ∧
        (∀ c ∈ selected, c.hashable = true ∧ c.readable = true ∧ c.retrieved = true) ∧
        (finite (scoreSpan (unionResults selected))).isSome = true))

variable {questions : Except String (List (String × Value))} {maxRuns : Int}

variable {dbs : List Source} in
/-- Rankable runs that are all shown, by themselves and their rows. -/
theorem accounted_iff {selected : List ExportCandidate} (h : Selected selected) :
    (Rankable selected ∧ NoOrphans dbs ∧
        shownCandidates defaultDatabase selected = selected) ↔
      NoOrphans dbs ∧ (selected.map (·.runId)).Nodup ∧
        (∀ c ∈ selected, c.hashable = true ∧ c.readable = true ∧ c.retrieved = true) ∧
        (finite (scoreSpan (unionResults selected))).isSome = true := by
  constructor
  · rintro ⟨hr, horphans, hshown⟩
    obtain ⟨hids, hret⟩ := (shownCandidates_eq_self_iff hr).mp hshown
    obtain ⟨hall, hspan⟩ := h.rankable_iff.mp hr
    exact ⟨horphans, hids, fun c hc => ⟨(hall c hc).1, (hall c hc).2, hret c hc⟩, hspan⟩
  · rintro ⟨horphans, hids, hall, hspan⟩
    have hr := h.rankable_iff.mpr ⟨fun c hc => ⟨(hall c hc).1, (hall c hc).2.1⟩, hspan⟩
    exact ⟨hr, horphans,
      (shownCandidates_eq_self_iff hr).mpr ⟨hids, fun c hc => (hall c hc).2.2⟩⟩

/-- What `build_export` does with databases that can be read. -/
theorem buildExport_read (focus : List (String × Value)) (dbs : List Source) :
    buildExport strOf digest useQueryAvg defaultDatabase questionsName questionsSha needles
        (.ok focus) (dbs.map .ok) maxRuns =
      (collectCandidates strOf digest questionsName questionsSha needles
        dbs).mapError .raised >>= fun r =>
          let selected := selectCandidates r.2
          if ¬selected.any (·.store = primaryStore) then
            .error (.exportError (noPrimaryMessage dbs.length r.2.length) exitNoPrimary)
          else if maxRuns < selected.length then
            .error (.exportError (overCapMessage selected.length maxRuns) exitOverCap)
          else
            (assemble strOf useQueryAvg defaultDatabase focus dbs
              (r.1 ++ selectionExclusions r.2) selected).mapError .raised := by
  have hread : (dbs.map Except.ok).mapM id = (.ok dbs : Except String (List Source)) := by
    induction dbs with
    | nil => rfl
    | cons db dbs ih =>
        rw [List.map_cons, List.mapM_cons, ih]
        rfl
  unfold buildExport
  rw [hread]
  rfl

/-- The export of databases that can be read. -/
theorem accounts_read_iff (focus : List (String × Value)) (dbs : List Source) :
    Accounts (dbs.map .ok) (buildExport strOf digest useQueryAvg defaultDatabase questionsName
        questionsSha needles (.ok focus) (dbs.map .ok) maxRuns) ↔
      AccountsWhen strOf digest questionsName questionsSha needles dbs maxRuns := by
  have hraises := exists_collect_iff strOf questionsName needles digest questionsSha dbs
  unfold AccountsWhen selectedFrom
  dsimp only
  rw [buildExport_read, ← hraises]
  cases hcollect : collectCandidates strOf digest questionsName questionsSha needles dbs with
  | error e =>
      constructor
      · exact False.elim
      · rintro ⟨⟨r, hr⟩, -⟩
        cases hr
  | ok r =>
      obtain ⟨excluded, candidates⟩ := r
      have hcollected := collected_of_collect hcollect
      rw [and_iff_right ⟨_, rfl⟩]
      dsimp only
      change Accounts _ (if _ then _ else if _ then _ else _) ↔ _
      by_cases hprimary : (selectCandidates candidates).any (·.store = primaryStore) = true
      · rw [if_neg (not_not.mpr hprimary), hprimary, or_iff_right (by decide)]
        by_cases hcap : maxRuns < (selectCandidates candidates).length
        · rw [if_pos hcap]
          exact iff_of_true trivial (Or.inl hcap)
        · rw [if_neg hcap, or_iff_right hcap,
            accounts_assemble_iff strOf useQueryAvg focus hcollected hprimary]
          exact accounted_iff defaultDatabase hcollected.selected
      · rw [if_pos hprimary]
        exact iff_of_true trivial (Or.inl (Bool.eq_false_iff.mpr hprimary))

end Export

/-! ## A run without hits -/

def twoStoreRun (id store : String) : ExportRun where
  id := id
  experimentId := "e1"
  dimensions := .int 384
  doc := [("run_id", .str id), ("phase", .str "complete"), ("database_provider", .str store),
    ("retrieval_method", .str "dense"), ("embedding_model", .str "m"),
    ("chunking_method", .str "fixed"), ("chunk_size", .int 500), ("overlap", .int 50)]
  doc_id := rfl

/-- The result row of a run with the hits that its question retrieved. -/
def twoStoreResult (runId : String) (hits : List Value) : ExportResult where
  experimentId := "e1"
  runId := runId
  queryId := "q1"
  queryText := "why?"
  doc := [("results", .list hits)]

/-- A complete experiment with a run on the primary store and one on another. -/
def twoStores (primaryHits peerHits : List Value) : Source where
  experiments := [
    { id := "e1"
      doc := [("experiment_id", .str "e1"), ("status", .str "complete"),
        ("queries_file", .str "questions.json")]
      doc_id := rfl }]
  runs := [twoStoreRun "r1" "redis", twoStoreRun "r2" "postgres"]
  results := [twoStoreResult "r1" primaryHits, twoStoreResult "r2" peerHits]
  experimentIds := by decide
  runIds := by decide

def storedHit : Value :=
  .dict [("chunk", .dict [("text", .str "because")]), ("retrieval_method", .str "dense"),
    ("dense_score", .float (1 / 2)), ("rerank_score", .null)]

def someDigest : GroupDigest := ⟨"0123456789ab", rfl⟩

def exportTwoStores (db : Source) : Except ExportFailure (Payload × String) :=
  buildExport (fun v => (textOf v).getD "") (fun _ => some someDigest) true "redis"
    "questions.json" "" [] (.ok []) [.ok db] 600

end RagParamsFinder
