/-
  The explorer (`server/core/results_analyzer.py`): stored query results, grouped by the
  configuration of their run, normalised and ranked.

  Scores are exact rationals, so sums and averages do not depend on the order of summation;
  `round` is Python's, to the nearest integer and a half to the even one. The descriptive
  fields that a detailed result copies from its run are left out.

  Proved: `sameRanking_of_perm`. The ranked configurations, their ranks up to ties on the
  whole sort key, and the number of matches depend on the stored hits only, not on the order
  in which the store returns them.
-/
import Mathlib.Algebra.BigOperators.Group.List.Basic
import Mathlib.Data.Rat.Floor
import Mathlib.Data.String.Basic
import RagParamsFinder.Lib.Conversions
import RagParamsFinder.Lib.Grouping
import RagParamsFinder.Store.RunDocs

namespace RagParamsFinder

open Documents Grouping

/-! ## Stored results -/

/-- A `SearchResult`, with the text of its chunk. -/
structure Hit where
  chunkText : String
  retrievalMethod : String
  denseScore : Rat
  rerankScore : Option Rat
  deriving DecidableEq

/-- A `QueryResult`: the hits of one query in one run. -/
structure QueryResult where
  runId : String
  queryText : String
  results : List Hit
  deriving DecidableEq

/-- `_effective_score`. -/
def effectiveScore (h : Hit) : Rat := h.rerankScore.getD h.denseScore

/-! ## Configuration keys -/

/-- The tuple of `_run_config_key`, whose parts are of a type. -/
structure KeyFields (α : Type) where
  databaseProvider : α
  embeddingProvider : α
  embeddingModel : α
  chunkingMethod : α
  chunkSize : Int
  overlap : Int
  padding : Int
  retrieverType : α
  retrievalProvider : α
  retrieverModel : α
  deriving DecidableEq, Repr

/-- The tuple as the key of a dictionary. -/
abbrev ConfigKey := KeyFields Value.Key

/-- The key of results whose run has no row. -/
def unknownConfigKey : ConfigKey where
  databaseProvider := "unknown"
  embeddingProvider := "unknown"
  embeddingModel := "unknown"
  chunkingMethod := "unknown"
  chunkSize := 0
  overlap := 0
  padding := 0
  retrieverType := "unknown"
  retrievalProvider := "unknown"
  retrieverModel := ""

/-- Retriever type and model: those of `run["retrievers"][0]`, else the legacy fields. -/
def primaryRetriever (run : Doc) (method model : Value) : Except Raised (Value × Value) :=
  match run.get "retrievers" with
  | .list (.dict primary :: _) =>
      .ok (Doc.getDefault primary "type" method, (Doc.get primary "model").orElse model)
  | .list (_ :: _) => .error .attributeError
  | .str s => if s = "" then .ok (method, model) else .error .attributeError
  | .timeText _ _ => .error .attributeError
  | .dict (_ :: _) => .error .keyError
  | v => if v.truthy then .error .typeError else .ok (method, model)

/-- `_run_config_key`. -/
def runConfigKey (defaultDatabase : String) (run : Doc) : Except Raised (KeyFields Value) := do
  let method ← raising .keyError (run.item "retrieval_method")
  let model := (run.get "retrieval_model").orElse (.str "")
  let (retrieverType, retrieverModel) ← primaryRetriever run method model
  let databaseProvider := run.getDefault "database_provider" (.str defaultDatabase)
  let embeddingProvider := run.getDefault "embedding_provider" (.str "local")
  let embeddingModel ← raising .keyError (run.item "embedding_model")
  let chunkingMethod ← raising .keyError (run.item "chunking_method")
  let chunkSize ← raising .keyError (run.item "chunk_size") >>= Value.intOf
  let overlap ← raising .keyError (run.item "overlap") >>= Value.intOf
  let padding ← (run.getDefault "padding" (.int 0)).intOf
  let retrievalProvider := run.getDefault "retrieval_provider" (.str "local")
  return { databaseProvider, embeddingProvider, embeddingModel, chunkingMethod, chunkSize,
           overlap, padding, retrieverType, retrievalProvider, retrieverModel }

/-- `none` when a part of the key is a list or an object, which has no hash. -/
def KeyFields.hashed (key : KeyFields Value) : Option ConfigKey := do
  let databaseProvider ← key.databaseProvider.hashed
  let embeddingProvider ← key.embeddingProvider.hashed
  let embeddingModel ← key.embeddingModel.hashed
  let chunkingMethod ← key.chunkingMethod.hashed
  let retrieverType ← key.retrieverType.hashed
  let retrievalProvider ← key.retrievalProvider.hashed
  let retrieverModel ← key.retrieverModel.hashed
  return { databaseProvider, embeddingProvider, embeddingModel, chunkingMethod
           chunkSize := key.chunkSize, overlap := key.overlap, padding := key.padding
           retrieverType, retrievalProvider, retrieverModel }

/-- The parts that are no numbers. -/
def KeyFields.parts {α : Type} (key : KeyFields α) : List α :=
  [key.databaseProvider, key.embeddingProvider, key.embeddingModel, key.chunkingMethod,
   key.retrieverType, key.retrievalProvider, key.retrieverModel]

theorem isSome_hashed_iff {key : KeyFields Value} :
    key.hashed.isSome ↔ ∀ v ∈ key.parts, v.hashed.isSome := by
  simp only [KeyFields.parts, List.forall_mem_cons, Option.isSome_iff_exists]
  constructor
  · rintro ⟨_, h⟩
    simp only [KeyFields.hashed, Option.bind_eq_bind, Option.bind_eq_some_iff] at h
    obtain ⟨a, ha, b, hb, c, hc, d, hd, e, he, f, hf, g, hg, -⟩ := h
    exact ⟨⟨a, ha⟩, ⟨b, hb⟩, ⟨c, hc⟩, ⟨d, hd⟩, ⟨e, he⟩, ⟨f, hf⟩, ⟨g, hg⟩,
      fun _ h => absurd h List.not_mem_nil⟩
  · rintro ⟨⟨a, ha⟩, ⟨b, hb⟩, ⟨c, hc⟩, ⟨d, hd⟩, ⟨e, he⟩, ⟨f, hf⟩, ⟨g, hg⟩, -⟩
    unfold KeyFields.hashed
    rw [ha, hb, hc, hd, he, hf, hg]
    exact ⟨_, rfl⟩

theorem databaseProvider_of_hashed {key : KeyFields Value} {k : ConfigKey}
    (h : key.hashed = some k) : key.databaseProvider.hashed = some k.databaseProvider := by
  simp only [KeyFields.hashed, Option.bind_eq_bind, Option.bind_eq_some_iff] at h
  obtain ⟨a, ha, b, -, c, -, d, -, e, -, f, -, g, -, h⟩ := h
  obtain rfl := Option.some.inj h
  exact ha

/-- The key of a run in a dictionary. -/
def hashedKey (defaultDatabase : String) (run : Doc) : Except Raised ConfigKey := do
  let key ← runConfigKey defaultDatabase run
  raising .typeError key.hashed

/-- The key of the results of a run: `run_params` keeps the last document of an id. A key
    without a hash is `none`. -/
def configKeyOfRun (defaultDatabase : String) (runStatuses : List Doc) (runId : String) :
    Except Raised (Option ConfigKey) :=
  match runStatuses.reverse.find? fun run => (run.get "run_id").isStr runId with
  | none => .ok (some unknownConfigKey)
  | some run => (runConfigKey defaultDatabase run).map KeyFields.hashed

theorem hashedKey_eq_ok {defaultDatabase : String} {run : Doc} {key : ConfigKey} :
    hashedKey defaultDatabase run = .ok key ↔
      ∃ fields, runConfigKey defaultDatabase run = .ok fields ∧ fields.hashed = some key := by
  unfold hashedKey
  cases hfields : runConfigKey defaultDatabase run with
  | error e => simp [bind, Except.bind]
  | ok fields =>
      cases hhash : fields.hashed <;> simp [bind, Except.bind, raising, hhash]

theorem configKeyOfRun_of_none {defaultDatabase runId : String} {runStatuses : List Doc}
    (h : (runStatuses.reverse.find? fun run => (run.get "run_id").isStr runId) = none) :
    configKeyOfRun defaultDatabase runStatuses runId = .ok (some unknownConfigKey) := by
  simp only [configKeyOfRun, h]

theorem configKeyOfRun_of_find {defaultDatabase runId : String} {runStatuses : List Doc}
    {run : Doc} {key : ConfigKey}
    (hrun : (runStatuses.reverse.find? fun run => (run.get "run_id").isStr runId) = some run)
    (hkey : hashedKey defaultDatabase run = .ok key) :
    configKeyOfRun defaultDatabase runStatuses runId = .ok (some key) := by
  obtain ⟨fields, hfields, hhash⟩ := hashedKey_eq_ok.mp hkey
  simp only [configKeyOfRun, hrun, hfields, Except.map, hhash]

/-! ## Scores -/

/-- A hit with the configuration key of its run and the text of its query. -/
structure MatchedHit where
  key : ConfigKey
  queryText : String
  hit : Hit
  deriving DecidableEq

def rawScores (hits : List MatchedHit) : List Rat := hits.map fun m => effectiveScore m.hit

def minRaw (raws : List Rat) : Rat := raws.min?.getD 0

def maxRaw (raws : List Rat) : Rat := raws.max?.getD 1

def scoreRange (raws : List Rat) : Rat :=
  if maxRaw raws - minRaw raws = 0 then 1 else maxRaw raws - minRaw raws

def normalizedScore (raws : List Rat) (raw : Rat) : Int :=
  roundHalfEven ((raw - minRaw raws) / scoreRange raws * 100)

/-- `round(sum(xs) / len(xs)) if xs else 0`. -/
def roundedMean (xs : List Rat) : Int :=
  if xs.isEmpty then 0 else roundHalfEven (xs.sum / xs.length)

def meanScore (scores : List Int) : Rat := (scores.sum : Rat) / scores.length

/-- The normalised scores of the hits that `p` selects. -/
def scoresWhere (hits : List MatchedHit) (p : MatchedHit → Bool) : List Int :=
  (hits.filter p).map fun m => normalizedScore (rawScores hits) (effectiveScore m.hit)

/-! ## Ranked configurations -/

structure RankedConfig where
  key : ConfigKey
  maxScore : Int
  avgScore : Int
  queryAvgScore : Int
  resultCount : Nat
  deriving DecidableEq, Repr

/-- The queries of a configuration, in order of first hit. -/
def queriesOf (hits : List MatchedHit) (key : ConfigKey) : List String :=
  firsts ((hits.filter (·.key = key)).map (·.queryText))

/-- The mean of each query of a configuration. -/
def queryAverages (hits : List MatchedHit) (key : ConfigKey) : List Rat :=
  (queriesOf hits key).map fun q =>
    meanScore (scoresWhere hits fun m => m.key = key ∧ m.queryText = q)

def rankedConfig (hits : List MatchedHit) (key : ConfigKey) : RankedConfig :=
  let scores := scoresWhere hits fun m => m.key = key
  { key := key
    maxScore := scores.max?.getD 0
    avgScore := roundedMean (scores.map fun s : Int => (s : Rat))
    queryAvgScore := roundedMean (queryAverages hits key)
    resultCount := scores.length }

/-- The tuple the configurations are sorted by; `useQueryAvg` is the setting
    `tiebreaker_metric == "query_avg"`. -/
def sortKey (useQueryAvg : Bool) (c : RankedConfig) : List Int :=
  [-c.maxScore, -(if useQueryAvg then c.queryAvgScore else c.avgScore), c.key.chunkSize,
    c.key.overlap, c.key.padding]

/-- The configurations with a hit, best first; the rank of each is its position. -/
def rankedConfigs (useQueryAvg : Bool) (hits : List MatchedHit) : List RankedConfig :=
  rankBy (sortKey useQueryAvg) ((firsts (hits.map (·.key))).map (rankedConfig hits))

/-! ## The explore response -/

structure DetailedResult where
  score : Int
  rawScore : Rat
  runId : String
  queryText : String
  hit : Hit
  deriving DecidableEq

structure Explored where
  queryCount : Nat
  totalMatches : Nat
  queries : List String
  bestParams : Option RankedConfig
  tiedCount : Nat
  rankedConfigs : List RankedConfig
  detailedResults : List DetailedResult
  deriving DecidableEq

/-- The hits of one result, under the key of its run; `none` is an exception. The key is hashed
    for each hit. -/
def matchResult (defaultDatabase : String) (runStatuses : List Doc) (r : QueryResult) :
    Option (List (String × MatchedHit)) :=
  (configKeyOfRun defaultDatabase runStatuses r.runId).toOption.bind fun key =>
    r.results.mapM fun h => key.map fun key => (r.runId, ⟨key, r.queryText, h⟩)

def detailedResult (raws : List Rat) (m : String × MatchedHit) : DetailedResult where
  score := normalizedScore raws (effectiveScore m.2.hit)
  rawScore := roundHalfEven (effectiveScore m.2.hit * 10000) / 10000
  runId := m.1
  queryText := m.2.queryText
  hit := m.2.hit

/-- The response for matched hits and the queries seen. -/
def explore (useQueryAvg : Bool) (queriesSeen : List String)
    (hits : List (String × MatchedHit)) : Explored :=
  let matched := hits.map (·.2)
  let raws := rawScores matched
  let ranked := rankedConfigs useQueryAvg matched
  let queries := rankBy id (firsts queriesSeen)
  { queryCount := queries.length
    totalMatches := hits.length
    queries := queries
    bestParams := ranked.head?
    tiedCount := ranked.countP fun c => some c.maxScore = ranked.head?.map (·.maxScore)
    rankedConfigs := ranked
    detailedResults := rankBy (fun d => -d.score) (hits.map (detailedResult raws)) }

/-- `analyze_results`. -/
def analyzeResults (useQueryAvg : Bool) (defaultDatabase : String)
    (queryResults : List QueryResult) (runStatuses : List Doc)
    (selectedQuery : Option String) : Option Explored := do
  let selected := match selectedQuery with
    | some q => if q = "" then queryResults else queryResults.filter (·.queryText = q)
    | none => queryResults
  let hits ← selected.mapM (matchResult defaultDatabase runStatuses)
  return explore useQueryAvg (selected.map (·.queryText)) hits.flatten

/-! ## The response as a function of the matched hits -/

/-- The results that the query filter lets through. -/
def selects (selectedQuery : Option String) (queryText : String) : Bool :=
  match selectedQuery with
  | some q => q = "" ∨ queryText = q
  | none => true

def selectedResults (queryResults : List QueryResult) (selectedQuery : Option String) :
    List QueryResult :=
  queryResults.filter fun r => selects selectedQuery r.queryText

/-- The hits of some results, each under the key of its run. -/
def hitsUnder (keyOf : String → ConfigKey) (rows : List QueryResult) :
    List (String × MatchedHit) :=
  rows.flatMap fun r => r.results.map fun h => (r.runId, ⟨keyOf r.runId, r.queryText, h⟩)

/-- When every run has a key, the results are matched and none raises. -/
theorem analyzeResults_of_keys (useQueryAvg : Bool) (defaultDatabase : String)
    (queryResults : List QueryResult) (runStatuses : List Doc) (selectedQuery : Option String)
    {keyOf : String → ConfigKey}
    (h : ∀ runId, configKeyOfRun defaultDatabase runStatuses runId = .ok (some (keyOf runId))) :
    analyzeResults useQueryAvg defaultDatabase queryResults runStatuses selectedQuery =
      some (explore useQueryAvg
        ((selectedResults queryResults selectedQuery).map (·.queryText))
        (hitsUnder keyOf (selectedResults queryResults selectedQuery))) := by
  have hmatch : matchResult defaultDatabase runStatuses = fun r =>
      some (r.results.map fun hit => (r.runId, MatchedHit.mk (keyOf r.runId) r.queryText hit)) := by
    funext r
    rw [matchResult, h]
    exact List.mapM_pure
  have hmap : ∀ rows : List QueryResult,
      rows.mapM (matchResult defaultDatabase runStatuses) =
        some (rows.map fun r => r.results.map fun hit =>
          (r.runId, MatchedHit.mk (keyOf r.runId) r.queryText hit)) := by
    intro rows
    rw [hmatch]
    exact List.mapM_pure
  have hselected : (match selectedQuery with
      | some q => if q = "" then queryResults else queryResults.filter (·.queryText = q)
      | none => queryResults) = selectedResults queryResults selectedQuery := by
    cases selectedQuery with
    | none => exact (List.filter_eq_self.mpr fun _ _ => rfl).symm
    | some q =>
        by_cases hq : q = ""
        · simp [selectedResults, selects, hq]
        · simp [selectedResults, selects, hq]
  unfold analyzeResults
  simp only [hselected, hmap]
  rfl

/-! ## Independence of order -/

/-- The same configurations with the same numbers, the same sort key at each rank, and as
    many matches. -/
structure SameRanking (useQueryAvg : Bool) (x y : Explored) : Prop where
  configs : x.rankedConfigs.Perm y.rankedConfigs
  ranks : x.rankedConfigs.map (sortKey useQueryAvg) = y.rankedConfigs.map (sortKey useQueryAvg)
  total : x.totalMatches = y.totalMatches

theorem roundedMean_perm {xs ys : List Rat} (h : xs.Perm ys) :
    roundedMean xs = roundedMean ys := by
  unfold roundedMean
  rw [h.sum_eq, h.length_eq, h.isEmpty_eq]

theorem meanScore_perm {xs ys : List Int} (h : xs.Perm ys) : meanScore xs = meanScore ys := by
  unfold meanScore
  rw [h.sum_eq, h.length_eq]

theorem normalizedScore_perm {raws raws' : List Rat} (h : raws.Perm raws') :
    normalizedScore raws = normalizedScore raws' := by
  funext raw
  unfold normalizedScore scoreRange maxRaw minRaw
  rw [min?_perm h, max?_perm h]

section Perm

variable {hits hits' : List MatchedHit} (h : hits.Perm hits')

include h

theorem scoresWhere_perm (p : MatchedHit → Bool) :
    (scoresWhere hits p).Perm (scoresWhere hits' p) := by
  have hnorm : normalizedScore (rawScores hits) = normalizedScore (rawScores hits') :=
    normalizedScore_perm (h.map _)
  unfold scoresWhere
  rw [hnorm]
  exact (h.filter p).map _

theorem queryAverages_perm (key : ConfigKey) :
    (queryAverages hits key).Perm (queryAverages hits' key) := by
  have hmean : (fun q => meanScore (scoresWhere hits fun m => m.key = key ∧ m.queryText = q)) =
      fun q => meanScore (scoresWhere hits' fun m => m.key = key ∧ m.queryText = q) :=
    funext fun q => meanScore_perm (scoresWhere_perm h _)
  unfold queryAverages
  rw [hmean]
  exact (firsts_perm ((h.filter _).map _)).map _

theorem rankedConfig_perm : rankedConfig hits = rankedConfig hits' := by
  funext key
  have hs := scoresWhere_perm h fun m => m.key = key
  unfold rankedConfig
  dsimp only
  rw [max?_perm hs, roundedMean_perm (hs.map _), roundedMean_perm (queryAverages_perm h key),
    hs.length_eq]

/-- The entries to be ranked, before sorting. -/
theorem rankedConfigs_perm (useQueryAvg : Bool) :
    (rankedConfigs useQueryAvg hits).Perm (rankedConfigs useQueryAvg hits') ∧
      (rankedConfigs useQueryAvg hits).map (sortKey useQueryAvg) =
        (rankedConfigs useQueryAvg hits').map (sortKey useQueryAvg) := by
  have hentries : ((firsts (hits.map (·.key))).map (rankedConfig hits)).Perm
      ((firsts (hits'.map (·.key))).map (rankedConfig hits')) := by
    rw [rankedConfig_perm h]
    exact (firsts_perm (h.map _)).map _
  exact ⟨(rankBy_perm _ _).trans (hentries.trans (rankBy_perm _ _).symm),
    map_rank_perm (sortKey useQueryAvg) hentries⟩

end Perm

/-- The ranking depends on the hits, not on their order, their run ids or the queries seen. -/
theorem sameRanking_of_perm (useQueryAvg : Bool) {hits hits' : List (String × MatchedHit)}
    (h : (hits.map (·.2)).Perm (hits'.map (·.2))) (seen seen' : List String) :
    SameRanking useQueryAvg (explore useQueryAvg seen hits) (explore useQueryAvg seen' hits') where
  configs := (rankedConfigs_perm h useQueryAvg).1
  ranks := (rankedConfigs_perm h useQueryAvg).2
  total := by
    have hlen := h.length_eq
    rwa [List.length_map, List.length_map] at hlen

end RagParamsFinder
