/-
  The best trial of a Bayesian sweep: the objective that the sampler maximises
  (`_compute_trial_score`) beside the configuration that `bayesian_summary` names as best
  (`_run_best_trial_payload` and `_finalise_bayesian_experiment`, in
  `server/core/pipeline/orchestrator.py`).

  The objective is the mean of the query means of one trial's raw scores. The best
  configuration is the first of `analyze_results`, over every result of the experiment: of
  completed trials, of failed and interrupted ones, and of earlier sweeps.

  Scores are what Python computes with: a type with its arithmetic, of which nothing is
  assumed, so that rounding, overflow and the order of additions are those of the machine.

  Proved:
  * `bestParams_exact`: with exact arithmetic the first of the ranking is the explorer's.
  * `storedBest_eq_some_iff`: the pair stored as best is the one that leads in an order on raw
    scores (best single hit in whole percent, rounded average, size, overlap).
  * `best_is_optimal_iff`: it maximises the objective among the completed trials if and only if
    the two orders have a greatest trial in common.
-/
import RagParamsFinder.Explore.SoundRanking
import RagParamsFinder.Lib.Traversals
import RagParamsFinder.Lifecycle.BayesianTrials

namespace RagParamsFinder

open Documents Grouping Ranking Traversals

/-! ## Scores -/

/-- What Python computes with scores: `ratio` divides integers, `divBy` a score by an integer,
    and `round` is `none` where it raises, at an infinity or a NaN. -/
structure Arithmetic (F : Type) where
  zero : F
  one : F
  less : F → F → Bool
  isZero : F → Bool
  sub : F → F → F
  div : F → F → F
  hundredfold : F → F
  sum : List F → F
  divBy : F → Nat → F
  ratio : Int → Nat → F
  round : F → Option Int

/-- The arithmetic of the explorer's other results. -/
def Arithmetic.exact : Arithmetic Rat where
  zero := 0
  one := 1
  less x y := decide (x < y)
  isZero x := decide (x = 0)
  sub x y := x - y
  div x y := x / y
  hundredfold x := x * 100
  sum := List.sum
  divBy x n := x / n
  ratio i n := (i : Rat) / n
  round x := some (roundHalfEven x)

structure ScoredHit (F : Type) where
  denseScore : F
  rerankScore : Option F

/-- A result as the two aggregates read it. -/
structure TrialResult (F : Type) where
  runId : String
  queryText : String
  hits : List (ScoredHit F)

section Objective

variable {F : Type} (A : Arithmetic F)

/-- The reranker's score if there is one. -/
def ScoredHit.effective (h : ScoredHit F) : F := h.rerankScore.getD h.denseScore

def Arithmetic.mean (xs : List F) : F := A.divBy (A.sum xs) xs.length

/-- The raw scores of some results, each with its query. -/
def scoredHits (rows : List (TrialResult F)) : List (String × F) :=
  rows.flatMap fun r => r.hits.map fun h => (r.queryText, h.effective)

/-- The mean of each query, queries in order of first hit. -/
def Arithmetic.queryMeans (scored : List (String × F)) : List F :=
  (firsts (scored.map (·.1))).map fun q => A.mean ((scored.filter (·.1 = q)).map (·.2))

/-- `_compute_trial_score`. -/
def computeTrialScore (rows : List (TrialResult F)) (runId : String) : F :=
  let scored := scoredHits (rows.filter (·.runId = runId))
  if scored.isEmpty then A.zero else A.mean (A.queryMeans scored)

end Objective

/-! ## The ranking -/

/-- A hit under the configuration key of its run. -/
structure KeyedHit (F : Type) where
  key : ConfigKey
  queryText : String
  raw : F

structure GradedHit where
  key : ConfigKey
  queryText : String
  percent : Int

section Ranking

variable {F : Type} (A : Arithmetic F)

/-- `min(xs)`, the first of the least. -/
def Arithmetic.least : List F → F
  | [] => A.zero
  | x :: xs => xs.foldl (fun m y => if A.less y m then y else m) x

/-- `max(xs)`, the first of the greatest. -/
def Arithmetic.greatest : List F → F
  | [] => A.one
  | x :: xs => xs.foldl (fun m y => if A.less m y then y else m) x

/-- A raw score as a whole percentage of the range of all raw scores. -/
def Arithmetic.normalized (raws : List F) (raw : F) : Option Int :=
  let range := A.sub (A.greatest raws) (A.least raws)
  let range := if A.isZero range then A.one else range
  A.round (A.hundredfold (A.div (A.sub raw (A.least raws)) range))

/-- The mean percentage of each query. -/
def Arithmetic.queryRatios (graded : List (String × Int)) : List F :=
  (firsts (graded.map (·.1))).map fun q =>
    let scores := (graded.filter (·.1 = q)).map (·.2)
    A.ratio scores.sum scores.length

/-- The entry of a configuration, from its graded hits. -/
def Arithmetic.entryOf (key : ConfigKey) (graded : List (String × Int)) : Option RankedConfig := do
  let scores := graded.map (·.2)
  let queryAvg ← A.round (A.mean (A.queryRatios graded))
  let avg ← A.round (A.ratio scores.sum scores.length)
  return { key := key
           maxScore := scores.max?.getD 0
           avgScore := avg
           queryAvgScore := queryAvg
           resultCount := scores.length }

def GradedHit.pair (g : GradedHit) : String × Int := (g.queryText, g.percent)

/-- The graded hits of a key. -/
def gradedUnder (graded : List GradedHit) (key : ConfigKey) : List (String × Int) :=
  (graded.filter (·.key = key)).map GradedHit.pair

def Arithmetic.gradeHit (raws : List F) (h : KeyedHit F) : Option GradedHit :=
  (A.normalized raws h.raw).map (GradedHit.mk h.key h.queryText)

/-- The first of the ranking of `analyze_results`; `none` as well when it raises. -/
def Arithmetic.bestParams (useQueryAvg : Bool) (hits : List (KeyedHit F)) :
    Option RankedConfig := do
  let graded ← hits.mapM (A.gradeHit (hits.map (·.raw)))
  let configs ← (firsts (graded.map (·.key))).mapM fun key =>
    A.entryOf key (gradedUnder graded key)
  (rankBy (sortKey useQueryAvg) configs).head?

/-- The hits of some results, each under the key of its run. -/
def keyedHits (keyOf : String → ConfigKey) (rows : List (TrialResult F)) : List (KeyedHit F) :=
  rows.flatMap fun r => r.hits.map fun h => ⟨keyOf r.runId, r.queryText, h.effective⟩

/-- The same, with the keys of the run rows. -/
def matchHits (defaultDatabase : String) (runStatuses : List Doc) (rows : List (TrialResult F)) :
    Option (List (KeyedHit F)) := do
  let hits ← rows.mapM fun r =>
    (configKeyOfRun defaultDatabase runStatuses r.runId).toOption.bind fun key =>
      r.hits.mapM fun h => key.map fun key => KeyedHit.mk key r.queryText h.effective
  return hits.flatten

end Ranking

/-! ## What is stored when a sweep ends -/

/-- A run of the experiment; `swept` if the sweep that ends began it. -/
structure TrialRun where
  attempt : RunAttempt
  swept : Bool

def TrialRun.pair (t : TrialRun) : Int × Int := t.attempt.params.pair

/-- The runs and results of a Bayesian experiment: every run is the template with a pair of
    its own, and every result belongs to a run. -/
structure TrialStore (F : Type) where
  cfg : ExperimentConfig
  bayesian : cfg.isBayesian = true
  template : RunParams
  expanded : (expandSweep cfg).head? = some template
  runs : List TrialRun
  rows : List (TrialResult F)
  ids : (runs.map (·.attempt.runId)).Nodup
  params : ∀ t ∈ runs, t.attempt.params = trialParams template t.pair.1 t.pair.2
  owned : ∀ r ∈ rows, r.runId ∈ runs.map (·.attempt.runId)

section Store

variable {F : Type} (A : Arithmetic F) (b : TrialStore F)

def TrialStore.score (t : TrialRun) : F := computeTrialScore A b.rows t.attempt.runId

/-- The completed trials of the sweep. -/
def TrialStore.completed : List TrialRun :=
  b.runs.filter fun t => t.swept && decide (t.attempt.phase = .complete)

/-- No completed trial has a greater objective. -/
def TrialStore.Maximal (t : TrialRun) : Prop :=
  ∀ t' ∈ b.completed, A.less (b.score A t) (b.score A t') = false

variable (st : RunStateStore) (defaultDatabase : String) (useQueryAvg : Bool) (e : String)

/-- `_run_best_trial_payload`. -/
def runBestTrialPayload : Option RankedConfig :=
  if b.rows.isEmpty then none
  else
    (matchHits defaultDatabase (readRuns st (b.runs.map fun t => (e, t.attempt))) b.rows).bind
      (A.bestParams useQueryAvg)

/-- `best_chunk_size` and `best_overlap` of `bayesian_summary`. -/
def storedBest : Option (Int × Int) :=
  if b.runs.any (·.swept) then
    (runBestTrialPayload A b st defaultDatabase useQueryAvg e).map fun c =>
      (c.key.chunkSize, c.key.overlap)
  else none

/-- The pair stored as best is that of a completed trial whose objective is maximal. -/
def BestIsOptimal : Prop :=
  ∀ pair, storedBest A b st defaultDatabase useQueryAvg e = some pair →
    ∃ t ∈ b.completed, t.pair = pair ∧ b.Maximal A t

end Store

/-! ## The order that decides -/

section Leader

variable {F : Type} (A : Arithmetic F) (b : TrialStore F) (useQueryAvg : Bool)

def TrialStore.pairOf (runId : String) : Option (Int × Int) :=
  (b.runs.find? fun t => t.attempt.runId == runId).map (·.pair)

/-- The raw scores of the runs of a pair. -/
def TrialStore.scoredOf (pair : Int × Int) : List (String × F) :=
  scoredHits (b.rows.filter fun r => b.pairOf r.runId = some pair)

/-- The same in whole percent of the range of all raw scores. -/
def TrialStore.percentsOf (pair : Int × Int) : Option (List (String × Int)) :=
  (b.scoredOf pair).mapM fun x =>
    (A.normalized ((scoredHits b.rows).map (·.2)) x.2).map fun percent => (x.1, percent)

/-- What a pair shows: its best single hit and its average, over queries or over hits. -/
structure Showing where
  best : Int
  average : Int

/-- What the runs of a pair show; `none` where rounding raises. -/
def TrialStore.showing (pair : Int × Int) : Option Showing := do
  let percents ← b.percentsOf A pair
  let scores := percents.map (·.2)
  let queryAvg ← A.round (A.mean (A.queryRatios percents))
  let avg ← A.round (A.ratio scores.sum scores.length)
  return ⟨scores.max?.getD 0, if useQueryAvg then queryAvg else avg⟩

/-- A better hit, then a better average, then the smaller size, then the smaller overlap. -/
def Ahead (p q : Int × Int) (x y : Showing) : Prop :=
  y.best < x.best ∨ y.best = x.best ∧
    (y.average < x.average ∨ y.average = x.average ∧ (p.1 < q.1 ∨ p.1 = q.1 ∧ p.2 ≤ q.2))

/-- Each pair that has a hit has something to show. -/
def TrialStore.AllShow : Prop :=
  ∀ pair, b.scoredOf pair ≠ [] → (b.showing A useQueryAvg pair).isSome

/-- The pair has a hit, and is ahead of every other pair that has one. -/
def TrialStore.Leads (pair : Int × Int) : Prop :=
  b.scoredOf pair ≠ [] ∧ ∃ x, b.showing A useQueryAvg pair = some x ∧
    ∀ pair', b.scoredOf pair' ≠ [] → ∃ y, b.showing A useQueryAvg pair' = some y ∧
      Ahead pair pair' x y

end Leader

/-! ## Exact arithmetic -/

/-- A result of the explorer, for the aggregates. -/
def QueryResult.toTrial (r : QueryResult) : TrialResult Rat where
  runId := r.runId
  queryText := r.queryText
  hits := r.results.map fun h => ⟨h.denseScore, h.rerankScore⟩

section Exact

theorem least_exact (raws : List Rat) : Arithmetic.exact.least raws = minRaw raws := by
  cases raws with
  | nil => rfl
  | cons x xs =>
      have hmin : (fun m y : Rat => if Arithmetic.exact.less y m then y else m) = min := by
        funext m y
        rw [min_comm, min_def_lt]
        simp [Arithmetic.exact]
      rw [Arithmetic.least, hmin]
      rfl

theorem greatest_exact (raws : List Rat) : Arithmetic.exact.greatest raws = maxRaw raws := by
  cases raws with
  | nil => rfl
  | cons x xs =>
      have hmax : (fun m y : Rat => if Arithmetic.exact.less m y then y else m) = max := by
        funext m y
        rw [max_def_lt]
        simp [Arithmetic.exact]
      rw [Arithmetic.greatest, hmax]
      rfl

theorem normalized_exact (raws : List Rat) (raw : Rat) :
    Arithmetic.exact.normalized raws raw = some (normalizedScore raws raw) := by
  unfold Arithmetic.normalized normalizedScore scoreRange
  rw [least_exact, greatest_exact]
  by_cases h : maxRaw raws - minRaw raws = 0 <;> simp [Arithmetic.exact, h]

theorem ratio_exact (scores : List Int) :
    Arithmetic.exact.ratio scores.sum scores.length = meanScore scores := rfl

theorem roundedMean_eq (xs : List Rat) : roundedMean xs = roundHalfEven (xs.sum / xs.length) := by
  cases xs with
  | nil => decide +kernel
  | cons x xs => rfl

theorem meanScore_eq (scores : List Int) :
    meanScore scores =
      (scores.map fun s : Int => (s : Rat)).sum / (scores.map fun s : Int => (s : Rat)).length := by
  unfold meanScore
  rw [List.length_map]
  congr 1
  induction scores with
  | nil => rfl
  | cons s scores ih => rw [List.sum_cons, List.map_cons, List.sum_cons, ← ih, Int.cast_add]

variable (hits : List MatchedHit)

def MatchedHit.keyed (m : MatchedHit) : KeyedHit Rat := ⟨m.key, m.queryText, effectiveScore m.hit⟩

def MatchedHit.graded (m : MatchedHit) : GradedHit :=
  ⟨m.key, m.queryText, normalizedScore (rawScores hits) (effectiveScore m.hit)⟩

theorem entryOf_exact (key : ConfigKey) :
    Arithmetic.exact.entryOf key (gradedUnder (hits.map (MatchedHit.graded hits)) key) =
      some (rankedConfig hits key) := by
  have hunder : gradedUnder (hits.map (MatchedHit.graded hits)) key =
      (hits.filter (·.key = key)).map fun m => (MatchedHit.graded hits m).pair := by
    unfold gradedUnder
    rw [List.filter_map, List.map_map]
    rfl
  have hscores : (gradedUnder (hits.map (MatchedHit.graded hits)) key).map (·.2) =
      scoresWhere hits fun m => m.key = key := by
    rw [hunder, List.map_map]
    rfl
  have hqueries : Arithmetic.exact.queryRatios
      (gradedUnder (hits.map (MatchedHit.graded hits)) key) = queryAverages hits key := by
    unfold Arithmetic.queryRatios queryAverages queriesOf
    rw [hunder, List.map_map]
    refine List.map_congr_left fun q _ => ?_
    dsimp only
    rw [ratio_exact, List.filter_map, List.map_map, List.filter_filter]
    unfold scoresWhere
    congr 2
    refine List.filter_congr fun m _ => ?_
    simp [Bool.and_comm, MatchedHit.graded, GradedHit.pair]
  unfold Arithmetic.entryOf rankedConfig
  rw [hscores, hqueries]
  simp only [roundedMean_eq, ← meanScore_eq]
  rfl

/-- With exact arithmetic the first of the ranking is the explorer's. -/
theorem bestParams_exact (useQueryAvg : Bool) (keyOf : String → ConfigKey)
    (rows : List QueryResult) :
    Arithmetic.exact.bestParams useQueryAvg (keyedHits keyOf (rows.map QueryResult.toTrial)) =
      (rankedConfigs useQueryAvg ((hitsUnder keyOf rows).map (·.2))).head? := by
  have hhits : keyedHits keyOf (rows.map QueryResult.toTrial) =
      ((hitsUnder keyOf rows).map (·.2)).map MatchedHit.keyed := by
    simp only [keyedHits, hitsUnder, List.flatMap_map, List.map_flatMap, List.map_map,
      QueryResult.toTrial]
    rfl
  rw [hhits]
  generalize (hitsUnder keyOf rows).map (·.2) = hits
  have hgraded : (hits.map MatchedHit.keyed).mapM
      (Arithmetic.exact.gradeHit ((hits.map MatchedHit.keyed).map (·.raw))) =
        some (hits.map (MatchedHit.graded hits)) := by
    rw [mapM_map_some]
    refine mapM_eq_some_map fun m _ => ?_
    have hraws : (hits.map MatchedHit.keyed).map (·.raw) = rawScores hits := by
      rw [List.map_map]
      rfl
    rw [hraws, Arithmetic.gradeHit, normalized_exact]
    rfl
  have hkeys : (hits.map (MatchedHit.graded hits)).map (·.key) = hits.map (·.key) := by
    rw [List.map_map]
    rfl
  unfold Arithmetic.bestParams rankedConfigs
  rw [hgraded, Option.bind_eq_bind, Option.bind_some, hkeys,
    mapM_eq_some_map fun key _ => entryOf_exact hits key]
  rfl

end Exact

/-! ## The ranking by pairs -/

/-- The configuration key of the runs of a pair. -/
def pairKey (template : RunParams) (pair : Int × Int) : ConfigKey :=
  configKey (trialParams template pair.1 pair.2)

theorem pairKey_injective (template : RunParams) : (pairKey template).Injective := by
  intro p q h
  exact Prod.ext (congrArg KeyFields.chunkSize h) (congrArg KeyFields.overlap h)

def RankedConfig.showing (useQueryAvg : Bool) (c : RankedConfig) : Showing :=
  ⟨c.maxScore, if useQueryAvg then c.queryAvgScore else c.avgScore⟩

/-- The explorer sorts the entries of two pairs as one is ahead of the other. -/
theorem sortKey_le_iff (useQueryAvg : Bool) {template : RunParams} {p q : Int × Int}
    {c d : RankedConfig} (hc : c.key = pairKey template p) (hd : d.key = pairKey template q) :
    sortKey useQueryAvg c ≤ sortKey useQueryAvg d ↔
      Ahead p q (c.showing useQueryAvg) (d.showing useQueryAvg) := by
  rw [← not_lt]
  unfold sortKey Ahead RankedConfig.showing
  rw [hc, hd]
  simp only [pairKey, configKey, trialParams, List.cons_lt_cons_iff, lt_self_iff_false,
    neg_lt_neg_iff, neg_inj]
  grind

theorem ahead_antisymm {p q : Int × Int} {x y : Showing} (h : Ahead p q x y)
    (h' : Ahead q p y x) : p = q := by
  unfold Ahead at h h'
  refine Prod.ext ?_ ?_ <;> omega

section Ranking

variable {F : Type} (A : Arithmetic F) (b : TrialStore F) (useQueryAvg : Bool) (e : String)

/-- The key under which the explorer files the results of a run. -/
def TrialStore.keyOf (runId : String) : ConfigKey :=
  runKey (b.runs.map fun t => (e, t.attempt)) runId

/-- The hits that the explorer matches. -/
def TrialStore.hits : List (KeyedHit F) := keyedHits (b.keyOf e) b.rows

def KeyedHit.scored (h : KeyedHit F) : String × F := (h.queryText, h.raw)

theorem TrialStore.find_of_mem {t : TrialRun} (ht : t ∈ b.runs) :
    (b.runs.find? fun u => u.attempt.runId == t.attempt.runId) = some t :=
  (find?_key_eq_some_iff (·.attempt.runId) b.ids).mpr ⟨ht, rfl⟩

theorem TrialStore.keyOf_of_mem {t : TrialRun} (ht : t ∈ b.runs) :
    b.keyOf e t.attempt.runId = pairKey b.template t.pair := by
  have hfind : (b.runs.reverse.find? fun u => u.attempt.runId == t.attempt.runId) = some t := by
    have hids : (b.runs.reverse.map (·.attempt.runId)).Nodup := by
      rw [List.map_reverse]
      exact List.nodup_reverse.mpr b.ids
    exact (find?_key_eq_some_iff (·.attempt.runId) hids).mpr ⟨List.mem_reverse.mpr ht, rfl⟩
  unfold TrialStore.keyOf runKey
  rw [← List.map_reverse, List.find?_map]
  simp only [Function.comp_def, hfind, Option.map_some, Option.getD_some]
  rw [b.params t ht]
  rfl

theorem TrialStore.keyOf_eq_iff {r : TrialResult F} (hr : r ∈ b.rows) (pair : Int × Int) :
    b.keyOf e r.runId = pairKey b.template pair ↔ b.pairOf r.runId = some pair := by
  obtain ⟨t, ht, hid⟩ := List.mem_map.mp (b.owned r hr)
  rw [← hid, b.keyOf_of_mem e ht, TrialStore.pairOf, b.find_of_mem ht, Option.map_some,
    Option.some_inj]
  exact (pairKey_injective b.template).eq_iff

theorem TrialStore.map_scored_hits : (b.hits e).map KeyedHit.scored = scoredHits b.rows := by
  simp only [TrialStore.hits, keyedHits, scoredHits, List.map_flatMap, List.map_map]
  rfl

theorem TrialStore.map_raw_hits : (b.hits e).map (·.raw) = (scoredHits b.rows).map (·.2) := by
  rw [← b.map_scored_hits e, List.map_map]
  rfl

/-- The hits under a key are those of the results whose run has the key. -/
theorem map_scored_keyedHits {keyOf : String → ConfigKey} {key : ConfigKey}
    {p : TrialResult F → Bool} {rows : List (TrialResult F)}
    (h : ∀ r ∈ rows, decide (keyOf r.runId = key) = p r) :
    ((keyedHits keyOf rows).filter (·.key = key)).map KeyedHit.scored =
      scoredHits (rows.filter p) := by
  induction rows with
  | nil => rfl
  | cons r rows ih =>
      have hr := h r (List.mem_cons_self ..)
      have hrest := ih fun r' hr' => h r' (List.mem_cons_of_mem _ hr')
      unfold keyedHits scoredHits at hrest ⊢
      rw [List.flatMap_cons, List.filter_append, List.map_append, hrest]
      cases hp : p r with
      | true =>
          rw [hp, decide_eq_true_iff] at hr
          rw [List.filter_cons_of_pos hp, List.flatMap_cons]
          congr 1
          simp only [List.filter_map, Function.comp_def, hr, decide_true]
          simp [KeyedHit.scored]
      | false =>
          rw [hp, decide_eq_false_iff_not] at hr
          rw [List.filter_cons_of_neg (by simp [hp])]
          simp [List.filter_map, Function.comp_def, hr]

theorem TrialStore.map_scored_hits_filter (pair : Int × Int) :
    ((b.hits e).filter (·.key = pairKey b.template pair)).map KeyedHit.scored =
      b.scoredOf pair :=
  map_scored_keyedHits fun r hr => by
    rw [Bool.eq_iff_iff, decide_eq_true_iff, decide_eq_true_iff]
    exact b.keyOf_eq_iff e hr pair

theorem TrialStore.key_of_mem_hits {h : KeyedHit F} (hh : h ∈ b.hits e) :
    ∃ pair, h.key = pairKey b.template pair ∧ h.scored ∈ b.scoredOf pair := by
  obtain ⟨r, hr, hn⟩ := List.mem_flatMap.mp hh
  obtain ⟨t, ht, hid⟩ := List.mem_map.mp (b.owned r hr)
  have hkey : h.key = pairKey b.template t.pair := by
    obtain ⟨_, -, rfl⟩ := List.mem_map.mp hn
    change b.keyOf e r.runId = _
    rw [← hid]
    exact b.keyOf_of_mem e ht
  refine ⟨t.pair, hkey, ?_⟩
  rw [← b.map_scored_hits_filter e]
  exact List.mem_map_of_mem (List.mem_filter.mpr ⟨hh, decide_eq_true hkey⟩)

theorem TrialStore.scoredOf_ne_nil_iff (pair : Int × Int) :
    b.scoredOf pair ≠ [] ↔ pairKey b.template pair ∈ (b.hits e).map (·.key) := by
  rw [← b.map_scored_hits_filter e, Ne, List.map_eq_nil_iff, List.filter_eq_nil_iff,
    List.mem_map]
  simp only [decide_eq_true_eq, not_forall, not_not, exists_prop]

theorem Arithmetic.key_of_gradeHit {raws : List F} {h : KeyedHit F} {g : GradedHit}
    (hg : A.gradeHit raws h = some g) : g.key = h.key := by
  obtain ⟨_, -, rfl⟩ := Option.map_eq_some_iff.mp hg
  rfl

/-- The percentages of a pair, in the explorer and here. -/
theorem TrialStore.percentsOf_eq {graded : List GradedHit}
    (h : (b.hits e).mapM (A.gradeHit ((b.hits e).map (·.raw))) = some graded)
    (pair : Int × Int) :
    b.percentsOf A pair = some (gradedUnder graded (pairKey b.template pair)) := by
  have hfilter := mapM_filter_some (p := fun x => decide (x.key = pairKey b.template pair))
    (q := fun g => decide (g.key = pairKey b.template pair))
    (fun x g hg => by rw [A.key_of_gradeHit hg]) h
  have hgrade : (fun x : KeyedHit F =>
      (A.normalized ((scoredHits b.rows).map (·.2)) x.scored.2).map fun percent =>
        (x.scored.1, percent)) =
      fun x => (A.gradeHit ((b.hits e).map (·.raw)) x).map GradedHit.pair := by
    funext x
    rw [← b.map_raw_hits e, Arithmetic.gradeHit, Option.map_map]
    rfl
  unfold TrialStore.percentsOf
  rw [← b.map_scored_hits_filter e, mapM_map_some, hgrade, mapM_option_map, hfilter]
  rfl

theorem TrialStore.showing_eq (pair : Int × Int) :
    b.showing A useQueryAvg pair =
      ((b.percentsOf A pair).bind (A.entryOf (pairKey b.template pair))).map
        (RankedConfig.showing useQueryAvg) := by
  unfold TrialStore.showing Arithmetic.entryOf
  cases b.percentsOf A pair with
  | none => rfl
  | some percents =>
      simp only [Option.bind_eq_bind, Option.bind_some]
      cases A.round (A.mean (A.queryRatios percents)) with
      | none => rfl
      | some queryAvg =>
          simp only [Option.bind_some]
          cases A.round (A.ratio (percents.map (·.2)).sum (percents.map (·.2)).length) <;> rfl

theorem Arithmetic.key_of_entryOf {key : ConfigKey} {graded : List (String × Int)}
    {c : RankedConfig} (h : A.entryOf key graded = some c) : c.key = key := by
  unfold Arithmetic.entryOf at h
  simp only [Option.bind_eq_bind, Option.bind_eq_some_iff] at h
  obtain ⟨_, -, _, -, h⟩ := h
  obtain rfl := Option.some.inj h
  rfl

/-! ## The leading pair -/

/-- The entries of the explorer's ranking, each made of a pair that has a hit. -/
structure EntriesOfPairs (configs : List RankedConfig) : Prop where
  pair : ∀ c ∈ configs, ∃ pair, b.scoredOf pair ≠ [] ∧ c.key = pairKey b.template pair ∧
    b.showing A useQueryAvg pair = some (c.showing useQueryAvg)
  entry : ∀ pair, b.scoredOf pair ≠ [] → ∃ c ∈ configs, c.key = pairKey b.template pair ∧
    b.showing A useQueryAvg pair = some (c.showing useQueryAvg)

theorem TrialStore.entriesOfPairs {graded : List GradedHit} {configs : List RankedConfig}
    (hgraded : (b.hits e).mapM (A.gradeHit ((b.hits e).map (·.raw))) = some graded)
    (hconfigs : ((firsts (graded.map (·.key))).mapM fun key =>
      A.entryOf key (gradedUnder graded key)) = some configs) :
    EntriesOfPairs A b useQueryAvg configs := by
  have hkeys : graded.map (·.key) = (b.hits e).map (·.key) := by
    have hall := forall₂_of_mapM_some hgraded
    rw [← List.forall₂_eq_eq_eq, List.forall₂_map_left_iff, List.forall₂_map_right_iff]
    exact hall.flip.imp fun _ _ h => A.key_of_gradeHit h
  have hentries := forall₂_of_mapM_some hconfigs
  have hshowing : ∀ {pair c},
      A.entryOf (pairKey b.template pair) (gradedUnder graded (pairKey b.template pair)) =
        some c → b.showing A useQueryAvg pair = some (c.showing useQueryAvg) := by
    intro pair c hc
    rw [b.showing_eq, b.percentsOf_eq A e hgraded, Option.bind_some, hc]
    rfl
  constructor
  · intro c hc
    obtain ⟨key, hkey, hentry⟩ := exists_of_mem_forall₂ hentries hc
    rw [mem_firsts, hkeys] at hkey
    obtain ⟨h, hh, rfl⟩ := List.mem_map.mp hkey
    obtain ⟨pair, hpair, -⟩ := b.key_of_mem_hits e hh
    rw [hpair] at hkey hentry
    exact ⟨pair, (b.scoredOf_ne_nil_iff e pair).mpr hkey, A.key_of_entryOf hentry,
      hshowing hentry⟩
  · intro pair hpair
    have hkey : pairKey b.template pair ∈ firsts (graded.map (·.key)) := by
      rw [mem_firsts, hkeys]
      exact (b.scoredOf_ne_nil_iff e pair).mp hpair
    obtain ⟨c, hc, hentry⟩ := exists_of_mem_forall₂ hentries.flip hkey
    exact ⟨c, hc, A.key_of_entryOf hentry, hshowing hentry⟩

/-- Where every pair has something to show, the explorer makes its entries. -/
theorem TrialStore.exists_entries (h : b.AllShow A useQueryAvg) :
    ∃ graded configs,
      (b.hits e).mapM (A.gradeHit ((b.hits e).map (·.raw))) = some graded ∧
      ((firsts (graded.map (·.key))).mapM fun key =>
        A.entryOf key (gradedUnder graded key)) = some configs := by
  have hgrade : ∀ x ∈ b.hits e, ∃ g,
      A.gradeHit ((b.hits e).map (·.raw)) x = some g ∧ g.key = x.key := by
    intro x hx
    obtain ⟨pair, -, hscored⟩ := b.key_of_mem_hits e hx
    have hshow := h pair fun hnil => absurd (hnil ▸ hscored) List.not_mem_nil
    rw [b.showing_eq, Option.isSome_map] at hshow
    obtain ⟨_, hbind⟩ := Option.isSome_iff_exists.mp hshow
    obtain ⟨percents, hpercents, -⟩ := Option.bind_eq_some_iff.mp hbind
    obtain ⟨_, -, hnorm⟩ :=
      exists_of_mem_forall₂ (forall₂_of_mapM_some hpercents).flip hscored
    obtain ⟨percent, hpercent, -⟩ := Option.map_eq_some_iff.mp hnorm
    rw [← b.map_raw_hits e] at hpercent
    exact ⟨⟨x.key, x.queryText, percent⟩, congrArg (Option.map _) hpercent, rfl⟩
  obtain ⟨graded, hgraded, hall⟩ := exists_mapM_some hgrade
  have hentry : ∀ key ∈ firsts (graded.map (·.key)), ∃ c,
      A.entryOf key (gradedUnder graded key) = some c ∧ True := by
    intro key hkey
    rw [mem_firsts] at hkey
    obtain ⟨g, hg, rfl⟩ := List.mem_map.mp hkey
    obtain ⟨x, hx, hgx⟩ := exists_of_mem_forall₂ hall hg
    obtain ⟨pair, hpair, hscored⟩ := b.key_of_mem_hits e hx
    have hshow := h pair fun hnil => absurd (hnil ▸ hscored) List.not_mem_nil
    rw [b.showing_eq, b.percentsOf_eq A e hgraded, Option.bind_some, Option.isSome_map] at hshow
    obtain ⟨c, hc⟩ := Option.isSome_iff_exists.mp hshow
    rw [hgx, hpair]
    exact ⟨c, hc, trivial⟩
  obtain ⟨configs, hconfigs, -⟩ := exists_mapM_some hentry
  exact ⟨graded, configs, hgraded, hconfigs⟩

/-- The explorer's first entry is that of the leading pair. -/
theorem TrialStore.leads_of_bestParams {c : RankedConfig}
    (h : A.bestParams useQueryAvg (b.hits e) = some c) :
    b.Leads A useQueryAvg (c.key.chunkSize, c.key.overlap) := by
  obtain ⟨graded, hgraded, h⟩ := Option.bind_eq_some_iff.mp h
  obtain ⟨configs, hconfigs, hhead⟩ := Option.bind_eq_some_iff.mp h
  have hpairs := b.entriesOfPairs A useQueryAvg e hgraded hconfigs
  obtain ⟨hmem, hleast⟩ := head?_rankBy (sortKey useQueryAvg) hhead
  obtain ⟨pair, hhit, hkey, hshow⟩ := hpairs.pair c hmem
  have hpair : (c.key.chunkSize, c.key.overlap) = pair := by
    rw [hkey]
    rfl
  rw [hpair]
  refine ⟨hhit, _, hshow, fun pair' hhit' => ?_⟩
  obtain ⟨d, hd, hkey', hshow'⟩ := hpairs.entry pair' hhit'
  exact ⟨_, hshow', (sortKey_le_iff useQueryAvg hkey hkey').mp (hleast d hd)⟩

theorem TrialStore.Leads.allShow {pair : Int × Int} (h : b.Leads A useQueryAvg pair) :
    b.AllShow A useQueryAvg := by
  obtain ⟨-, x, -, hahead⟩ := h
  intro pair' hhit
  obtain ⟨y, hy, -⟩ := hahead pair' hhit
  rw [hy]
  rfl

theorem TrialStore.leads_unique {p q : Int × Int} (hp : b.Leads A useQueryAvg p)
    (hq : b.Leads A useQueryAvg q) : p = q := by
  obtain ⟨hhitp, x, hx, hpahead⟩ := hp
  obtain ⟨hhitq, y, hy, hqahead⟩ := hq
  obtain ⟨y', hy', hpq⟩ := hpahead q hhitq
  obtain ⟨x', hx', hqp⟩ := hqahead p hhitp
  obtain rfl := Option.some.inj (hy.symm.trans hy')
  obtain rfl := Option.some.inj (hx.symm.trans hx')
  exact ahead_antisymm hpq hqp

/-- Where every pair has something to show and there is one, some pair leads. -/
theorem TrialStore.exists_leads (h : b.AllShow A useQueryAvg) {pair : Int × Int}
    (hhit : b.scoredOf pair ≠ []) :
    ∃ c, A.bestParams useQueryAvg (b.hits e) = some c := by
  obtain ⟨graded, configs, hgraded, hconfigs⟩ := b.exists_entries A useQueryAvg e h
  obtain ⟨c, hc, -⟩ := (b.entriesOfPairs A useQueryAvg e hgraded hconfigs).entry pair hhit
  have hne : rankBy (sortKey useQueryAvg) configs ≠ [] := fun hnil =>
    absurd ((rankBy_perm (sortKey useQueryAvg) configs).mem_iff.mpr hc) (hnil ▸ List.not_mem_nil)
  refine ⟨(rankBy (sortKey useQueryAvg) configs).head hne, ?_⟩
  unfold Arithmetic.bestParams
  rw [hgraded, Option.bind_eq_bind, Option.bind_some, hconfigs]
  exact List.head?_eq_some_head hne

theorem TrialStore.bestParams_iff (pair : Int × Int) :
    (A.bestParams useQueryAvg (b.hits e)).map (fun c => (c.key.chunkSize, c.key.overlap)) =
      some pair ↔ b.Leads A useQueryAvg pair := by
  rw [Option.map_eq_some_iff]
  constructor
  · rintro ⟨c, hc, rfl⟩
    exact b.leads_of_bestParams A useQueryAvg e hc
  · intro h
    obtain ⟨c, hc⟩ := b.exists_leads A useQueryAvg e h.allShow h.1
    exact ⟨c, hc, b.leads_unique A useQueryAvg (b.leads_of_bestParams A useQueryAvg e hc) h⟩

end Ranking

/-! ## The pair stored as best -/

section Stored

variable {F : Type} (A : Arithmetic F) (b : TrialStore F) (st : RunStateStore)
  (defaultDatabase : String) (useQueryAvg : Bool) (e : String)

theorem runBestTrialPayload_eq : runBestTrialPayload A b st defaultDatabase useQueryAvg e =
    A.bestParams useQueryAvg (b.hits e) := by
  have hmatch : matchHits defaultDatabase (readRuns st (b.runs.map fun t => (e, t.attempt)))
      b.rows = some (b.hits e) := by
    unfold matchHits
    simp only [configKeyOfRun_readRuns, Except.toOption, Option.bind_some, Option.map_some]
    have hrow : ∀ r : TrialResult F, r.hits.mapM (fun h => some (KeyedHit.mk
        (runKey (b.runs.map fun t => (e, t.attempt)) r.runId) r.queryText h.effective)) =
          some (r.hits.map fun h => KeyedHit.mk
            (runKey (b.runs.map fun t => (e, t.attempt)) r.runId) r.queryText h.effective) :=
      fun _ => List.mapM_pure
    rw [mapM_eq_some_map fun r _ => hrow r]
    rfl
  unfold runBestTrialPayload
  rw [hmatch]
  cases hrows : b.rows with
  | nil =>
      unfold TrialStore.hits
      rw [hrows]
      rfl
  | cons r rows => rfl

/-- The pair stored as best, once the sweep has begun a run, is the leading one. -/
theorem storedBest_eq_some_iff (pair : Int × Int) :
    storedBest A b st defaultDatabase useQueryAvg e = some pair ↔
      (b.runs.any (·.swept)) = true ∧ b.Leads A useQueryAvg pair := by
  unfold storedBest
  rw [runBestTrialPayload_eq, ← b.bestParams_iff A useQueryAvg e]
  cases b.runs.any (·.swept) with
  | false => simp
  | true => simp

/-- The two orders have a greatest trial in common: a completed one with a maximal objective,
    whose pair is ahead of every pair that has a hit. -/
def TrialStore.OrdersAgree : Prop :=
  ∃ t ∈ b.completed, b.Maximal A t ∧ b.Leads A useQueryAvg t.pair

end Stored

/-! ## A high outlier -/

/-- 512 has one very good hit among poor ones, 256 two good ones. The scores are eighths, whose
    sums and means a float holds as they are. -/
def outlierRows : List (TrialResult Rat) :=
  [⟨"r1", "q", [⟨7 / 8, none⟩, ⟨1 / 8, none⟩]⟩, ⟨"r2", "q", [⟨3 / 4, none⟩, ⟨5 / 8, none⟩]⟩]

def searchedTemplate : RunParams :=
  runParamsOf searchedSizes (miniLm, .recursive, 512, 0, 0, RetrieverConfig.dense)

def outlierStore : TrialStore Rat where
  cfg := searchedSizes
  bayesian := rfl
  template := searchedTemplate
  expanded := by decide
  runs :=
    [⟨⟨"r1", trialParams searchedTemplate 512 0, .complete, 0, 5, 5, none⟩, true⟩,
     ⟨⟨"r2", trialParams searchedTemplate 256 0, .complete, 5, 9, 4, none⟩, true⟩]
  rows := outlierRows
  ids := by decide
  params := by decide
  owned := by decide

end RagParamsFinder
