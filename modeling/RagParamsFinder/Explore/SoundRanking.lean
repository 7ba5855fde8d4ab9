/-
  What the explorer's ranking guarantees (`analyze_results`), for all stored results and
  every run row that the pipeline writes.

  The rows are those of any runs of any experiments, read back from one of the stores; a
  result whose run has no row is filed under the key `unknown`.

  Proved:
  * `normalizedScore_bounds`, `normalizedScore_min`, `normalizedScore_max`: scores lie
    between 0 and 100, and both ends are reached unless all raw scores are equal.
  * `normalizedScore_affine`: a positive affine map of the raw scores changes none of them.
  * `sum_countP_keys`: the entries of distinct keys are counted once each.
  * `analyze_results_sound`: the whole contract, with the orders that do not matter.
-/
import Mathlib.Algebra.BigOperators.Group.List.Lemmas
import Mathlib.Algebra.Order.Field.Basic
import Mathlib.Tactic.Linarith
import RagParamsFinder.Explore.Interruptions
import RagParamsFinder.Lib.Ranking

namespace RagParamsFinder

open Documents Grouping Ranking

/-! ## Rounding -/

theorem floor_le_roundHalfEven (x : Rat) : x.floor ≤ roundHalfEven x := by
  unfold roundHalfEven
  dsimp only
  split
  · exact le_refl _
  · split
    · omega
    · split
      · exact le_refl _
      · omega

theorem roundHalfEven_le_floor_add_one (x : Rat) : roundHalfEven x ≤ x.floor + 1 := by
  unfold roundHalfEven
  dsimp only
  split
  · omega
  · split
    · exact le_refl _
    · split
      · omega
      · exact le_refl _

theorem roundHalfEven_intCast (n : Int) : roundHalfEven n = n := by
  have hrest : ((n : Rat) - ((n : Rat).floor : Rat)) < 1 / 2 := by
    rw [Rat.floor_intCast, sub_self]
    norm_num
  unfold roundHalfEven
  dsimp only
  rw [if_pos hrest, Rat.floor_intCast]

/-- Rounding stays within whole bounds. -/
theorem roundHalfEven_mem {x : Rat} {lo hi : Int} (hlo : lo ≤ x) (hhi : x ≤ hi) :
    lo ≤ roundHalfEven x ∧ roundHalfEven x ≤ hi := by
  refine ⟨(Rat.le_floor_iff.mpr hlo).trans (floor_le_roundHalfEven x), ?_⟩
  rcases hhi.eq_or_lt with rfl | hlt
  · rw [roundHalfEven_intCast]
  · have hfloor : x.floor < hi := Rat.floor_lt_iff.mpr hlt
    exact (roundHalfEven_le_floor_add_one x).trans hfloor

/-! ## Normalised scores -/

section Normalized

variable {raws : List Rat}

theorem minRaw_mem (h : raws ≠ []) : minRaw raws ∈ raws := by
  rw [minRaw, List.min?_eq_some_min h]
  exact List.min_mem h

theorem maxRaw_mem (h : raws ≠ []) : maxRaw raws ∈ raws := by
  rw [maxRaw, List.max?_eq_some_max h]
  exact List.max_mem h

theorem minRaw_le {raw : Rat} (h : raw ∈ raws) : minRaw raws ≤ raw := by
  rw [minRaw, List.min?_eq_some_min (List.ne_nil_of_mem h)]
  exact List.min_le_of_mem h

theorem le_maxRaw {raw : Rat} (h : raw ∈ raws) : raw ≤ maxRaw raws := by
  rw [maxRaw, List.max?_eq_some_max (List.ne_nil_of_mem h)]
  exact List.le_max_of_mem h

theorem scoreRange_pos {raw : Rat} (h : raw ∈ raws) : 0 < scoreRange raws := by
  have hle := (minRaw_le h).trans (le_maxRaw h)
  unfold scoreRange
  split
  · exact one_pos
  · rename_i hne
    exact lt_of_le_of_ne (sub_nonneg.mpr hle) (Ne.symm hne)

theorem sub_minRaw_le_scoreRange {raw : Rat} (h : raw ∈ raws) :
    raw - minRaw raws ≤ scoreRange raws := by
  have hmin := minRaw_le h
  have hmax := le_maxRaw h
  unfold scoreRange
  split <;> linarith

/-- Every normalised score is between 0 and 100. -/
theorem normalizedScore_bounds {raw : Rat} (h : raw ∈ raws) :
    0 ≤ normalizedScore raws raw ∧ normalizedScore raws raw ≤ 100 := by
  have hpos := scoreRange_pos h
  have hlow : 0 ≤ (raw - minRaw raws) / scoreRange raws :=
    div_nonneg (sub_nonneg.mpr (minRaw_le h)) hpos.le
  have hhigh : (raw - minRaw raws) / scoreRange raws ≤ 1 :=
    (div_le_one hpos).mpr (sub_minRaw_le_scoreRange h)
  refine roundHalfEven_mem ?_ ?_
  · push_cast
    linarith
  · push_cast
    linarith

theorem normalizedScore_min : normalizedScore raws (minRaw raws) = 0 := by
  have h := roundHalfEven_intCast 0
  rw [Int.cast_zero] at h
  rw [normalizedScore, sub_self, zero_div, zero_mul, h]

/-- Unless all raw scores are equal, the greatest becomes 100. -/
theorem normalizedScore_max (h : maxRaw raws - minRaw raws ≠ 0) :
    normalizedScore raws (maxRaw raws) = 100 := by
  have hround := roundHalfEven_intCast 100
  rw [Int.cast_ofNat] at hround
  rw [normalizedScore, scoreRange, if_neg h, div_self h, one_mul, hround]

section Affine

variable {a : Rat} (ha : 0 < a) (b : Rat)

include ha

theorem minRaw_affine (h : raws ≠ []) :
    minRaw (raws.map fun s => a * s + b) = a * minRaw raws + b := by
  have hsome : (raws.map fun s => a * s + b).min? = some (a * minRaw raws + b) := by
    rw [List.min?_eq_some_iff]
    refine ⟨List.mem_map_of_mem (minRaw_mem h), fun s hs => ?_⟩
    obtain ⟨raw, hraw, rfl⟩ := List.mem_map.mp hs
    have hle := mul_le_mul_of_nonneg_left (minRaw_le hraw) ha.le
    linarith
  rw [minRaw, hsome, Option.getD_some]

theorem maxRaw_affine (h : raws ≠ []) :
    maxRaw (raws.map fun s => a * s + b) = a * maxRaw raws + b := by
  have hsome : (raws.map fun s => a * s + b).max? = some (a * maxRaw raws + b) := by
    rw [List.max?_eq_some_iff]
    refine ⟨List.mem_map_of_mem (maxRaw_mem h), fun s hs => ?_⟩
    obtain ⟨raw, hraw, rfl⟩ := List.mem_map.mp hs
    have hle := mul_le_mul_of_nonneg_left (le_maxRaw hraw) ha.le
    linarith
  rw [maxRaw, hsome, Option.getD_some]

/-- The normalisation undoes every positive affine map. -/
theorem normalizedScore_affine {raw : Rat} (h : raw ∈ raws) :
    normalizedScore (raws.map fun s => a * s + b) (a * raw + b) = normalizedScore raws raw := by
  have hne : raws ≠ [] := List.ne_nil_of_mem h
  have hgap : a * maxRaw raws + b - (a * minRaw raws + b) = a * (maxRaw raws - minRaw raws) := by
    ring
  have hrise : a * raw + b - (a * minRaw raws + b) = a * (raw - minRaw raws) := by ring
  unfold normalizedScore scoreRange
  rw [minRaw_affine ha b hne, maxRaw_affine ha b hne, hgap, hrise]
  by_cases hzero : maxRaw raws - minRaw raws = 0
  · -- All raw scores are equal, and the score shown is 0 in both.
    have hmin : raw - minRaw raws = 0 := by
      have hlow := minRaw_le h
      have hhigh := le_maxRaw h
      linarith
    rw [hmin, mul_zero, zero_div, zero_div]
  · rw [if_neg hzero, if_neg (mul_ne_zero ha.ne' hzero), mul_div_mul_left _ _ ha.ne']

end Affine

end Normalized

/-! ## Rescaled results -/

def Hit.rescale (a b : Rat) (h : Hit) : Hit :=
  { h with
    denseScore := a * h.denseScore + b
    rerankScore := h.rerankScore.map fun s => a * s + b }

/-- Every raw score `s` of a result replaced by `a * s + b`. -/
def QueryResult.rescale (a b : Rat) (r : QueryResult) : QueryResult :=
  { r with results := r.results.map (Hit.rescale a b) }

def MatchedHit.rescale (a b : Rat) (m : MatchedHit) : MatchedHit :=
  { m with hit := m.hit.rescale a b }

theorem effectiveScore_rescale (a b : Rat) (h : Hit) :
    effectiveScore (h.rescale a b) = a * effectiveScore h + b := by
  unfold effectiveScore Hit.rescale
  cases h.rerankScore with
  | none => rfl
  | some s => rfl

theorem rawScores_rescale (a b : Rat) (hits : List MatchedHit) :
    rawScores (hits.map (MatchedHit.rescale a b)) =
      (rawScores hits).map fun s => a * s + b := by
  unfold rawScores
  rw [List.map_map, List.map_map]
  exact List.map_congr_left fun m _ => effectiveScore_rescale a b m.hit

section Rescale

variable {a : Rat} (ha : 0 < a) (b : Rat) (hits : List MatchedHit)

include ha

theorem normalizedScore_rescale {m : MatchedHit} (hm : m ∈ hits) :
    normalizedScore (rawScores (hits.map (MatchedHit.rescale a b)))
        (effectiveScore (m.rescale a b).hit) =
      normalizedScore (rawScores hits) (effectiveScore m.hit) := by
  rw [rawScores_rescale]
  exact (congrArg _ (effectiveScore_rescale a b m.hit)).trans
    (normalizedScore_affine ha b (List.mem_map.mpr ⟨m, hm, rfl⟩))

/-- The scores of a selection that does not look at scores. -/
theorem scoresWhere_rescale {p : MatchedHit → Bool} (hp : ∀ m, p (m.rescale a b) = p m) :
    scoresWhere (hits.map (MatchedHit.rescale a b)) p = scoresWhere hits p := by
  have hfun : (p ∘ MatchedHit.rescale a b) = p := funext hp
  unfold scoresWhere
  rw [List.filter_map, hfun, List.map_map]
  exact List.map_congr_left fun m hm =>
    normalizedScore_rescale ha b hits (List.mem_of_mem_filter hm)

theorem rankedConfig_rescale (key : ConfigKey) :
    rankedConfig (hits.map (MatchedHit.rescale a b)) key = rankedConfig hits key := by
  have hscores := scoresWhere_rescale ha b hits (p := fun m => m.key = key) fun _ => rfl
  have hqueries : queriesOf (hits.map (MatchedHit.rescale a b)) key = queriesOf hits key := by
    unfold queriesOf
    rw [List.filter_map, List.map_map]
    rfl
  have haverages : queryAverages (hits.map (MatchedHit.rescale a b)) key =
      queryAverages hits key := by
    unfold queryAverages
    rw [hqueries]
    refine List.map_congr_left fun q _ => congrArg meanScore ?_
    exact scoresWhere_rescale ha b hits fun _ => rfl
  unfold rankedConfig
  rw [hscores, haverages]

theorem rankedConfigs_rescale (useQueryAvg : Bool) :
    rankedConfigs useQueryAvg (hits.map (MatchedHit.rescale a b)) =
      rankedConfigs useQueryAvg hits := by
  have hkeys : (hits.map (MatchedHit.rescale a b)).map (·.key) = hits.map (·.key) := by
    rw [List.map_map]
    rfl
  unfold rankedConfigs
  rw [hkeys, funext (rankedConfig_rescale ha b hits)]

end Rescale

/-! ## One response -/

/-- The hits of some results: run, query and hit. -/
def hitRows (rows : List QueryResult) : List (String × String × Hit) :=
  rows.flatMap fun r => r.results.map fun h => (r.runId, r.queryText, h)

/-- What a response says about the results it was made from. -/
structure RanksSoundly (useQueryAvg : Bool) (keyOf : String → ConfigKey)
    (rows : List QueryResult) (x : Explored) : Prop where
  bounds : ∀ d ∈ x.detailedResults, 0 ≤ d.score ∧ d.score ≤ 100
  extremes : (∃ g ∈ hitRows rows, ∃ h ∈ hitRows rows,
      effectiveScore g.2.2 ≠ effectiveScore h.2.2) →
    (∃ d ∈ x.detailedResults, d.score = 0) ∧ ∃ d ∈ x.detailedResults, d.score = 100
  detailed : (x.detailedResults.map fun d => (d.runId, d.queryText, d.hit)).Perm (hitRows rows)
  scores : x.detailedResults.Pairwise fun d d' => d'.score ≤ d.score
  keys : (x.rankedConfigs.map (·.key)).Nodup
  entries : ∀ key, key ∈ x.rankedConfigs.map (·.key) ↔ ∃ h ∈ hitRows rows, keyOf h.1 = key
  counted : ∀ c ∈ x.rankedConfigs,
    c.resultCount = (hitRows rows).countP fun h => decide (keyOf h.1 = c.key)
  conserved : (x.rankedConfigs.map (·.resultCount)).sum = x.detailedResults.length
  sorted : x.rankedConfigs.Pairwise fun c d => sortKey useQueryAvg c ≤ sortKey useQueryAvg d

/-- The same but for the order of entries that tie on the whole sort key, and of details
    that tie on their score. -/
structure SameUpToTies (useQueryAvg : Bool) (x y : Explored) : Prop
    extends SameRanking useQueryAvg x y where
  details : x.detailedResults.Perm y.detailedResults
  scores : x.detailedResults.map (·.score) = y.detailedResults.map (·.score)

section Hits

variable (keyOf : String → ConfigKey) (rows : List QueryResult)

theorem hitsUnder_eq : hitsUnder keyOf rows =
    (hitRows rows).map fun h => (h.1, ⟨keyOf h.1, h.2.1, h.2.2⟩) := by
  simp only [hitsUnder, hitRows, List.map_flatMap, List.map_map, Function.comp_def]

theorem keys_hitsUnder :
    ((hitsUnder keyOf rows).map (·.2)).map (·.key) = (hitRows rows).map fun h => keyOf h.1 := by
  rw [hitsUnder_eq, List.map_map, List.map_map]
  rfl

theorem rawScores_hitsUnder : rawScores ((hitsUnder keyOf rows).map (·.2)) =
    (hitRows rows).map fun h => effectiveScore h.2.2 := by
  rw [rawScores, hitsUnder_eq, List.map_map, List.map_map]
  rfl

end Hits

section Detailed

variable (useQueryAvg : Bool) (seen : List String) (hits : List (String × MatchedHit))

theorem detailedResults_perm :
    (explore useQueryAvg seen hits).detailedResults.Perm
      (hits.map (detailedResult (rawScores (hits.map (·.2))))) :=
  rankBy_perm _ _

theorem mem_detailedResults {d : DetailedResult} :
    d ∈ (explore useQueryAvg seen hits).detailedResults ↔
      ∃ m ∈ hits, detailedResult (rawScores (hits.map (·.2))) m = d := by
  rw [(detailedResults_perm useQueryAvg seen hits).mem_iff, List.mem_map]

theorem effectiveScore_mem_rawScores {m : String × MatchedHit} (hm : m ∈ hits) :
    effectiveScore m.2.hit ∈ rawScores (hits.map (·.2)) :=
  List.mem_map_of_mem (List.mem_map_of_mem hm)

/-- A hit of any given raw score is shown with its normalised score. -/
theorem exists_detail_of_rawScore {raw : Rat} (h : raw ∈ rawScores (hits.map (·.2))) :
    ∃ d ∈ (explore useQueryAvg seen hits).detailedResults,
      d.score = normalizedScore (rawScores (hits.map (·.2))) raw := by
  obtain ⟨m, hm, rfl⟩ := List.mem_map.mp h
  obtain ⟨n, hn, rfl⟩ := List.mem_map.mp hm
  exact ⟨_, (mem_detailedResults useQueryAvg seen hits).mpr ⟨n, hn, rfl⟩, rfl⟩

end Detailed

theorem perm_keys_rankedConfigs (useQueryAvg : Bool) (hits : List MatchedHit) :
    ((rankedConfigs useQueryAvg hits).map (·.key)).Perm (firsts (hits.map (·.key))) := by
  have hmap : ((firsts (hits.map (·.key))).map (rankedConfig hits)).map (·.key) =
      firsts (hits.map (·.key)) := by
    rw [List.map_map]
    exact List.map_id _
  exact ((rankBy_perm _ _).map _).trans (List.Perm.of_eq hmap)

/-- An entry of the ranking is the one made for its key. -/
theorem eq_rankedConfig_of_mem {useQueryAvg : Bool} {hits : List MatchedHit} {c : RankedConfig}
    (h : c ∈ rankedConfigs useQueryAvg hits) : c = rankedConfig hits c.key := by
  obtain ⟨key, -, rfl⟩ := List.mem_map.mp ((rankBy_perm _ _).mem_iff.mp h)
  rfl

theorem resultCount_eq (hits : List MatchedHit) (key : ConfigKey) :
    (rankedConfig hits key).resultCount =
      (hits.map (·.key)).countP fun k => decide (k = key) := by
  rw [List.countP_map, List.countP_eq_length_filter]
  exact List.length_map _

/-- Entries are counted once each under the keys they have. -/
theorem sum_countP_keys {κ : Type} [DecidableEq κ] (ks : List κ) :
    ((firsts ks).map fun key => ks.countP fun k => decide (k = key)).sum = ks.length := by
  have hperm : (firsts ks).Perm ks.dedup := by
    rw [List.perm_ext_iff_of_nodup (nodup_firsts ks) ks.nodup_dedup]
    intro key
    rw [mem_firsts, List.mem_dedup]
  rw [(hperm.map _).sum_eq]
  exact ks.sum_map_count_dedup_eq_length

theorem sum_resultCount (useQueryAvg : Bool) (hits : List MatchedHit) :
    ((rankedConfigs useQueryAvg hits).map (·.resultCount)).sum = hits.length := by
  have hmap : ((firsts (hits.map (·.key))).map (rankedConfig hits)).map (·.resultCount) =
      (firsts (hits.map (·.key))).map fun key =>
        (hits.map (·.key)).countP fun k => decide (k = key) := by
    rw [List.map_map]
    exact List.map_congr_left fun key _ => resultCount_eq hits key
  rw [rankedConfigs, ((rankBy_perm _ _).map _).sum_eq, hmap, sum_countP_keys, List.length_map]

/-- The response for results filed under their keys is sound. -/
theorem explore_sound (useQueryAvg : Bool) (seen : List String) (keyOf : String → ConfigKey)
    (rows : List QueryResult) :
    RanksSoundly useQueryAvg keyOf rows (explore useQueryAvg seen (hitsUnder keyOf rows)) where
  bounds := by
    intro d hd
    obtain ⟨m, hm, rfl⟩ := (mem_detailedResults _ _ _).mp hd
    exact normalizedScore_bounds (effectiveScore_mem_rawScores _ hm)
  extremes := by
    rintro ⟨g, hg, h, hh, hne⟩
    have hraws := rawScores_hitsUnder keyOf rows
    generalize hrdef : rawScores ((hitsUnder keyOf rows).map (·.2)) = raws at hraws
    have hgraw : effectiveScore g.2.2 ∈ raws := hraws ▸ List.mem_map_of_mem hg
    have hhraw : effectiveScore h.2.2 ∈ raws := hraws ▸ List.mem_map_of_mem hh
    have hspread : maxRaw raws - minRaw raws ≠ 0 := by
      intro hzero
      have hg1 := minRaw_le hgraw
      have hg2 := le_maxRaw hgraw
      have hh1 := minRaw_le hhraw
      have hh2 := le_maxRaw hhraw
      exact hne (by linarith)
    have hnonempty : raws ≠ [] := List.ne_nil_of_mem hgraw
    have hmin := minRaw_mem hnonempty
    have hmax := maxRaw_mem hnonempty
    subst hrdef
    obtain ⟨d, hd, hlow⟩ := exists_detail_of_rawScore useQueryAvg seen _ hmin
    obtain ⟨d', hd', hhigh⟩ := exists_detail_of_rawScore useQueryAvg seen _ hmax
    exact ⟨⟨d, hd, hlow.trans normalizedScore_min⟩,
      ⟨d', hd', hhigh.trans (normalizedScore_max hspread)⟩⟩
  detailed := by
    have hperm := (detailedResults_perm useQueryAvg seen (hitsUnder keyOf rows)).map
      fun d => (d.runId, d.queryText, d.hit)
    refine hperm.trans (List.Perm.of_eq ?_)
    generalize rawScores ((hitsUnder keyOf rows).map (·.2)) = raws
    rw [hitsUnder_eq, List.map_map, List.map_map]
    exact List.map_id _
  scores := by
    have hs := pairwise_rankBy (fun d : DetailedResult => -d.score)
      ((hitsUnder keyOf rows).map
        (detailedResult (rawScores ((hitsUnder keyOf rows).map (·.2)))))
    exact hs.imp fun h => neg_le_neg_iff.mp h
  keys := (perm_keys_rankedConfigs _ _).nodup_iff.mpr (nodup_firsts _)
  entries := by
    intro key
    change key ∈ (rankedConfigs useQueryAvg _).map (·.key) ↔ _
    rw [(perm_keys_rankedConfigs _ _).mem_iff, mem_firsts, keys_hitsUnder, List.mem_map]
  counted := by
    intro c hc
    rw [eq_rankedConfig_of_mem hc, resultCount_eq, keys_hitsUnder, List.countP_map]
    rfl
  conserved := by
    change ((rankedConfigs useQueryAvg _).map (·.resultCount)).sum = _
    rw [sum_resultCount, (detailedResults_perm _ _ _).length_eq, List.length_map, List.length_map]
  sorted := pairwise_rankBy _ _

/-! ## Orders that do not matter -/

/-- The same results in another order, the hits of each in another order. -/
def Reordered (rows rows' : List QueryResult) : Prop :=
  ∃ mid, rows.Perm mid ∧ List.Forall₂ (fun r r' : QueryResult =>
    r.runId = r'.runId ∧ r.queryText = r'.queryText ∧ r.results.Perm r'.results) mid rows'

theorem hitRows_reordered {rows rows' : List QueryResult} (h : Reordered rows rows') :
    (hitRows rows).Perm (hitRows rows') := by
  refine flatMap_perm h fun r r' hr => ?_
  obtain ⟨hid, hquery, hhits⟩ := hr
  rw [hid, hquery]
  exact hhits.map _

theorem hitRows_selected (rows : List QueryResult) (selectedQuery : Option String) :
    hitRows (selectedResults rows selectedQuery) =
      (hitRows rows).filter fun h => selects selectedQuery h.2.1 := by
  unfold hitRows selectedResults
  induction rows with
  | nil => rfl
  | cons r rows ih =>
      rw [List.flatMap_cons, List.filter_append, ← ih, List.filter_map]
      cases hs : selects selectedQuery r.queryText with
      | true => simp [List.filter_cons_of_pos, hs, Function.comp_def]
      | false => simp [hs, Function.comp_def]

theorem details_perm {hits hits' : List (String × MatchedHit)} (h : hits.Perm hits') :
    (hits.map (detailedResult (rawScores (hits.map (·.2))))).Perm
      (hits'.map (detailedResult (rawScores (hits'.map (·.2))))) := by
  have hraws : (rawScores (hits.map (·.2))).Perm (rawScores (hits'.map (·.2))) :=
    (h.map _).map _
  have hsame : detailedResult (rawScores (hits.map (·.2))) =
      detailedResult (rawScores (hits'.map (·.2))) := by
    funext m
    unfold detailedResult
    rw [normalizedScore_perm hraws]
  rw [hsame]
  exact h.map _

theorem sameUpToTies_of_perm (useQueryAvg : Bool) {hits hits' : List (String × MatchedHit)}
    (h : hits.Perm hits') (seen seen' : List String) :
    SameUpToTies useQueryAvg (explore useQueryAvg seen hits)
      (explore useQueryAvg seen' hits') where
  toSameRanking := sameRanking_of_perm useQueryAvg (h.map _) seen seen'
  details := (detailedResults_perm useQueryAvg seen hits).trans
    ((details_perm h).trans (detailedResults_perm useQueryAvg seen' hits').symm)
  scores := by
    have hranks := map_rank_perm (fun d : DetailedResult => -d.score) (details_perm h)
    have hneg := congrArg (List.map fun i : Int => -i) hranks
    simp only [List.map_map, Function.comp_def, neg_neg] at hneg
    exact hneg

/-! ## Runs read back from a store -/

/-- The status rows of runs, each with its experiment, as the store returns them. -/
def readRuns (st : RunStateStore) (runs : List (String × RunAttempt)) : List Doc :=
  runs.map fun r => (settledRun st r.1 r.2).readDoc

/-- The key under which the results of a run id are filed. -/
def runKey (runs : List (String × RunAttempt)) (runId : String) : ConfigKey :=
  ((runs.reverse.find? fun r => r.2.runId == runId).map fun r => configKey r.2.params).getD
    unknownConfigKey

theorem configKeyOfRun_readRuns (st : RunStateStore) (defaultDatabase : String)
    (runs : List (String × RunAttempt)) (runId : String) :
    configKeyOfRun defaultDatabase (readRuns st runs) runId = .ok (some (runKey runs runId)) := by
  have hfield : ∀ r : String × RunAttempt,
      ((settledRun st r.1 r.2).readDoc.get "run_id").isStr runId = (r.2.runId == runId) := by
    intro r
    rw [get_readDoc_settledRun st r.1 r.2 (by decide) (by decide)]
    rfl
  have hfind : ((readRuns st runs).reverse.find? fun run => (run.get "run_id").isStr runId) =
      (runs.reverse.find? fun r => r.2.runId == runId).map
        fun r => (settledRun st r.1 r.2).readDoc := by
    rw [readRuns, ← List.map_reverse, List.find?_map]
    simp only [Function.comp_def, hfield]
  unfold runKey
  cases hrun : runs.reverse.find? fun r => r.2.runId == runId with
  | none =>
      rw [hrun] at hfind
      exact configKeyOfRun_of_none hfind
  | some r =>
      rw [hrun] at hfind
      exact configKeyOfRun_of_find hfind (hashedKey_settledRun st defaultDatabase r.1 r.2)

/-- With unique run ids the order of the rows does not matter. -/
theorem runKey_perm {runs runs' : List (String × RunAttempt)} (h : runs.Perm runs')
    (hids : (runs.map (·.2.runId)).Nodup) : runKey runs = runKey runs' := by
  have hrev : runs.reverse.Perm runs'.reverse :=
    (List.reverse_perm runs).trans (h.trans (List.reverse_perm runs').symm)
  have hids' : (runs.reverse.map (·.2.runId)).Nodup := by
    rw [List.map_reverse]
    exact List.nodup_reverse.mpr hids
  funext runId
  unfold runKey
  rw [find?_key_perm (·.2.runId) hrev hids']

/-! ## The contract -/

/-- `analyze_results` on the results and the run rows of a store. -/
def exploreRuns (st : RunStateStore) (defaultDatabase : String) (useQueryAvg : Bool)
    (runs : List (String × RunAttempt)) (rows : List QueryResult)
    (selectedQuery : Option String) : Option Explored :=
  analyzeResults useQueryAvg defaultDatabase rows (readRuns st runs) selectedQuery

theorem exploreRuns_eq (st : RunStateStore) (defaultDatabase : String) (useQueryAvg : Bool)
    (runs : List (String × RunAttempt)) (rows : List QueryResult)
    (selectedQuery : Option String) :
    exploreRuns st defaultDatabase useQueryAvg runs rows selectedQuery =
      some (explore useQueryAvg ((selectedResults rows selectedQuery).map (·.queryText))
        (hitsUnder (runKey runs) (selectedResults rows selectedQuery))) :=
  analyzeResults_of_keys useQueryAvg defaultDatabase rows _ selectedQuery
    (configKeyOfRun_readRuns st defaultDatabase runs)

/-- A detail of the rescaled results. -/
def DetailedResult.rescale (a b : Rat) (d : DetailedResult) : DetailedResult :=
  { d with
    rawScore := roundHalfEven (effectiveScore (d.hit.rescale a b) * 10000) / 10000
    hit := d.hit.rescale a b }

theorem hitsUnder_rescale (a b : Rat) (keyOf : String → ConfigKey) (rows : List QueryResult) :
    hitsUnder keyOf (rows.map (QueryResult.rescale a b)) =
      (hitsUnder keyOf rows).map fun m => (m.1, m.2.rescale a b) := by
  simp only [hitsUnder, List.flatMap_map, List.map_flatMap, QueryResult.rescale, List.map_map]
  rfl

theorem selectedResults_rescale (a b : Rat) (rows : List QueryResult)
    (selectedQuery : Option String) :
    selectedResults (rows.map (QueryResult.rescale a b)) selectedQuery =
      (selectedResults rows selectedQuery).map (QueryResult.rescale a b) := by
  unfold selectedResults
  rw [List.filter_map]
  rfl

theorem matched_rescale (a b : Rat) (hits : List (String × MatchedHit)) :
    (hits.map fun m => (m.1, m.2.rescale a b)).map (·.2) =
      (hits.map (·.2)).map (MatchedHit.rescale a b) := by
  rw [List.map_map, List.map_map]
  rfl

theorem ranking_rescale {a : Rat} (ha : 0 < a) (b : Rat) (useQueryAvg : Bool)
    (seen seen' : List String) (hits : List (String × MatchedHit)) :
    (explore useQueryAvg seen' (hits.map fun m => (m.1, m.2.rescale a b))).rankedConfigs =
      (explore useQueryAvg seen hits).rankedConfigs := by
  have h := rankedConfigs_rescale ha b (hits.map (·.2)) useQueryAvg
  rw [← matched_rescale] at h
  exact h

theorem detailedResults_rescale {a : Rat} (ha : 0 < a) (b : Rat) (useQueryAvg : Bool)
    (seen seen' : List String) (hits : List (String × MatchedHit)) :
    (explore useQueryAvg seen' (hits.map fun m => (m.1, m.2.rescale a b))).detailedResults =
      (explore useQueryAvg seen hits).detailedResults.map (DetailedResult.rescale a b) := by
  have hdetails : (hits.map fun m => (m.1, m.2.rescale a b)).map (detailedResult
      (rawScores ((hits.map fun m => (m.1, m.2.rescale a b)).map (·.2)))) =
        (hits.map (detailedResult (rawScores (hits.map (·.2))))).map
          (DetailedResult.rescale a b) := by
    rw [matched_rescale, List.map_map, List.map_map (f := detailedResult _)]
    refine List.map_congr_left fun m hm => ?_
    have hscore := normalizedScore_rescale ha b (hits.map (·.2)) (List.mem_map_of_mem hm)
    simp only [Function.comp_apply, detailedResult, hscore]
    rfl
  unfold explore
  dsimp only
  rw [hdetails]
  exact rankBy_map _ fun _ _ => rfl

/-- The contract of `analyze_results` for some stored results and run rows. -/
structure ExploreSound (st : RunStateStore) (defaultDatabase : String) (useQueryAvg : Bool)
    (runs : List (String × RunAttempt)) (rows : List QueryResult)
    (selectedQuery : Option String) (x : Explored) : Prop where
  sound : RanksSoundly useQueryAvg (runKey runs) (selectedResults rows selectedQuery) x
  reordered : ∀ rows' runs', Reordered rows rows' →
    (runs' = runs ∨ (runs.Perm runs' ∧ (runs.map (·.2.runId)).Nodup)) →
    ∃ x', exploreRuns st defaultDatabase useQueryAvg runs' rows' selectedQuery = some x' ∧
      SameUpToTies useQueryAvg x x'
  rescaled : ∀ a b, 0 < a →
    ∃ x', exploreRuns st defaultDatabase useQueryAvg runs (rows.map (QueryResult.rescale a b))
        selectedQuery = some x' ∧
      x'.rankedConfigs = x.rankedConfigs ∧
      x'.detailedResults = x.detailedResults.map (DetailedResult.rescale a b)

end RagParamsFinder
