/-
  The order of the exported runs (`scripts/walkthru/export_walkthru_results.py`): what
  `rank_union`, `build_runs` and `store_summary` make of the selected runs, and the fields that
  `build_manifest` prints for it.

  The hits come in by run id and every run id has its own key, so the stable sort of
  `analyze_results` leaves entries of one sort key in the order of their run ids. Tied entries
  have one sort key, so `apply_run_id_tiebreak` finds its blocks in order.

  Proved: `rankUnion_ranked`, `precedes_iff`, and from them `inAdvertisedOrder_markedRuns`.
-/
import RagParamsFinder.Explore.SoundRanking
import RagParamsFinder.Export.WalkthruExport

namespace RagParamsFinder

open Documents Grouping Ranking Traversals

/-! ## The printed fields -/

/-- `manifest["ranking"]["fields"]`. -/
def manifestFields (useQueryAvg : Bool) : List String :=
  let avgField := if useQueryAvg then "query_avg_score" else "avg_score"
  ["max_score DESC", avgField ++ " DESC", "chunk_size ASC", "overlap ASC", "padding ASC",
    "run_id ASC"]

/-- A field of an exported run. -/
inductive RankField where
  | maxScore
  | queryAvgScore
  | avgScore
  | chunkSize
  | overlap
  | padding
  | runId
  deriving DecidableEq

def RankField.name : RankField → String
  | .maxScore => "max_score"
  | .queryAvgScore => "query_avg_score"
  | .avgScore => "avg_score"
  | .chunkSize => "chunk_size"
  | .overlap => "overlap"
  | .padding => "padding"
  | .runId => "run_id"

/-- The value of the field is smaller in the first run. -/
def RankField.Less : RankField → ExportedRun → ExportedRun → Prop
  | .maxScore, a, b => a.entry.maxScore < b.entry.maxScore
  | .queryAvgScore, a, b => a.entry.queryAvgScore < b.entry.queryAvgScore
  | .avgScore, a, b => a.entry.avgScore < b.entry.avgScore
  | .chunkSize, a, b => a.entry.key.chunkSize < b.entry.key.chunkSize
  | .overlap, a, b => a.entry.key.overlap < b.entry.key.overlap
  | .padding, a, b => a.entry.key.padding < b.entry.key.padding
  | .runId, a, b => a.candidate.runId < b.candidate.runId

inductive Direction where
  | asc
  | desc

def Direction.text : Direction → String
  | .asc => "ASC"
  | .desc => "DESC"

/-- A field and the direction it is sorted in. -/
structure FieldOrder where
  field : RankField
  direction : Direction

def FieldOrder.text (o : FieldOrder) : String := o.field.name ++ " " ++ o.direction.text

def FieldOrder.Before (o : FieldOrder) (a b : ExportedRun) : Prop :=
  match o.direction with
  | .asc => o.field.Less a b
  | .desc => o.field.Less b a

/-- The runs differ in a field, and in the first one the first run comes before. -/
def Precedes : List FieldOrder → ExportedRun → ExportedRun → Prop
  | [], _, _ => False
  | o :: os, a, b => o.Before a b ∨ (¬o.Before b a ∧ Precedes os a b)

/-- The advertised order. -/
def advertisedOrder (useQueryAvg : Bool) : List FieldOrder :=
  [⟨.maxScore, .desc⟩, ⟨if useQueryAvg then .queryAvgScore else .avgScore, .desc⟩,
    ⟨.chunkSize, .asc⟩, ⟨.overlap, .asc⟩, ⟨.padding, .asc⟩, ⟨.runId, .asc⟩]

theorem map_text_advertisedOrder (useQueryAvg : Bool) :
    (advertisedOrder useQueryAvg).map FieldOrder.text = manifestFields useQueryAvg := by
  cases useQueryAvg <;> rfl

/-- The sort key with the run id. -/
def rankKey (useQueryAvg : Bool) (entry : RankedConfig) (runId : String) :
    Lex (List Int × String) := toLex (sortKey useQueryAvg entry, runId)

theorem rankKey_lt_iff {useQueryAvg : Bool} {x y : RankedConfig} {a b : String} :
    rankKey useQueryAvg x a < rankKey useQueryAvg y b ↔
      sortKey useQueryAvg x < sortKey useQueryAvg y ∨
        (sortKey useQueryAvg x = sortKey useQueryAvg y ∧ a < b) :=
  Prod.Lex.toLex_lt_toLex

theorem precedes_iff (useQueryAvg : Bool) (a b : ExportedRun) :
    Precedes (advertisedOrder useQueryAvg) a b ↔
      rankKey useQueryAvg a.entry a.candidate.runId <
        rankKey useQueryAvg b.entry b.candidate.runId := by
  rw [rankKey_lt_iff]
  generalize ha : a.candidate.runId = i
  generalize hb : b.candidate.runId = j
  cases useQueryAvg <;>
    simp only [Precedes, advertisedOrder, FieldOrder.Before, RankField.Less, sortKey,
      List.cons_lt_cons_iff, List.cons.injEq, ha, hb] <;>
    grind

/-! ## The keys come in by run id -/

section Keys

variable {defaultDatabase : String} {selected : List ExportCandidate}

/-- The key under which the results of a run id are filed. -/
def unionKey (defaultDatabase : String) (selected : List ExportCandidate) (runId : String) :
    ConfigKey := memberKey defaultDatabase (selected.map (·.folded)) runId

/-- The hits of the union, each under the key of its run id. -/
def unionHits (defaultDatabase : String) (selected : List ExportCandidate) :
    List (String × MatchedHit) :=
  hitsUnder (unionKey defaultDatabase selected) (unionResults selected)

/-- The run ids of the hits. -/
def hitRunIds (selected : List ExportCandidate) : List String :=
  (hitRows (unionResults selected)).map (·.1)

theorem map_fst_unionHits (defaultDatabase : String) (selected : List ExportCandidate) :
    (unionHits defaultDatabase selected).map (·.1) = hitRunIds selected := by
  rw [unionHits, hitsUnder_eq, List.map_map]
  rfl

theorem key_of_mem_unionHits {m : String × MatchedHit}
    (h : m ∈ unionHits defaultDatabase selected) :
    m.2.key = unionKey defaultDatabase selected m.1 := by
  rw [unionHits, hitsUnder_eq] at h
  obtain ⟨row, -, rfl⟩ := List.mem_map.mp h
  rfl

theorem hitKeys_eq : hitKeys defaultDatabase selected =
    (hitRunIds selected).map (unionKey defaultDatabase selected) := by
  rw [← map_fst_unionHits defaultDatabase, List.map_map]
  exact List.map_congr_left fun m hm => key_of_mem_unionHits hm

/-- The union is sorted by run id. -/
theorem pairwise_hitRunIds (selected : List ExportCandidate) :
    (hitRunIds selected).Pairwise (· ≤ ·) := by
  have hrows : (unionResults selected).Pairwise fun r s => r.runId ≤ s.runId := by
    refine List.pairwise_map.mpr ((pairwise_rankBy rowOrder _).imp fun {r s} hle => ?_)
    rcases Prod.Lex.toLex_le_toLex.mp hle with hlt | ⟨heq, -⟩
    · exact hlt.le
    · exact heq.le
  unfold hitRunIds hitRows
  refine List.pairwise_map.mpr (List.pairwise_flatMap.mpr ⟨fun r _ => ?_, ?_⟩)
  · exact List.pairwise_map.mpr (List.pairwise_of_forall fun _ _ => le_refl r.runId)
  · refine hrows.imp fun {r s} hle x hx y hy => ?_
    obtain ⟨g, -, rfl⟩ := List.mem_map.mp hx
    obtain ⟨h, -, rfl⟩ := List.mem_map.mp hy
    exact hle

/-- The results of a run id are filed under the key of a run selected with this id. -/
theorem exists_unionKey (h : Rankable selected) {runId : String}
    (hid : runId ∈ hitRunIds selected) :
    ∃ c ∈ selected, c.runId = runId ∧
      unionKey defaultDatabase selected runId = c.foldedKey defaultDatabase := by
  obtain ⟨row, hrow, rfl⟩ := List.mem_map.mp hid
  obtain ⟨r, hr, hhit⟩ := List.mem_flatMap.mp hrow
  obtain ⟨hit, -, rfl⟩ := List.mem_map.mp hhit
  obtain ⟨c, hc, row, -, -, hrun, rfl⟩ := (mem_unionResults h.toSelected).mp hr
  obtain ⟨d, hd, hdc, -, hkey⟩ := exists_memberKey defaultDatabase hc
  refine ⟨d, hd, hdc.trans hrun.symm, ?_⟩
  rw [← hkey, ← hrun]
  rfl

theorem unionKey_inj (h : Rankable selected) {a b : String}
    (ha : a ∈ hitRunIds selected) (hb : b ∈ hitRunIds selected)
    (heq : unionKey defaultDatabase selected a = unionKey defaultDatabase selected b) :
    a = b := by
  obtain ⟨c, hc, rfl, hkc⟩ := exists_unionKey h ha
  obtain ⟨d, hd, rfl, hkd⟩ := exists_unionKey h hb
  have hcd : c = d := List.inj_on_of_nodup_map (h.keys defaultDatabase) hc hd
    (hkc.symm.trans (heq.trans hkd))
  rw [hcd]

/-- A run is shown exactly when its id has a hit that is filed under its key. -/
theorem mem_shownCandidates (h : Rankable selected) {c : ExportCandidate} :
    c ∈ shownCandidates defaultDatabase selected ↔ c ∈ selected ∧ c.runId ∈ hitRunIds selected ∧
      unionKey defaultDatabase selected c.runId = c.foldedKey defaultDatabase := by
  rw [shownCandidates, List.mem_filter, decide_eq_true_iff, hitKeys_eq]
  refine and_congr_right fun hc => ?_
  constructor
  · intro hmem
    obtain ⟨runId, hid, hkey⟩ := List.mem_map.mp hmem
    obtain ⟨d, hd, rfl, hkd⟩ := exists_unionKey h hid
    obtain rfl := List.inj_on_of_nodup_map (h.keys defaultDatabase) hd hc (hkd.symm.trans hkey)
    exact ⟨hid, hkd⟩
  · rintro ⟨hid, hkey⟩
    exact List.mem_map.mpr ⟨c.runId, hid, hkey⟩

/-- The runs shown have different run ids. -/
theorem eq_of_shown (h : Rankable selected) {c d : ExportCandidate}
    (hc : c ∈ shownCandidates defaultDatabase selected)
    (hd : d ∈ shownCandidates defaultDatabase selected) (heq : c.runId = d.runId) : c = d := by
  obtain ⟨hc, -, hkc⟩ := (mem_shownCandidates h).mp hc
  obtain ⟨hd, -, hkd⟩ := (mem_shownCandidates h).mp hd
  have hkey := hkc.symm.trans ((congrArg _ heq).trans hkd)
  exact List.inj_on_of_nodup_map (h.keys defaultDatabase) hc hd hkey

/-- The runs that are shown, by run id. -/
def shownByRunId (defaultDatabase : String) (selected : List ExportCandidate) :
    List ExportCandidate := rankBy (·.runId) (shownCandidates defaultDatabase selected)

theorem mem_shownByRunId {c : ExportCandidate} : c ∈ shownByRunId defaultDatabase selected ↔
    c ∈ shownCandidates defaultDatabase selected := (rankBy_perm _ _).mem_iff

variable (defaultDatabase) in
theorem pairwise_shownByRunId (h : Rankable selected) :
    (shownByRunId defaultDatabase selected).Pairwise fun c d => c.runId < d.runId := by
  have hnodup : (shownByRunId defaultDatabase selected).Nodup :=
    (rankBy_perm _ _).nodup_iff.mpr ((List.Nodup.of_map _ h.slots).filter _)
  refine (List.Pairwise.and (pairwise_rankBy _ _) hnodup).imp_of_mem fun {c d} hc hd hcd => ?_
  exact hcd.1.lt_of_ne fun heq =>
    hcd.2 (eq_of_shown h (mem_shownByRunId.mp hc) (mem_shownByRunId.mp hd) heq)

/-- The keys appear in the order of their run ids. -/
theorem firsts_hitKeys (h : Rankable selected) :
    firsts (hitKeys defaultDatabase selected) =
      (shownByRunId defaultDatabase selected).map
        (ExportCandidate.foldedKey defaultDatabase) := by
  have hids : firsts (hitRunIds selected) =
      (shownByRunId defaultDatabase selected).map (·.runId) := by
    have hfirsts : (firsts (hitRunIds selected)).Pairwise (· ≤ ·) :=
      (pairwise_hitRunIds selected).sublist (firsts_sublist _)
    have hshown : ((shownByRunId defaultDatabase selected).map (·.runId)).Pairwise (· < ·) :=
      List.pairwise_map.mpr (pairwise_shownByRunId defaultDatabase h)
    refine List.Perm.eq_of_pairwise (fun a b _ _ hab hba => le_antisymm hab hba) hfirsts
      (hshown.imp fun hlt => hlt.le)
      ((List.perm_ext_iff_of_nodup (nodup_firsts _) (hshown.imp fun hlt => hlt.ne)).mpr ?_)
    intro runId
    rw [mem_firsts, List.mem_map]
    constructor
    · intro hid
      obtain ⟨c, hc, rfl, hkey⟩ := exists_unionKey h hid
      exact ⟨c, mem_shownByRunId.mpr ((mem_shownCandidates h).mpr ⟨hc, hid, hkey⟩), rfl⟩
    · rintro ⟨c, hc, rfl⟩
      exact ((mem_shownCandidates h).mp (mem_shownByRunId.mp hc)).2.1
  rw [hitKeys_eq, firsts_map _ fun a ha b hb => unionKey_inj h ha hb, hids, List.map_map]
  exact List.map_congr_left fun c hc => ((mem_shownCandidates h).mp (mem_shownByRunId.mp hc)).2.2

end Keys

/-! ## The ranking -/

section Ranking

variable (useQueryAvg : Bool) (defaultDatabase : String)

/-- The entry of a selected run. -/
def exportEntry (selected : List ExportCandidate) (c : ExportCandidate) : RankedConfig :=
  rankedConfig ((unionHits defaultDatabase selected).map (·.2)) (c.foldedKey defaultDatabase)

/-- The runs that are shown, best first. -/
def rankedRuns (selected : List ExportCandidate) : List ExportCandidate :=
  rankBy (fun c => sortKey useQueryAvg (exportEntry defaultDatabase selected c))
    (shownByRunId defaultDatabase selected)

/-- The runs that are shown with their entries. -/
def rankedPairs (selected : List ExportCandidate) : List (RankedConfig × ExportCandidate) :=
  (rankedRuns useQueryAvg defaultDatabase selected).map
    fun c => (exportEntry defaultDatabase selected c, c)

variable {defaultDatabase} {selected : List ExportCandidate}

theorem mem_rankedRuns {c : ExportCandidate} :
    c ∈ rankedRuns useQueryAvg defaultDatabase selected ↔
      c ∈ shownCandidates defaultDatabase selected :=
  (rankBy_perm _ _).mem_iff.trans mem_shownByRunId

/-- The stable sort leaves runs of one sort key by run id. -/
theorem pairwise_rankedRuns (h : Rankable selected) :
    (rankedRuns useQueryAvg defaultDatabase selected).Pairwise fun c d =>
      rankKey useQueryAvg (exportEntry defaultDatabase selected c) c.runId <
        rankKey useQueryAvg (exportEntry defaultDatabase selected d) d.runId := by
  have hstable := pairwise_stable
    (fun c => sortKey useQueryAvg (exportEntry defaultDatabase selected c))
    (pairwise_shownByRunId defaultDatabase h)
  simp only [rankKey_lt_iff]
  exact hstable

theorem rankedConfigs_union (h : Rankable selected) :
    rankedConfigs useQueryAvg ((unionHits defaultDatabase selected).map (·.2)) =
      (rankedRuns useQueryAvg defaultDatabase selected).map
        (exportEntry defaultDatabase selected) := by
  have hkeys : firsts (((unionHits defaultDatabase selected).map (·.2)).map (·.key)) =
      (shownByRunId defaultDatabase selected).map
        (ExportCandidate.foldedKey defaultDatabase) := by
    rw [List.map_map, ← firsts_hitKeys h]
    rfl
  unfold rankedConfigs rankedRuns
  rw [hkeys, List.map_map]
  exact rankBy_map _ fun _ _ => rfl

end Ranking

/-! ## The run-id tie-break -/

section Tiebreak

variable {useQueryAvg : Bool}

theorem sortKey_of_tieSignature (useQueryAvg : Bool) {x y : RankedConfig}
    (h : tieSignature x = tieSignature y) :
    sortKey useQueryAvg x = sortKey useQueryAvg y := by
  simp only [tieSignature, List.cons.injEq] at h
  obtain ⟨hmax, hquery, havg, hsize, hoverlap, hpadding, -⟩ := h
  unfold sortKey
  rw [hmax, hquery, havg, hsize, hoverlap, hpadding]

/-- The entries come by sort key and run id. -/
def RankedInOrder (useQueryAvg : Bool) (ranked : List (RankedConfig × ExportCandidate)) : Prop :=
  ranked.Pairwise fun a b =>
    rankKey useQueryAvg a.1 a.2.runId < rankKey useQueryAvg b.1 b.2.runId

/-- The entries of a block are tied. -/
def TiedBlock (block : List (RankedConfig × ExportCandidate)) : Prop :=
  ∀ a ∈ block, ∀ b ∈ block, tieSignature a.1 = tieSignature b.1

theorem sorted_block {block : List (RankedConfig × ExportCandidate)}
    (h : RankedInOrder useQueryAvg block) (htied : TiedBlock block) :
    rankBy (·.2.runId) block = block := by
  refine rankBy_eq_self _ (List.Pairwise.imp_of_mem (fun {a b} ha hb hab => ?_) h)
  have hkey := sortKey_of_tieSignature useQueryAvg (htied a ha b hb)
  rcases rankKey_lt_iff.mp hab with hlt | ⟨-, hlt⟩
  · exact absurd hlt (hkey ▸ lt_irrefl _)
  · exact hlt.le

theorem tiebreakFrom_eq {block ranked : List (RankedConfig × ExportCandidate)}
    (h : RankedInOrder useQueryAvg (block ++ ranked)) (htied : TiedBlock block) :
    tiebreakFrom block ranked = block ++ ranked := by
  induction ranked generalizing block with
  | nil =>
      rw [List.append_nil] at h ⊢
      exact sorted_block h htied
  | cons item ranked ih =>
      unfold tiebreakFrom
      split
      · have hblock := (List.pairwise_append.mp h).1
        have hrest := (List.pairwise_append.mp h).2.1
        have hsingle : TiedBlock [item] := by
          intro a ha b hb
          rw [List.mem_singleton.mp ha, List.mem_singleton.mp hb]
        have hnext : tiebreakFrom [item] ranked = item :: ranked := ih hrest hsingle
        rw [sorted_block hblock htied, hnext]
      · rename_i hsame
        have hitem : ∀ a ∈ block, tieSignature a.1 = tieSignature item.1 := by
          intro a ha
          cases block with
          | nil => cases ha
          | cons first block =>
              have hfirst : tieSignature first.1 = tieSignature item.1 := by simpa using hsame
              exact (htied a ha first (List.mem_cons_self ..)).trans hfirst
        rw [ih (by rwa [List.append_assoc]) fun a ha b hb => ?_]
        · exact List.append_assoc _ _ _
        · rcases List.mem_append.mp ha with ha | ha <;> rcases List.mem_append.mp hb with hb | hb
          · exact htied a ha b hb
          · exact List.mem_singleton.mp hb ▸ hitem a ha
          · exact List.mem_singleton.mp ha ▸ (hitem b hb).symm
          · rw [List.mem_singleton.mp ha, List.mem_singleton.mp hb]

/-- On entries in order the tie-break changes nothing. -/
theorem applyRunIdTiebreak_eq {ranked : List (RankedConfig × ExportCandidate)}
    (h : RankedInOrder useQueryAvg ranked) : applyRunIdTiebreak ranked = ranked :=
  tiebreakFrom_eq h fun _ ha => absurd ha List.not_mem_nil

theorem rankedInOrder_rankedPairs {defaultDatabase : String} {selected : List ExportCandidate}
    (h : Rankable selected) :
    RankedInOrder useQueryAvg (rankedPairs useQueryAvg defaultDatabase selected) :=
  List.pairwise_map.mpr (pairwise_rankedRuns useQueryAvg h)

end Tiebreak

/-- The call of `analyze_results` over the union ranks the runs that are shown. -/
theorem analyzeResults_ranked (useQueryAvg : Bool) {defaultDatabase : String}
    {selected : List ExportCandidate} (h : Rankable selected) :
    ∃ analysis, analyzeResults useQueryAvg defaultDatabase (unionResults selected)
        (selected.map (·.folded.run)) none = some analysis ∧
      analysis.rankedConfigs = (rankedRuns useQueryAvg defaultDatabase selected).map
        (exportEntry defaultDatabase selected) := by
  obtain ⟨analysis, hanalysis, hranked⟩ := analyzeResults_union useQueryAvg h
  exact ⟨analysis, hanalysis, hranked.trans (rankedConfigs_union useQueryAvg h)⟩

/-- `rank_union` pairs every selected run that is shown with its entry, best first. -/
theorem rankUnion_ranked (useQueryAvg : Bool) {defaultDatabase : String}
    {selected : List ExportCandidate} (h : Rankable selected) :
    ∃ analysis, rankUnion useQueryAvg defaultDatabase selected =
      .ok (rankedPairs useQueryAvg defaultDatabase selected, analysis) := by
  have hlookup : ((rankedRuns useQueryAvg defaultDatabase selected).map
      (exportEntry defaultDatabase selected)).mapM (fun entry => (lookupCandidate
        ((selected.map (ExportCandidate.foldedKey defaultDatabase)).zip selected)
          entry.key).map fun c => (entry, c)) =
      some (rankedPairs useQueryAvg defaultDatabase selected) := by
    rw [List.mapM_map]
    refine mapM_eq_some_map fun c hc => ?_
    have hselected := List.mem_of_mem_filter ((mem_rankedRuns useQueryAvg).mp hc)
    exact congrArg (Option.map _) (lookupCandidate_of_mem h hselected)
  obtain ⟨analysis, hanalysis, hranked⟩ := analyzeResults_ranked useQueryAvg h
  refine ⟨analysis, ?_⟩
  rw [rankUnion_of_rankable useQueryAvg h hanalysis (hranked ▸ hlookup),
    applyRunIdTiebreak_eq (rankedInOrder_rankedPairs h)]

/-! ## The hits of a run -/

section OwnHits

variable {defaultDatabase : String} {selected : List ExportCandidate}

/-- The result rows of a run. -/
def ExportCandidate.ownRows (c : ExportCandidate) : List ExportResult :=
  c.source.results.filter fun row => row.experimentId = c.experimentId ∧ row.runId = c.runId

/-- The hits of a run, under its key. -/
def ExportCandidate.ownHits (defaultDatabase : String) (c : ExportCandidate) :
    List MatchedHit :=
  c.ownRows.flatMap fun row => row.result.results.map fun hit =>
    ⟨c.foldedKey defaultDatabase, row.queryText, hit⟩

/-- The hits of all selected runs. -/
def selectedHits (defaultDatabase : String) (selected : List ExportCandidate) :
    List MatchedHit := selected.flatMap (ExportCandidate.ownHits defaultDatabase)

/-- The rows of an experiment's selected runs, run after run. -/
theorem experimentRows_perm (h : Selected selected) (hids : (selected.map (·.runId)).Nodup)
    {experimentId : String} (he : experimentId ∈ selected.map (·.experimentId)) :
    (experimentRows selected experimentId).Perm
      ((selected.filter (·.experimentId = experimentId)).flatMap ExportCandidate.ownRows) := by
  obtain ⟨c, hc, rfl⟩ := List.mem_map.mp he
  unfold experimentRows
  cases hfirst : selected.find? (·.experimentId = c.experimentId) with
  | none => simpa using List.find?_eq_none.mp hfirst c hc
  | some first =>
      have hown : ((selected.filter (·.experimentId = c.experimentId)).map (·.runId)).flatMap
          (fun runId => (first.source.results.filter (·.experimentId = c.experimentId)).filter
            fun row => decide (row.runId = runId)) =
          (selected.filter (·.experimentId = c.experimentId)).flatMap ExportCandidate.ownRows := by
        rw [List.flatMap_map]
        refine List.flatMap_congr fun d hd => ?_
        obtain ⟨hd, hde⟩ := List.mem_filter.mp hd
        have hde : d.experimentId = c.experimentId := of_decide_eq_true hde
        have hsame : first.source = d.source := h.source_of_find hd (hde ▸ hfirst)
        rw [hsame, List.filter_filter, ExportCandidate.ownRows, hde]
        exact List.filter_congr fun row _ => by rw [Bool.decide_and, Bool.and_comm]
      dsimp only
      rw [← hown]
      refine ((rankBy_perm _ _).filter _).trans (groups_perm _ _ ?_).symm
      exact hids.sublist (List.filter_sublist.map _)

/-- With distinct run ids the union holds the rows of each run. -/
theorem unionRows_perm (h : Selected selected) (hids : (selected.map (·.runId)).Nodup) :
    (unionRows selected).Perm (selected.flatMap ExportCandidate.ownRows) := by
  let es := rankBy id (firsts (selected.map (·.experimentId)))
  have hes : es.Nodup := (rankBy_perm _ _).nodup_iff.mpr (nodup_firsts _)
  have hmem : ∀ e, e ∈ es ↔ e ∈ selected.map (·.experimentId) := fun e =>
    (rankBy_perm _ _).mem_iff.trans mem_firsts
  have hgroups : (groups (·.experimentId) selected es).Perm selected := by
    refine (groups_perm _ _ hes).trans (List.Perm.of_eq (List.filter_eq_self.mpr fun c hc => ?_))
    exact decide_eq_true ((hmem _).mpr (List.mem_map_of_mem hc))
  have hrows : (es.flatMap (experimentRows selected)).Perm
      (es.flatMap fun e => (selected.filter (·.experimentId = e)).flatMap
        ExportCandidate.ownRows) :=
    List.Perm.flatMap_left _ fun e he => experimentRows_perm h hids ((hmem e).mp he)
  refine (rankBy_perm _ _).trans (hrows.trans ?_)
  rw [← List.flatMap_assoc]
  exact hgroups.flatMap_right _

/-- With distinct run ids the hits of the union are those of the runs, each under its key. -/
theorem unionHits_perm (h : Selected selected) (hids : (selected.map (·.runId)).Nodup) :
    ((unionHits defaultDatabase selected).map (·.2)).Perm
      (selectedHits defaultDatabase selected) := by
  have hhits : (unionHits defaultDatabase selected).map (·.2) =
      (unionRows selected).flatMap fun row => row.result.results.map fun hit =>
        ⟨unionKey defaultDatabase selected row.runId, row.queryText, hit⟩ := by
    simp only [unionHits, hitsUnder, unionResults, List.map_flatMap, List.flatMap_map,
      List.map_map]
    rfl
  have hown : selectedHits defaultDatabase selected =
      (selected.flatMap ExportCandidate.ownRows).flatMap fun row => row.result.results.map
        fun hit => ⟨unionKey defaultDatabase selected row.runId, row.queryText, hit⟩ := by
    rw [selectedHits, List.flatMap_assoc]
    refine List.flatMap_congr fun c hc => List.flatMap_congr fun row hrow => ?_
    obtain ⟨-, hrow⟩ := List.mem_filter.mp hrow
    obtain ⟨d, hd, hid, -, hkey⟩ := exists_memberKey defaultDatabase hc
    obtain rfl := List.inj_on_of_nodup_map hids hd hc hid
    rw [(of_decide_eq_true hrow).2]
    change _ = row.result.results.map fun hit =>
      MatchedHit.mk (memberKey defaultDatabase (selected.map (·.folded)) d.runId) _ hit
    rw [hkey]
  rw [hhits, hown]
  exact (unionRows_perm h hids).flatMap_right _

/-- The hits under the key of a run are its own. -/
theorem filter_selectedHits (h : Rankable selected) {c : ExportCandidate} (hc : c ∈ selected) :
    (selectedHits defaultDatabase selected).filter (·.key = c.foldedKey defaultDatabase) =
      c.ownHits defaultDatabase := by
  have hkey : ∀ d : ExportCandidate, ∀ m ∈ d.ownHits defaultDatabase,
      m.key = d.foldedKey defaultDatabase := by
    intro d m hm
    obtain ⟨row, -, hm⟩ := List.mem_flatMap.mp hm
    obtain ⟨hit, -, rfl⟩ := List.mem_map.mp hm
    rfl
  have hother : ∀ d ∈ selected, d ≠ c →
      (d.ownHits defaultDatabase).filter (·.key = c.foldedKey defaultDatabase) = [] := by
    intro d hd hne
    refine List.filter_eq_nil_iff.mpr fun m hm heq => hne ?_
    exact List.inj_on_of_nodup_map (h.keys defaultDatabase) hd hc
      ((hkey d m hm).symm.trans (of_decide_eq_true heq))
  have hown : (c.ownHits defaultDatabase).filter (·.key = c.foldedKey defaultDatabase) =
      c.ownHits defaultDatabase :=
    List.filter_eq_self.mpr fun m hm => decide_eq_true (hkey c m hm)
  obtain ⟨xs, ys, rfl⟩ := List.append_of_mem hc
  have hnodup := List.nodup_append.mp (List.Nodup.of_map _ h.slots)
  have hxs : (xs.flatMap (ExportCandidate.ownHits defaultDatabase)).filter
      (·.key = c.foldedKey defaultDatabase) = [] := by
    rw [List.filter_flatMap]
    refine List.flatMap_eq_nil_iff.mpr fun d hd => hother d (List.mem_append_left _ hd) ?_
    exact hnodup.2.2 d hd c (List.mem_cons_self ..)
  have hys : (ys.flatMap (ExportCandidate.ownHits defaultDatabase)).filter
      (·.key = c.foldedKey defaultDatabase) = [] := by
    rw [List.filter_flatMap]
    refine List.flatMap_eq_nil_iff.mpr fun d hd =>
      hother d (List.mem_append_right _ (List.mem_cons_of_mem _ hd)) ?_
    rintro rfl
    exact (List.nodup_cons.mp hnodup.2.1).1 hd
  rw [selectedHits, List.flatMap_append, List.flatMap_cons, List.filter_append,
    List.filter_append, hxs, hown, hys, List.nil_append, List.append_nil]

/-- With distinct run ids the runs that are shown are those with a hit. -/
theorem shownCandidates_of_nodup (h : Rankable selected)
    (hids : (selected.map (·.runId)).Nodup) :
    shownCandidates defaultDatabase selected = selected.filter (·.retrieved) := by
  refine List.filter_congr fun c hc => ?_
  rw [Bool.eq_iff_iff, decide_eq_true_iff, mem_hitKeys h.toSelected]
  constructor
  · rintro ⟨d, hd, hret, hkey⟩
    obtain ⟨e, he, hid, -, hmember⟩ := exists_memberKey defaultDatabase hd
    obtain rfl := List.inj_on_of_nodup_map hids he hd hid
    obtain rfl := List.inj_on_of_nodup_map (h.keys defaultDatabase) he hc
      (hmember.symm.trans hkey)
    exact hret
  · intro hret
    obtain ⟨e, he, hid, -, hmember⟩ := exists_memberKey defaultDatabase hc
    obtain rfl := List.inj_on_of_nodup_map hids he hc hid
    exact ⟨e, hc, hret, hmember⟩

end OwnHits

/-! ## The exported runs -/

/-- The runs of the payload. -/
def markedRuns (analysis : Explored) (ranked : List (RankedConfig × ExportCandidate)) :
    List ExportedRun :=
  markRoles (buildRuns analysis 1 ranked) [] (buildRuns analysis 1 ranked)

/-- `store_summary` changes the ranks within the stores and the roles. -/
theorem map_markRoles {β : Type} {f : ExportedRun → β}
    (hf : ∀ run storeRank roles, f { run with storeRank := storeRank, roles := roles } = f run)
    (all : List ExportedRun) (seen : List String) (runs : List ExportedRun) :
    (markRoles all seen runs).map f = runs.map f := by
  induction runs generalizing seen with
  | nil => rfl
  | cons run runs ih =>
      rw [markRoles, List.map_cons, List.map_cons, ih, hf]

theorem storeRanks_markRoles (all : List ExportedRun) (seen : List String)
    (runs : List ExportedRun) (store : String) :
    ((markRoles all seen runs).filter (·.candidate.store = store)).map (·.storeRank) =
      List.range' (seen.count store + 1) (runs.countP (·.candidate.store = store)) := by
  induction runs generalizing seen with
  | nil => rfl
  | cons run runs ih =>
      have hrest := ih (seen ++ [run.candidate.store])
      rw [List.count_append] at hrest
      rw [markRoles, List.filter_cons, List.countP_cons]
      by_cases hstore : run.candidate.store = store
      · subst hstore
        rw [List.count_singleton_self] at hrest
        simp only [decide_true, if_true, List.map_cons, hrest]
        exact (List.range'_succ ..).symm
      · rw [List.count_singleton, if_neg (by simpa using hstore), Nat.add_zero] at hrest
        simp only [decide_eq_true_iff, hstore, if_false, hrest, Nat.add_zero]

theorem map_rank_buildRuns (analysis : Explored) (position : Nat)
    (ranked : List (RankedConfig × ExportCandidate)) :
    (buildRuns analysis position ranked).map (·.rank) =
      List.range' position ranked.length := by
  induction ranked generalizing position with
  | nil => rfl
  | cons item ranked ih => exact congrArg (position :: ·) (ih _)

theorem map_pair_buildRuns (analysis : Explored) (position : Nat)
    (ranked : List (RankedConfig × ExportCandidate)) :
    (buildRuns analysis position ranked).map (fun r => (r.entry, r.candidate)) = ranked := by
  induction ranked generalizing position with
  | nil => rfl
  | cons item ranked ih => exact congrArg (item :: ·) (ih _)

theorem map_pair_markedRuns (analysis : Explored)
    (ranked : List (RankedConfig × ExportCandidate)) :
    (markedRuns analysis ranked).map (fun r => (r.entry, r.candidate)) = ranked :=
  (map_markRoles (fun _ _ _ => rfl) _ _ _).trans (map_pair_buildRuns analysis 1 ranked)

/-- The exported runs of a selection: those that have a hit, in the order of the printed fields,
    which numbers them all and those of each store. The entry of each is the one that the hits of
    the selected runs give its key, and under its key are the hits of its own result rows. -/
structure InAdvertisedOrder (useQueryAvg : Bool) (defaultDatabase : String)
    (selected : List ExportCandidate) (runs : List ExportedRun) : Prop where
  order : ∀ i j (hi : i < runs.length) (hj : j < runs.length),
    Precedes (advertisedOrder useQueryAvg) runs[i] runs[j] ↔ i < j
  ranks : runs.map (·.rank) = List.range' 1 runs.length
  storeRanks : ∀ store, (runs.filter (·.candidate.store = store)).map (·.storeRank) =
    List.range' 1 (runs.countP (·.candidate.store = store))
  exported : (runs.map (·.candidate)).Perm (selected.filter (·.retrieved))
  keys : ∀ r ∈ runs, r.entry.key = r.candidate.foldedKey defaultDatabase
  entries : ∀ r ∈ runs,
    r.entry = rankedConfig (selectedHits defaultDatabase selected) r.entry.key
  matched : ∀ r ∈ runs, (selectedHits defaultDatabase selected).filter (·.key = r.entry.key) =
    r.candidate.ownHits defaultDatabase

theorem ranks_markedRuns (analysis : Explored)
    (ranked : List (RankedConfig × ExportCandidate)) :
    (markedRuns analysis ranked).map (·.rank) =
      List.range' 1 (markedRuns analysis ranked).length := by
  have hlen := congrArg List.length (map_pair_markedRuns analysis ranked)
  rw [List.length_map] at hlen
  rw [hlen]
  exact (map_markRoles (fun _ _ _ => rfl) _ _ _).trans (map_rank_buildRuns analysis 1 ranked)

theorem storeRanks_markedRuns (analysis : Explored)
    (ranked : List (RankedConfig × ExportCandidate)) (store : String) :
    ((markedRuns analysis ranked).filter (·.candidate.store = store)).map (·.storeRank) =
      List.range' 1 ((markedRuns analysis ranked).countP (·.candidate.store = store)) := by
  have hstores : (markedRuns analysis ranked).map (·.candidate.store) =
      (buildRuns analysis 1 ranked).map (·.candidate.store) :=
    map_markRoles (fun _ _ _ => rfl) _ _ _
  have hcount := congrArg (List.countP fun s => decide (s = store)) hstores
  rw [List.countP_map, List.countP_map] at hcount
  refine (storeRanks_markRoles _ [] _ store).trans ?_
  rw [List.count_nil]
  exact congrArg (List.range' 1) hcount.symm

theorem inAdvertisedOrder_markedRuns (useQueryAvg : Bool) {defaultDatabase : String}
    {selected : List ExportCandidate} (h : Rankable selected)
    (hids : (selected.map (·.runId)).Nodup) (analysis : Explored) :
    InAdvertisedOrder useQueryAvg defaultDatabase selected
      (markedRuns analysis (rankedPairs useQueryAvg defaultDatabase selected)) := by
  have hranks := ranks_markedRuns analysis (rankedPairs useQueryAvg defaultDatabase selected)
  have hstores := storeRanks_markedRuns analysis (rankedPairs useQueryAvg defaultDatabase selected)
  generalize hruns : markedRuns analysis _ = runs at hranks hstores ⊢
  have hpairs : runs.map (fun r => (r.entry, r.candidate)) =
      rankedPairs useQueryAvg defaultDatabase selected :=
    hruns ▸ map_pair_markedRuns analysis _
  have hcandidates : runs.map (·.candidate) = rankedRuns useQueryAvg defaultDatabase selected := by
    have hsnd := congrArg (List.map Prod.snd) hpairs
    rw [List.map_map, rankedPairs, List.map_map] at hsnd
    exact hsnd.trans (List.map_id _)
  have hentry : ∀ r ∈ runs, r.entry = exportEntry defaultDatabase selected r.candidate := by
    intro r hr
    have hmem := List.mem_map_of_mem (f := fun r : ExportedRun => (r.entry, r.candidate)) hr
    rw [hpairs] at hmem
    obtain ⟨c, -, hc⟩ := List.mem_map.mp hmem
    obtain ⟨he, rfl⟩ := Prod.mk.inj hc
    exact he.symm
  have hshown : ∀ r ∈ runs, r.candidate ∈ shownCandidates defaultDatabase selected :=
    fun r hr => (mem_rankedRuns useQueryAvg).mp (hcandidates ▸ List.mem_map_of_mem hr)
  have hkeys : ∀ r ∈ runs, r.entry.key = r.candidate.foldedKey defaultDatabase :=
    fun r hr => congrArg RankedConfig.key (hentry r hr)
  have hsorted : runs.Pairwise fun a b => rankKey useQueryAvg a.entry a.candidate.runId <
      rankKey useQueryAvg b.entry b.candidate.runId := by
    have hranked : RankedInOrder useQueryAvg
        (runs.map fun r => (r.entry, r.candidate)) := by
      rw [hpairs]
      exact rankedInOrder_rankedPairs h
    rw [RankedInOrder, List.pairwise_map] at hranked
    exact hranked
  refine ⟨fun i j hi hj => ?_, hranks, hstores, ?_, hkeys, fun r hr => ?_, fun r hr => ?_⟩
  · rw [precedes_iff]
    exact rank_getElem_lt_iff
      (fun r : ExportedRun => rankKey useQueryAvg r.entry r.candidate.runId) hsorted hi hj
  · rw [hcandidates, ← shownCandidates_of_nodup h hids]
    exact (rankBy_perm _ _).trans (rankBy_perm _ _)
  · rw [hkeys r hr, ← rankedConfig_perm (unionHits_perm h.toSelected hids)]
    exact hentry r hr
  · rw [hkeys r hr]
    exact filter_selectedHits h (List.mem_of_mem_filter (hshown r hr))

end RagParamsFinder
