/-
  The exported ranking depends on the selected runs and their results alone, not on the order in
  which the databases and their rows come.

  The readers sort what they read by id, and `select_candidates` sorts by store, group and run
  id. What is left of the order of the inputs is the number of a database and the order of
  result rows that agree in run and query.

  Proved: `export_order_sound`, for databases that share no experiment id and no run id. Of two
  candidates that agree in store, group, stamp and run id, the first one is taken.
-/
import Mathlib.Data.Multiset.Basic
import RagParamsFinder.Export.ExportOrder

namespace RagParamsFinder

open Documents Grouping Ranking Traversals

/-! ## Selected runs without an order -/

/-- A selected run as the ranking sees it, its experiment's results in no order. -/
structure SelectedRun where
  candidate : Candidate
  experimentId : String
  rows : Multiset ExportResult

def ExportCandidate.view (c : ExportCandidate) : SelectedRun where
  candidate := c.toCandidate
  experimentId := c.experimentId
  rows := ↑(c.source.results.filter (·.experimentId = c.experimentId))

/-- The same runs with the same results. -/
def SameSelection (selected selected' : List ExportCandidate) : Prop :=
  (selected.map (·.view)).Perm (selected'.map (·.view))

/-- The candidate as it is ranked. -/
def SelectedRun.folded (v : SelectedRun) : Candidate :=
  { v.candidate with
    run := v.candidate.run.set "database_provider"
      (.str (v.candidate.store ++ "#" ++ v.candidate.groupId))
    store := v.candidate.store ++ "#" ++ v.candidate.groupId }

section SameViews

variable {selected selected' : List ExportCandidate}
  (h : selected.map (·.view) = selected'.map (·.view))

include h

theorem map_of_views {β : Type} (f : SelectedRun → β) :
    selected.map (fun c => f c.view) = selected'.map fun c => f c.view := by
  have hmap := congrArg (List.map f) h
  rwa [List.map_map, List.map_map] at hmap

theorem filter_of_views (p : SelectedRun → Bool) :
    (selected.filter fun c => p c.view).map (·.view) =
      (selected'.filter fun c => p c.view).map (·.view) := by
  have hfilter := congrArg (List.filter p) h
  rwa [List.filter_map, List.filter_map] at hfilter

theorem rankBy_of_views {β : Type} [LinearOrder β] (rank : SelectedRun → β) :
    (rankBy (fun c => rank c.view) selected).map (·.view) =
      (rankBy (fun c => rank c.view) selected').map (·.view) := by
  rw [← rankBy_map rank fun _ _ => rfl, ← rankBy_map rank fun _ _ => rfl, h]

theorem unionKey_of_views (defaultDatabase : String) :
    unionKey defaultDatabase selected = unionKey defaultDatabase selected' := by
  have hfolded : selected.map (·.folded) = selected'.map (·.folded) :=
    map_of_views h SelectedRun.folded
  unfold unionKey
  rw [hfolded]

theorem experimentRows_of_views (experimentId : String) :
    (experimentRows selected experimentId).Perm (experimentRows selected' experimentId) := by
  have hfind := congrArg (List.find? fun v => decide (v.experimentId = experimentId)) h
  rw [List.find?_map, List.find?_map] at hfind
  have hids : (selected.filter (·.experimentId = experimentId)).map (·.runId) =
      (selected'.filter (·.experimentId = experimentId)).map (·.runId) :=
    map_of_views (filter_of_views h fun v => v.experimentId = experimentId)
      fun v => v.candidate.runId
  unfold experimentRows
  change ((selected.find? fun c => decide (c.experimentId = experimentId)).map _) =
    (selected'.find? fun c => decide (c.experimentId = experimentId)).map _ at hfind
  cases hleft : selected.find? fun c => decide (c.experimentId = experimentId) with
  | none =>
      rw [hleft, Option.map_none, eq_comm, Option.map_eq_none_iff] at hfind
      rw [hfind]
  | some c =>
      rw [hleft, Option.map_some, eq_comm, Option.map_eq_some_iff] at hfind
      obtain ⟨d, hright, hview⟩ := hfind
      have hexp : c.experimentId = experimentId := by simpa using List.find?_some hleft
      have hrows := congrArg SelectedRun.rows hview
      have hsame : d.experimentId = c.experimentId := congrArg SelectedRun.experimentId hview
      have hperm := Multiset.coe_eq_coe.mp hrows
      rw [hsame, hexp] at hperm
      rw [hright, hids]
      exact ((rankBy_perm _ _).trans (hperm.symm.trans (rankBy_perm _ _).symm)).filter _

theorem unionRows_of_views : (unionRows selected).Perm (unionRows selected') := by
  have hids : selected.map (·.experimentId) = selected'.map (·.experimentId) :=
    map_of_views h SelectedRun.experimentId
  unfold unionRows
  rw [hids]
  refine (rankBy_perm _ _).trans (List.Perm.trans ?_ (rankBy_perm _ _).symm)
  exact List.Perm.flatMap_left _ fun e _ => experimentRows_of_views h e

theorem unionResults_of_views : (unionResults selected).Perm (unionResults selected') :=
  (unionRows_of_views h).map _

/-- What makes runs rankable shows in their views. -/
theorem rankable_of_views (hr : Rankable selected) (h' : Selected selected') :
    Rankable selected' where
  toSelected := h'
  hashed := by
    intro d hd
    have hview : d.view ∈ selected.map (·.view) := h ▸ List.mem_map_of_mem hd
    obtain ⟨c, hc, hcd⟩ := List.mem_map.mp hview
    have hrun : c.run = d.run := congrArg (fun v => v.candidate.run) hcd
    have hhash := hr.hashed c hc
    unfold ExportCandidate.hashable at hhash ⊢
    rwa [hrun] at hhash
  read := fun row hrow => hr.read row ((unionRows_of_views h).mem_iff.mpr hrow)
  span := by
    have hspan : scoreSpan (unionResults selected') = scoreSpan (unionResults selected) := by
      have hraws := (unionResults_of_views h).flatMap_right
        fun r => r.results.map effectiveScore
      unfold scoreSpan maxRaw minRaw
      dsimp only
      rw [max?_perm hraws, min?_perm hraws]
    exact hspan ▸ hr.span

theorem unionHits_of_views (defaultDatabase : String) :
    (unionHits defaultDatabase selected).Perm (unionHits defaultDatabase selected') := by
  unfold unionHits hitsUnder
  rw [unionKey_of_views h]
  exact (unionResults_of_views h).flatMap_right _

/-- The ranked runs are the same, with the same entries. -/
theorem rankedPairs_of_views (useQueryAvg : Bool) (defaultDatabase : String) :
    (rankedPairs useQueryAvg defaultDatabase selected).map (fun x => (x.1, x.2.view)) =
      (rankedPairs useQueryAvg defaultDatabase selected').map fun x => (x.1, x.2.view) := by
  have hhits := unionHits_of_views h defaultDatabase
  let entry : SelectedRun → RankedConfig := fun v =>
    rankedConfig ((unionHits defaultDatabase selected).map (·.2)) (v.folded.key defaultDatabase)
  have hentry : exportEntry defaultDatabase selected' = fun c => entry c.view := by
    funext c
    unfold exportEntry
    rw [← rankedConfig_perm (hhits.map _)]
    rfl
  have hkept : (fun c : ExportCandidate =>
      decide (c.foldedKey defaultDatabase ∈ hitKeys defaultDatabase selected')) =
        fun c => decide (c.view.folded.key defaultDatabase ∈ hitKeys defaultDatabase selected) :=
    funext fun c => decide_eq_decide.mpr (hhits.map fun m => m.2.key).mem_iff.symm
  have hshown : (shownCandidates defaultDatabase selected).map (·.view) =
      (shownCandidates defaultDatabase selected').map (·.view) := by
    unfold shownCandidates
    rw [hkept]
    exact filter_of_views h fun v =>
      decide (v.folded.key defaultDatabase ∈ hitKeys defaultDatabase selected)
  have hranked : (rankedRuns useQueryAvg defaultDatabase selected).map (·.view) =
      (rankedRuns useQueryAvg defaultDatabase selected').map (·.view) := by
    unfold rankedRuns
    rw [hentry]
    exact rankBy_of_views (rankBy_of_views hshown fun v => v.candidate.runId)
      fun v => sortKey useQueryAvg (entry v)
  rw [rankedPairs, rankedPairs, List.map_map, List.map_map, hentry]
  exact map_of_views hranked fun v => (entry v, v)

end SameViews

/-! ## Standings -/

/-- Where an exported run stands. -/
structure Standing where
  run : SelectedRun
  rank : Nat
  storeRank : Nat
  roles : List String
  entry : RankedConfig

def ExportedRun.standing (r : ExportedRun) : Standing where
  run := r.candidate.view
  rank := r.rank
  storeRank := r.storeRank
  roles := r.roles
  entry := r.entry

theorem standing_buildRuns (analysis analysis' : Explored) (position : Nat)
    {ranked ranked' : List (RankedConfig × ExportCandidate)}
    (h : ranked.map (fun x => (x.1, x.2.view)) = ranked'.map fun x => (x.1, x.2.view)) :
    (buildRuns analysis position ranked).map (·.standing) =
      (buildRuns analysis' position ranked').map (·.standing) := by
  induction ranked generalizing position ranked' with
  | nil =>
      obtain rfl := List.map_eq_nil_iff.mp h.symm
      rfl
  | cons x ranked ih =>
      obtain ⟨y, ranked', rfl, hy, hrest⟩ := List.map_eq_cons_iff.mp h.symm
      obtain ⟨hentry, hview⟩ := Prod.mk.inj hy
      rw [buildRuns, buildRuns, List.map_cons, List.map_cons, ih (position + 1) hrest.symm]
      refine congrArg (· :: _) ?_
      unfold ExportedRun.standing
      rw [hentry, hview]

theorem standing_markRoles {all all' : List ExportedRun} (seen : List String)
    {runs runs' : List ExportedRun} (hall : all.map (·.standing) = all'.map (·.standing))
    (h : runs.map (·.standing) = runs'.map (·.standing)) :
    (markRoles all seen runs).map (·.standing) = (markRoles all' seen runs').map (·.standing) := by
  induction runs generalizing seen runs' with
  | nil =>
      obtain rfl := List.map_eq_nil_iff.mp h.symm
      rfl
  | cons run runs ih =>
      obtain ⟨run', runs', rfl, hrun, hrest⟩ := List.map_eq_cons_iff.mp h.symm
      have hstore : run'.candidate.store = run.candidate.store :=
        congrArg (fun s => s.run.candidate.store) hrun
      have hcount : all'.countP (·.candidate.store = run.candidate.store) =
          all.countP (·.candidate.store = run.candidate.store) := by
        have hmap := congrArg
          (List.countP fun s => decide (s.run.candidate.store = run.candidate.store)) hall
        rw [List.countP_map, List.countP_map] at hmap
        exact hmap.symm
      rw [markRoles, markRoles, List.map_cons, List.map_cons, hstore,
        ih (seen ++ [run.candidate.store]) hrest.symm]
      refine congrArg (· :: _) ?_
      dsimp only [ExportedRun.standing]
      rw [hcount]
      have hview : run'.candidate.view = run.candidate.view := congrArg Standing.run hrun
      have hrank : run'.rank = run.rank := congrArg Standing.rank hrun
      have hentry : run'.entry = run.entry := congrArg Standing.entry hrun
      rw [hview, hrank, hentry]

/-! ## The payload of a selection -/

section Payload

variable {strOf : Value → String} {useQueryAvg : Bool} {defaultDatabase : String}
  {focus : List (String × Value)} {dbs dbs' : List Source} {recorded recorded' : List Exclusion}
  {selected selected' : List ExportCandidate}

/-- The runs of a payload are the ranked ones, marked. -/
theorem runs_of_assemble (h : Rankable selected) {payload : Payload}
    {line : String} (hok : assemble strOf useQueryAvg defaultDatabase focus dbs recorded selected =
      .ok (payload, line)) :
    ∃ analysis, payload.runs =
      markedRuns analysis (rankedPairs useQueryAvg defaultDatabase selected) := by
  obtain ⟨analysis, hranked⟩ := rankUnion_ranked useQueryAvg h
  refine ⟨analysis, ?_⟩
  unfold assemble at hok
  obtain ⟨x, hx, hok⟩ := bind_eq_ok.mp hok
  rw [hranked] at hx
  obtain rfl := Except.ok.inj hx
  obtain ⟨stores, -, hok⟩ := bind_eq_ok.mp hok
  obtain ⟨story, -, hok⟩ := bind_eq_ok.mp hok
  obtain ⟨rfl, -⟩ := Prod.mk.inj (Except.ok.inj hok)
  rfl

theorem shown_of_views (h : selected.map (·.view) = selected'.map (·.view)) :
    (shownCandidates defaultDatabase selected').any (·.store = primaryStore) =
      (shownCandidates defaultDatabase selected).any (·.store = primaryStore) := by
  have hranked := congrArg (List.any · fun x => decide (x.2.candidate.store = primaryStore))
    (rankedPairs_of_views h true defaultDatabase)
  rw [rankedPairs, rankedPairs, List.any_map, List.any_map, List.any_map, List.any_map]
    at hranked
  have hperm : ∀ cs, (rankedRuns true defaultDatabase cs).any (·.store = primaryStore) =
      (shownCandidates defaultDatabase cs).any (·.store = primaryStore) := fun cs =>
    ((rankBy_perm _ _).trans (rankBy_perm _ _)).any_eq
  rw [← hperm, ← hperm]
  exact hranked.symm

/-- The same selection is exported with the same standings, whatever the databases. -/
theorem assemble_of_views (h : Rankable selected)
    (h' : Rankable selected')
    (hviews : selected.map (·.view) = selected'.map (·.view)) {payload : Payload} {line : String}
    (hok : assemble strOf useQueryAvg defaultDatabase focus dbs recorded selected =
      .ok (payload, line)) :
    ∃ payload' line', assemble strOf useQueryAvg defaultDatabase focus dbs' recorded' selected' =
        .ok (payload', line') ∧
      payload'.runs.map (·.standing) = payload.runs.map (·.standing) := by
  obtain ⟨analysis, hruns⟩ := runs_of_assemble h hok
  rcases assemble_cases strOf useQueryAvg focus dbs' recorded' h' with
    ⟨-, payload', line', hok', -⟩ | ⟨hnone, -⟩
  · obtain ⟨analysis', hruns'⟩ := runs_of_assemble h' hok'
    refine ⟨payload', line', hok', ?_⟩
    rw [hruns, hruns']
    have hbuilt := standing_buildRuns analysis' analysis 1
      (rankedPairs_of_views hviews useQueryAvg defaultDatabase).symm
    exact standing_markRoles [] hbuilt hbuilt
  · rw [shown_of_views hviews] at hnone
    rcases assemble_cases strOf useQueryAvg focus dbs recorded h with ⟨hany, -⟩ | ⟨-, herror⟩
    · rw [hany] at hnone
      cases hnone
    · rw [herror] at hok
      cases hok

end Payload

/-! ## The order of the selection -/

def SelectedRun.slot (v : SelectedRun) : String × String := v.candidate.slot

/-- The key that `select_candidates` sorts by. -/
def SelectedRun.position (v : SelectedRun) : Lex (String × Lex (String × String)) :=
  toLex (v.candidate.store, toLex (v.candidate.groupId, v.candidate.runId))

/-- A selection comes in one order. -/
theorem views_of_sameSelection {cs cs' : List ExportCandidate}
    (h : SameSelection (selectCandidates cs) (selectCandidates cs')) :
    (selectCandidates cs).map (·.view) = (selectCandidates cs').map (·.view) := by
  have hsorted : ∀ cs, ((selectCandidates cs).map (·.view)).Pairwise
      fun v w => v.position ≤ w.position :=
    fun cs => List.pairwise_map.mpr (pairwise_rankBy _ _)
  have hslots : (((selectCandidates cs).map (·.view)).map (·.slot)).Nodup := by
    rw [List.map_map]
    exact nodup_slots_selectCandidates cs
  refine List.Perm.eq_of_pairwise (fun v w hv hw hvw hwv => ?_) (hsorted cs) (hsorted cs') h
  have hposition : v.position = w.position := le_antisymm hvw hwv
  have hstore := congrArg (fun x => (ofLex x).1) hposition
  have hgroup := congrArg (fun x => (ofLex (ofLex x).2).1) hposition
  exact List.inj_on_of_nodup_map hslots hv (h.mem_iff.mpr hw) (Prod.ext hstore hgroup)

section Export

variable (strOf : Value → String) (digest : GroupPayload → Option GroupDigest)
  (useQueryAvg : Bool) (defaultDatabase questionsName questionsSha : String)
  (needles : List String) (focus : List (String × Value)) (maxRuns : Int)

/-- What a payload of readable databases is made of. -/
theorem assemble_of_buildExport {dbs : List Source} {payload : Payload} {line : String}
    (hok : buildExport strOf digest useQueryAvg defaultDatabase questionsName questionsSha needles
      (.ok focus) (dbs.map .ok) maxRuns = .ok (payload, line)) :
    ∃ exclusions cs, collectCandidates strOf digest questionsName questionsSha
        needles dbs = .ok (exclusions, cs) ∧
      (selectCandidates cs).any (·.store = primaryStore) = true ∧
      ¬maxRuns < (selectCandidates cs).length ∧
      assemble strOf useQueryAvg defaultDatabase focus dbs (exclusions ++ selectionExclusions cs)
        (selectCandidates cs) = .ok (payload, line) := by
  rw [buildExport_read] at hok
  obtain ⟨⟨exclusions, cs⟩, hcollect, hok⟩ := bind_eq_ok.mp hok
  refine ⟨exclusions, cs, mapError_eq_ok.mp hcollect, ?_⟩
  dsimp only at hok
  split at hok
  · cases hok
  · rename_i hprimary
    split at hok
    · cases hok
    · rename_i hcap
      exact ⟨not_not.mp hprimary, hcap, mapError_eq_ok.mp hok⟩

theorem buildExport_of_assemble {dbs : List Source} {exclusions : List Exclusion}
    {cs : List ExportCandidate} {payload : Payload} {line : String}
    (hcollect : collectCandidates strOf digest questionsName questionsSha
      needles dbs = .ok (exclusions, cs))
    (hprimary : (selectCandidates cs).any (·.store = primaryStore) = true)
    (hcap : ¬maxRuns < (selectCandidates cs).length)
    (hok : assemble strOf useQueryAvg defaultDatabase focus dbs
      (exclusions ++ selectionExclusions cs) (selectCandidates cs) = .ok (payload, line)) :
    buildExport strOf digest useQueryAvg defaultDatabase questionsName questionsSha needles
      (.ok focus) (dbs.map .ok) maxRuns = .ok (payload, line) := by
  rw [buildExport_read, hcollect]
  change (if _ then _ else if _ then _ else _) = _
  rw [if_neg (not_not.mpr hprimary), if_neg hcap, hok]
  rfl

/-- Databases from which the same runs are selected are exported with the same standings. -/
theorem standings_of_sameSelection {dbs dbs' : List Source} {payload : Payload} {line : String}
    (hok : buildExport strOf digest useQueryAvg defaultDatabase questionsName questionsSha needles
      (.ok focus) (dbs.map .ok) maxRuns = .ok (payload, line))
    (hsame : SameSelection
      (selectedFrom strOf digest questionsName questionsSha needles dbs)
      (selectedFrom strOf digest questionsName questionsSha needles dbs')) :
    ∃ payload' line', buildExport strOf digest useQueryAvg defaultDatabase questionsName
        questionsSha needles (.ok focus) (dbs'.map .ok) maxRuns = .ok (payload', line') ∧
      payload'.runs.map (·.standing) = payload.runs.map (·.standing) := by
  obtain ⟨exclusions, cs, hcollect, hprimary, hcap, hassemble⟩ :=
    assemble_of_buildExport _ _ _ _ _ _ _ _ _ hok
  unfold selectedFrom at hsame
  rw [hcollect] at hsame
  cases hcollect' : collectCandidates strOf digest questionsName questionsSha
      needles dbs' with
  | error e =>
      rw [hcollect'] at hsame
      have hnone : selectCandidates cs = [] := List.map_eq_nil_iff.mp (List.Perm.eq_nil hsame)
      rw [hnone] at hprimary
      cases hprimary
  | ok r =>
      obtain ⟨exclusions', cs'⟩ := r
      rw [hcollect'] at hsame
      have hviews := views_of_sameSelection hsame
      have hprimary' : (selectCandidates cs').any (·.store = primaryStore) = true := by
        have hany := congrArg (List.any · fun v => decide (v.candidate.store = primaryStore)) hviews
        rw [List.any_map, List.any_map] at hany
        exact hany.symm.trans hprimary
      have hlen := congrArg List.length hviews
      rw [List.length_map, List.length_map] at hlen
      have hrankable := rankable_of_assemble strOf useQueryAvg focus dbs _
        (collected_of_collect hcollect).selected hassemble
      obtain ⟨payload', line', hassemble', hstandings⟩ := assemble_of_views hrankable
        (rankable_of_views hviews hrankable (collected_of_collect hcollect').selected) hviews
        hassemble
      exact ⟨payload', line', buildExport_of_assemble _ _ _ _ _ _ _ _ _ hcollect' hprimary'
        (hlen ▸ hcap) hassemble', hstandings⟩

end Export

/-! ## The order of the inputs -/

/-- The same tables, their rows in another order. -/
structure Source.Rearranged (db db' : Source) : Prop where
  experiments : db.experiments.Perm db'.experiments
  runs : db.runs.Perm db'.runs
  results : db.results.Perm db'.results

/-- The same databases in another order, their rows in another order. -/
def SourcesRearranged (dbs dbs' : List Source) : Prop :=
  ∃ mid, dbs.Perm mid ∧ List.Forall₂ Source.Rearranged mid dbs'

/-- No experiment id occurs in two databases. -/
def NoSharedExperiments (dbs : List Source) : Prop :=
  (dbs.flatMap fun db => db.experiments.map (·.id)).Nodup

/-- No run id occurs in two databases. -/
def NoSharedRuns (dbs : List Source) : Prop := (dbs.flatMap fun db => db.runs.map (·.id)).Nodup

instance (dbs : List Source) : Decidable (NoSharedExperiments dbs) :=
  inferInstanceAs (Decidable (List.Nodup _))

instance (dbs : List Source) : Decidable (NoSharedRuns dbs) :=
  inferInstanceAs (Decidable (List.Nodup _))

/-- No two candidates of a store and a group agree in stamp and run id. -/
def Untied (cs : List ExportCandidate) : Prop :=
  ∀ c ∈ cs, ∀ d ∈ cs, c.slot = d.slot → c.recency = d.recency → c = d

theorem Source.Rearranged.readRunRows {db db' : Source} (h : db.Rearranged db')
    (experimentId : String) : readRunRows db experimentId = readRunRows db' experimentId :=
  rankBy_eq_of_perm _ (h.runs.filter _) fun _ ha _ hb =>
    List.inj_on_of_nodup_map db.runIds (List.mem_of_mem_filter ha) (List.mem_of_mem_filter hb)

theorem Source.Rearranged.experimentRows {db db' : Source} (h : db.Rearranged db') :
    rankBy (·.id) db.experiments = rankBy (·.id) db'.experiments :=
  rankBy_eq_of_perm _ h.experiments fun _ ha _ hb =>
    List.inj_on_of_nodup_map db.experimentIds ha hb

section Candidates

variable (strOf : Value → String) (digest : GroupPayload → Option GroupDigest)
  (questionsSha : String)

/-- What an examined run adds to the selection. -/
def candidateView (v : Exclusion ⊕ ExportCandidate) : Option SelectedRun :=
  v.getRight?.map (·.view)

/-- What an experiment of a database adds to the candidates. -/
def experimentViews (db : Source) (e : ExportExperiment) : List SelectedRun :=
  match (candidatesFor strOf digest questionsSha ⟨0, db, e⟩).map
      (List.map candidateView) with
  | .ok views => views.filterMap id
  | .error _ => []

theorem examineRun_rearranged {db db' : Source} (h : db.Rearranged db') (i j : Nat)
    (e : ExportExperiment) (run : ExportRun) :
    (examineRun strOf digest questionsSha ⟨i, db, e⟩ run).map candidateView =
      (examineRun strOf digest questionsSha ⟨j, db', e⟩ run).map
        candidateView := by
  have hresults : ∀ runId, hasResults db e.id runId = hasResults db' e.id runId := fun runId =>
    h.results.any_eq
  unfold examineRun
  dsimp only
  rw [hresults]
  split
  · rfl
  · split
    · rfl
    · split
      · rfl
      · split
        · split
          · rfl
          · rfl
        · have hrows := Multiset.coe_eq_coe.mpr
            (h.results.filter fun r => decide (r.experimentId = e.id))
          simp only [Except.map, candidateView, Sum.getRight?, Option.map_some,
            ExportCandidate.view, hrows]

theorem candidatesFor_rearranged {db db' : Source} (h : db.Rearranged db') (i j : Nat)
    (e : ExportExperiment) :
    (candidatesFor strOf digest questionsSha ⟨i, db, e⟩).map
        (List.map candidateView) =
      (candidatesFor strOf digest questionsSha ⟨j, db', e⟩).map
        (List.map candidateView) := by
  have hread : db.readRuns e.id = db'.readRuns e.id := by
    unfold Source.readRuns
    rw [h.readRunRows]
  unfold candidatesFor
  dsimp only
  rw [hread]
  cases db'.readRuns e.id with
  | error e => rfl
  | ok runs => exact map_mapM_congr (examineRun_rearranged strOf digest questionsSha h i j e) runs

theorem experimentViews_rearranged {db db' : Source} (h : db.Rearranged db')
    (e : ExportExperiment) :
    experimentViews strOf digest questionsSha db e =
      experimentViews strOf digest questionsSha db' e := by
  unfold experimentViews
  rw [candidatesFor_rearranged strOf digest questionsSha h 0 0 e]

theorem Source.Rearranged.refl (db : Source) : db.Rearranged db :=
  ⟨List.Perm.refl _, List.Perm.refl _, List.Perm.refl _⟩

/-- The candidates are those of the experiments, one after the other. -/
theorem map_view_candidates {xs : List SourceExperiment}
    {runs : List (List (Exclusion ⊕ ExportCandidate))}
    (h : xs.mapM (candidatesFor strOf digest questionsSha) = .ok runs) :
    (runs.flatten.filterMap (·.getRight?)).map (·.view) = xs.flatMap fun x =>
      experimentViews strOf digest questionsSha x.source x.experiment := by
  have hall := forall₂_of_mapM h
  clear h
  induction hall with
  | nil => rfl
  | @cons x ys xs runs hx _ ih =>
      have hviews : experimentViews strOf digest questionsSha x.source
          x.experiment = (ys.filterMap (·.getRight?)).map (·.view) := by
        unfold experimentViews
        rw [candidatesFor_rearranged strOf digest questionsSha (.refl x.source) 0
          x.index x.experiment, hx]
        change (ys.map candidateView).filterMap id = _
        rw [List.filterMap_map, List.map_filterMap]
        rfl
      rw [List.flatten_cons, List.filterMap_append, List.map_append, ih, List.flatMap_cons,
        hviews]

end Candidates

section Collected

variable (strOf : Value → String) (digest : GroupPayload → Option GroupDigest)
  (questionsName questionsSha : String) (needles : List String)

/-- What a database adds to the candidates. -/
def databaseViews (db : Source) : List SelectedRun :=
  ((rankBy (·.id) db.experiments).filter fun e =>
    isEligible strOf questionsName needles ⟨0, db, e⟩).flatMap
      (experimentViews strOf digest questionsSha db)

theorem databaseViews_rearranged {db db' : Source} (h : db.Rearranged db') :
    databaseViews strOf digest questionsName questionsSha needles db =
      databaseViews strOf digest questionsName questionsSha needles db' := by
  unfold databaseViews
  rw [h.experimentRows]
  exact List.flatMap_congr fun e _ =>
    experimentViews_rearranged strOf digest questionsSha h e

theorem unseen_eq_self {seen : List String} {xs : List SourceExperiment}
    (hseen : ∀ x ∈ xs, x.experiment.id ∉ seen) (hids : (xs.map (·.experiment.id)).Nodup) :
    unseen seen xs = xs := by
  induction xs generalizing seen with
  | nil => rfl
  | cons x xs ih =>
      obtain ⟨hx, hids⟩ := List.nodup_cons.mp hids
      rw [unseen, if_neg (hseen x (List.mem_cons_self ..)), ih ?_ hids]
      intro y hy hmem
      rcases List.mem_cons.mp hmem with heq | hmem
      · exact hx (List.mem_map.mpr ⟨y, hy, heq⟩)
      · exact hseen y (List.mem_cons_of_mem _ hy) hmem

variable {dbs dbs' : List Source}

/-- The databases one after the other, whatever their numbers. -/
theorem flatMap_zipIdx {β : Type} (f : Source → List β) :
    (dbs.zipIdx.flatMap fun d => f d.1) = dbs.flatMap f := by
  rw [← List.flatMap_map, List.zipIdx_map_fst]

theorem unseen_sourceExperiments (h : NoSharedExperiments dbs) :
    unseen [] (sourceExperiments dbs) = sourceExperiments dbs := by
  refine unseen_eq_self (fun _ _ => List.not_mem_nil) ?_
  have hids : (sourceExperiments dbs).map (·.experiment.id) =
      dbs.flatMap fun db => (rankBy (·.id) db.experiments).map (·.id) := by
    rw [sourceExperiments, List.map_flatMap, ← flatMap_zipIdx]
    refine List.flatMap_congr fun d _ => ?_
    rw [List.map_map]
    rfl
  rw [hids]
  exact (List.Perm.flatMap_left _ fun db _ => (rankBy_perm _ _).map _).nodup_iff.mpr h

theorem noSharedExperiments_rearranged (h : SourcesRearranged dbs dbs')
    (hshared : NoSharedExperiments dbs) : NoSharedExperiments dbs' := by
  have hids : (dbs.flatMap fun db => db.experiments.map (·.id)).Perm
      (dbs'.flatMap fun db => db.experiments.map (·.id)) :=
    flatMap_perm h fun _ _ hdb => hdb.experiments.map _
  exact hids.nodup_iff.mp hshared

theorem databaseViews_perm (h : SourcesRearranged dbs dbs') :
    (dbs.flatMap (databaseViews strOf digest questionsName questionsSha
        needles)).Perm
      (dbs'.flatMap (databaseViews strOf digest questionsName questionsSha
        needles)) :=
  flatMap_perm h fun _ _ hdb => List.Perm.of_eq (databaseViews_rearranged _ _ _ _ _ hdb)

/-- The candidates of the databases, one after the other. -/
theorem views_of_collect (hshared : NoSharedExperiments dbs) {exclusions : List Exclusion}
    {cs : List ExportCandidate}
    (h : collectCandidates strOf digest questionsName questionsSha needles dbs =
      .ok (exclusions, cs)) :
    cs.map (·.view) = dbs.flatMap
      (databaseViews strOf digest questionsName questionsSha needles) := by
  unfold collectCandidates at h
  obtain ⟨verdicts, hverdicts, h⟩ := bind_eq_ok.mp h
  obtain ⟨runs, hruns, h⟩ := bind_eq_ok.mp h
  obtain ⟨-, rfl⟩ := Prod.mk.inj (Except.ok.inj h)
  rcases eligibleExperiments_cases strOf questionsName needles (sourceExperiments dbs) [] with
    ⟨-, e, he⟩ | ⟨-, verdicts', hok, hkept⟩
  · rw [he] at hverdicts
    cases hverdicts
  · obtain rfl := Except.ok.inj (hok.symm.trans hverdicts)
    rw [map_view_candidates _ _ _ hruns, hkept, unseen_sourceExperiments hshared,
      sourceExperiments, List.filter_flatMap, List.flatMap_assoc, ← flatMap_zipIdx]
    refine List.flatMap_congr fun d _ => ?_
    rw [List.filter_map, List.flatMap_map]
    rfl

theorem mem_sourceExperiments_iff {x : SourceExperiment} : x ∈ sourceExperiments dbs ↔
    dbs[x.index]? = some x.source ∧ x.experiment ∈ x.source.experiments := by
  refine ⟨fun h => ⟨mem_sourceExperiments h, ?_⟩, fun h => ?_⟩
  · obtain ⟨d, -, hx⟩ := List.mem_flatMap.mp h
    obtain ⟨e, he, rfl⟩ := List.mem_map.mp hx
    exact (rankBy_perm _ _).mem_iff.mp he
  · refine List.mem_flatMap.mpr ⟨(x.source, x.index), List.mem_zipIdx_iff_getElem?.mpr h.1, ?_⟩
    exact List.mem_map.mpr ⟨x.experiment, (rankBy_perm _ _).mem_iff.mpr h.2, rfl⟩

/-- Whether a row makes the collection raise does not depend on the order of the rows. -/
theorem nothingRaises_rearranged (h : SourcesRearranged dbs dbs')
    (hshared : NoSharedExperiments dbs) (hraises : NothingRaises strOf questionsName needles dbs) :
    NothingRaises strOf questionsName needles dbs' := by
  unfold NothingRaises at hraises ⊢
  rw [unseen_sourceExperiments hshared] at hraises
  rw [unseen_sourceExperiments (noSharedExperiments_rearranged h hshared)]
  obtain ⟨mid, hperm, hsame⟩ := h
  rintro ⟨j, db', e⟩ hx
  obtain ⟨hdb', he⟩ := mem_sourceExperiments_iff.mp hx
  obtain ⟨db, hdb, hrows⟩ := exists_of_mem_forall₂ hsame (List.mem_of_getElem? hdb')
  obtain ⟨i, hi⟩ := List.mem_iff_getElem?.mp (hperm.mem_iff.mpr hdb)
  obtain ⟨htype, hruns⟩ := hraises ⟨i, db, e⟩
    (mem_sourceExperiments_iff.mpr ⟨hi, hrows.experiments.mem_iff.mpr he⟩)
  refine ⟨htype, fun hel run hrun => ?_⟩
  have hrun := hruns hel run ((hrows.readRunRows e.id).symm ▸ hrun)
  unfold raisesOnRun at hrun ⊢
  have hresults : hasResults db e.id run.id = hasResults db' e.id run.id := hrows.results.any_eq
  exact hresults ▸ hrun

/-- Rearranged databases have the same candidates. -/
theorem collect_rearranged (h : SourcesRearranged dbs dbs') (hshared : NoSharedExperiments dbs)
    {exclusions : List Exclusion} {cs : List ExportCandidate}
    (hok : collectCandidates strOf digest questionsName questionsSha needles dbs =
      .ok (exclusions, cs)) :
    ∃ exclusions' cs', collectCandidates strOf digest questionsName questionsSha
        needles dbs' = .ok (exclusions', cs') ∧ (cs.map (·.view)).Perm (cs'.map (·.view)) := by
  have hraises := (exists_collect_iff strOf questionsName needles digest questionsSha
    dbs).mp ⟨_, hok⟩
  obtain ⟨⟨exclusions', cs'⟩, hok'⟩ := (exists_collect_iff strOf questionsName needles digest
    questionsSha dbs').mpr
      (nothingRaises_rearranged strOf questionsName needles h hshared hraises)
  refine ⟨exclusions', cs', hok', ?_⟩
  rw [views_of_collect _ _ _ _ _ hshared hok,
    views_of_collect _ _ _ _ _ (noSharedExperiments_rearranged h hshared) hok']
  exact databaseViews_perm _ _ _ _ _ h

/-- Where no run id is shared, a run id is that of one candidate. -/
theorem eq_of_runId (h : NoSharedRuns dbs) {exclusions : List Exclusion}
    {cs : List ExportCandidate} (hcollected : Collected dbs exclusions cs)
    {c d : ExportCandidate} (hc : c ∈ cs) (hd : d ∈ cs) (heq : c.runId = d.runId) : c = d := by
  obtain ⟨hci, run, hrun, hid⟩ := hcollected.placed c hc
  obtain ⟨hdi, run', hrun', hid'⟩ := hcollected.placed d hd
  have hindex : c.index = d.index :=
    index_of_nodup_flatMap h hci hdi (List.mem_map_of_mem hrun)
      (List.mem_map.mpr ⟨run', hrun', hid'.trans (heq.symm.trans hid.symm)⟩)
  have haccounted := hcollected.accounted c.index c.source hci run hrun
  have hone : cs.countP (ExportCandidate.isAt c.index run.id) ≤ 1 := by
    have hbool := Bool.toNat_le (decide (run.experimentId ∈ c.source.experiments.map (·.id)))
    omega
  exact eq_of_countP_le_one hone hc hd (decide_eq_true ⟨rfl, hid.symm⟩)
    (decide_eq_true ⟨hindex.symm, heq.symm.trans hid.symm⟩)

end Collected

/-! ## The selection of rearranged inputs -/

def SelectedRun.recency (v : SelectedRun) : Lex (Int × String) := v.candidate.recency

/-- A run of the primary store has the group. -/
def SelectedRun.onPrimary (latest : List SelectedRun) (v : SelectedRun) : Bool :=
  latest.any fun w => w.candidate.store = primaryStore ∧ w.candidate.groupId = v.candidate.groupId

theorem slotsOf_perm {cs cs' : List ExportCandidate}
    (h : (cs.map (·.slot)).Perm (cs'.map (·.slot))) : slotsOf cs = slotsOf cs' :=
  rankBy_eq_of_perm _ (firsts_perm h) fun _ _ _ _ heq => toLex_inj.mp heq

/-- Untied candidates are selected whatever order they come in. -/
theorem sameSelection_of_perm {cs cs' : List ExportCandidate} (huntied : Untied cs)
    (h : (cs.map (·.view)).Perm (cs'.map (·.view))) :
    SameSelection (selectCandidates cs) (selectCandidates cs') := by
  have hslots : slotsOf cs = slotsOf cs' := by
    have hperm := h.map (·.slot)
    rw [List.map_map, List.map_map] at hperm
    exact slotsOf_perm hperm
  have hlatest : (latestCandidates cs).map (·.view) = (latestCandidates cs').map (·.view) := by
    have hview : ∀ cs : List ExportCandidate, (latestCandidates cs).map (·.view) =
        leastAt SelectedRun.recency SelectedRun.slot (slotsOf cs) (cs.map (·.view)) := by
      intro cs
      unfold latestCandidates
      exact (leastAt_map SelectedRun.recency SelectedRun.slot (f := ExportCandidate.view)
        (fun _ _ => rfl) (fun _ _ => rfl) _).symm
    rw [hview, hview, hslots]
    refine leastAt_eq_of_perm h (fun v hv w hw hslot hrecency => ?_) _
    obtain ⟨c, hc, rfl⟩ := List.mem_map.mp hv
    obtain ⟨d, hd, rfl⟩ := List.mem_map.mp hw
    exact congrArg _ (huntied c hc d hd hslot hrecency)
  have hprimary : ∀ cs : List ExportCandidate,
      onPrimary cs = fun c => c.view.onPrimary (cs.map (·.view)) := by
    intro cs
    funext c
    rw [SelectedRun.onPrimary, List.any_map]
    rfl
  have hkept : ((latestCandidates cs).filter (onPrimary (latestCandidates cs))).map (·.view) =
      ((latestCandidates cs').filter (onPrimary (latestCandidates cs'))).map (·.view) := by
    rw [hprimary, hprimary, ← hlatest]
    exact filter_of_views hlatest _
  exact List.Perm.of_eq (rankBy_of_views hkept SelectedRun.position)

/-! ## The contract -/

section Contract

variable (strOf : Value → String) (digest : GroupPayload → Option GroupDigest)
  (useQueryAvg : Bool) (defaultDatabase questionsName questionsSha : String)
  (needles : List String) (focus : List (String × Value)) (maxRuns : Int)

/-- The runs exported from some databases come in the advertised order, and the same databases
    in another order, their rows in another order, export them with the same standings. -/
structure ExportedInOrder (dbs : List Source) (runs : List ExportedRun) : Prop where
  inOrder : InAdvertisedOrder useQueryAvg defaultDatabase
    (selectedFrom strOf digest questionsName questionsSha needles dbs) runs
  rearranged : ∀ dbs', SourcesRearranged dbs dbs' → ∃ payload line,
    buildExport strOf digest useQueryAvg defaultDatabase questionsName questionsSha needles
        (.ok focus) (dbs'.map .ok) maxRuns = .ok (payload, line) ∧
      payload.runs.map (·.standing) = runs.map (·.standing)

/-- An export that succeeds is in order. -/
def ExportsInOrder (dbs : List Source) : Prop :=
  match buildExport strOf digest useQueryAvg defaultDatabase questionsName questionsSha needles
      (.ok focus) (dbs.map .ok) maxRuns with
  | .ok (payload, _) => ExportedInOrder strOf digest useQueryAvg defaultDatabase questionsName
      questionsSha needles focus maxRuns dbs payload.runs
  | .error _ => True

/-- Where no two databases share an experiment id or a run id, the exported runs are in the order
    of the fields that the manifest prints. -/
theorem export_order_sound (dbs : List Source) (hexperiments : NoSharedExperiments dbs)
    (hruns : NoSharedRuns dbs) :
    (advertisedOrder useQueryAvg).map FieldOrder.text = manifestFields useQueryAvg ∧
      ExportsInOrder strOf digest useQueryAvg defaultDatabase questionsName questionsSha needles
        focus maxRuns dbs := by
  refine ⟨map_text_advertisedOrder useQueryAvg, ?_⟩
  unfold ExportsInOrder
  split
  · rename_i payload line hok
    obtain ⟨exclusions, cs, hcollect, -, -, hassemble⟩ :=
      assemble_of_buildExport _ _ _ _ _ _ _ _ _ hok
    have hcollected := collected_of_collect hcollect
    have hrankable := rankable_of_assemble strOf useQueryAvg focus dbs _ hcollected.selected
      hassemble
    have hinj : ∀ c ∈ cs, ∀ d ∈ cs, c.runId = d.runId → c = d :=
      fun c hc d hd => eq_of_runId hruns hcollected hc hd
    have hids : ((selectCandidates cs).map (·.runId)).Nodup :=
      List.Nodup.map_on (fun c hc d hd => hinj c (mem_of_mem_selectCandidates hc) d
        (mem_of_mem_selectCandidates hd)) (List.Nodup.of_map _ hrankable.slots)
    have huntied : Untied cs := fun c hc d hd _ hrecency =>
      hinj c hc d hd (congrArg (fun x => (ofLex x).2) hrecency)
    have hfrom : selectedFrom strOf digest questionsName questionsSha needles dbs =
        selectCandidates cs := by
      unfold selectedFrom
      rw [hcollect]
    refine ⟨?_, fun dbs' h => ?_⟩
    · obtain ⟨analysis, hruns⟩ := runs_of_assemble hrankable hassemble
      rw [hfrom, hruns]
      exact inAdvertisedOrder_markedRuns useQueryAvg hrankable hids analysis
    · obtain ⟨exclusions', cs', hcollect', hperm⟩ :=
        collect_rearranged _ _ _ _ _ h hexperiments hcollect
      refine standings_of_sameSelection _ _ _ _ _ _ _ _ _ hok ?_
      unfold selectedFrom
      rw [hcollect, hcollect']
      exact sameSelection_of_perm huntied hperm
  · trivial

end Contract

/-! ## Two databases -/

/-- A database of one run with its hits. -/
def oneRunStore (experimentId runId store : String) (hits : List Value) : Source where
  experiments := [
    { id := experimentId
      doc := [("experiment_id", .str experimentId), ("status", .str "complete"),
        ("queries_file", .str "questions.json")]
      doc_id := rfl }]
  runs := [{ twoStoreRun runId store with experimentId := experimentId }]
  results := [{ twoStoreResult runId hits with experimentId := experimentId }]
  experimentIds := List.nodup_singleton _
  runIds := List.nodup_singleton _

def exportStores (dbs : List Source) : Except ExportFailure (Payload × String) :=
  buildExport (fun v => (textOf v).getD "") (fun _ => some someDigest) true "redis"
    "questions.json" "" [] (.ok []) (dbs.map .ok) 600

def StoresInOrder (dbs : List Source) : Prop :=
  ExportsInOrder (fun v => (textOf v).getD "") (fun _ => some someDigest) true "redis"
    "questions.json" "" [] [] 600 dbs

/-- A run on the primary store with one hit and a run on another with two. -/
theorem export_order_sound_twoDatabases :
    StoresInOrder [oneRunStore "e1" "r1" "redis" [storedHit],
        oneRunStore "e2" "r2" "postgres" [storedHit, storedHit]] ∧
      (exportStores [oneRunStore "e1" "r1" "redis" [storedHit],
        oneRunStore "e2" "r2" "postgres" [storedHit, storedHit]]).toOption.map (fun r =>
          r.1.runs.map fun run => (run.candidate.runId, run.rank, run.storeRank)) =
        some [("r1", 1, 1), ("r2", 2, 1)] :=
  ⟨(export_order_sound (fun v => (textOf v).getD "") (fun _ => some someDigest) true
    "redis" "questions.json" "" [] [] 600 _ (by decide) (by decide)).2, by decide +kernel⟩

/-- Two experiments with a run of one id and one configuration: which of them is exported is
    decided by the order of the databases. -/
theorem shared_run_id_breaks_order :
    NoSharedExperiments [oneRunStore "e1" "r1" "redis" [storedHit],
        oneRunStore "e2" "r1" "redis" [storedHit, storedHit]] ∧
      ¬StoresInOrder [oneRunStore "e1" "r1" "redis" [storedHit],
        oneRunStore "e2" "r1" "redis" [storedHit, storedHit]] := by
  refine ⟨by decide, fun h => ?_⟩
  have hone : (exportStores [oneRunStore "e1" "r1" "redis" [storedHit],
      oneRunStore "e2" "r1" "redis" [storedHit, storedHit]]).toOption.map (fun r =>
        r.1.runs.map (·.entry.resultCount)) = some [1] := by decide +kernel
  have htwo : (exportStores [oneRunStore "e2" "r1" "redis" [storedHit, storedHit],
      oneRunStore "e1" "r1" "redis" [storedHit]]).toOption.map (fun r =>
        r.1.runs.map (·.entry.resultCount)) = some [2] := by decide +kernel
  unfold StoresInOrder ExportsInOrder at h
  unfold exportStores at hone htwo
  split at h
  · rename_i payload line hok
    obtain ⟨payload', line', hok', hsame⟩ := h.rearranged _ ⟨_, List.Perm.swap _ _ _,
      List.forall₂_same.mpr fun db _ => Source.Rearranged.refl db⟩
    rw [hok] at hone
    rw [hok'] at htwo
    have hcounts := congrArg (List.map fun s => s.entry.resultCount) hsame
    rw [List.map_map, List.map_map] at hcounts
    have hcounts : payload'.runs.map (·.entry.resultCount) =
        payload.runs.map (·.entry.resultCount) := hcounts
    have hone : payload.runs.map (·.entry.resultCount) = [1] := Option.some.inj hone
    have htwo : payload'.runs.map (·.entry.resultCount) = [2] := Option.some.inj htwo
    rw [hone, htwo] at hcounts
    cases hcounts
  · rename_i e hok
    rw [hok] at hone
    cases hone

end RagParamsFinder
