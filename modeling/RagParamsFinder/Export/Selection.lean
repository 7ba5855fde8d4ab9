/-
  Which runs the results exporter picks (`scripts/walkthru/export_walkthru_results.py`): the
  experiments and runs of several run-state databases, each kept or recorded as excluded.

  Parameters of which nothing is assumed are `str` of a value and the digest of a group, twelve
  characters, `none` where `list(data_paths)` raises. An exclusion carries the number of the
  database that it is about, which the payload does not print.

  Proved:
  * `collected_of_collect`: every run row of an experiment is recorded, becomes a candidate or
    goes with its experiment, once.
  * `exists_collect_iff`: when reading the rows raises.
  * `selectCandidates_perm`: every candidate is selected or recorded, once.
-/
import Mathlib.Data.List.Infix
import RagParamsFinder.Export.SourceRows

namespace RagParamsFinder

open Documents Grouping Ranking Traversals

def primaryStore : String := "redis"

/-! ## Experiments with their databases -/

/-- An experiment with its database and the number of that. -/
structure SourceExperiment where
  index : Nat
  source : Source
  experiment : ExportExperiment

/-- The experiments of all databases, as `read_source` orders them. -/
def sourceExperiments (dbs : List Source) : List SourceExperiment :=
  dbs.zipIdx.flatMap fun d =>
    (rankBy (·.id) d.1.experiments).map fun e => ⟨d.2, d.1, e⟩

/-! ## Exclusions -/

inductive Scope where
  | experiment
  | run
  deriving DecidableEq

structure Exclusion where
  scope : Scope
  reason : String
  id : String
  db : Nat

def rDuplicateExperiment : String :=
  "duplicate experiment id (an earlier --db already supplied it)"

def rExperimentStatus : String := "experiment status is neither complete nor partial"

def rDataset : String := "dataset differs from --data-path-contains"

def rQuestionsFile : String := "questions file differs from --questions"

def rRunPhase : String := "run phase is not complete"

def rNoStore : String := "no store recorded on the run or in the experiment config"

def rBadConfig : String := "run config is incomplete"

def rNoResults : String := "no results recorded for the run"

def rSuperseded : String := "superseded by a later experiment for the same store and config"

def rNotOnPrimary : String :=
  s!"config not run on the primary store ({primaryStore}) " ++
    "with the same dataset and questions"

/-! ## Experiments -/

/-- `hexdigest()[:12]`. -/
structure GroupDigest where
  text : String
  length : text.length = 12

/-- `Path(path).name`. -/
def fileName (path : String) : String :=
  String.ofList (((path.toList.splitOn '/').filter fun part =>
    part ≠ [] ∧ part ≠ ['.']).getLast?.getD [])

section Selection

variable (strOf : Value → String) (digest : GroupPayload → Option GroupDigest)
  (questionsName questionsSha : String) (needles : List String)

/-- The elements of a value; `none` is `TypeError`. -/
def elementsOf : Value → Option (List Value)
  | .list vs => some vs
  | .str s => some (s.toList.map fun c => .str (String.singleton c))
  | .timeText sep t => some ((strOf (.timeText sep t)).toList.map fun c =>
      .str (String.singleton c))
  | .dict kvs => some (kvs.map fun kv => .str kv.1)
  | _ => none

/-- `_matches_dataset`, for at least one needle. -/
def matchesDataset (experiment : Doc) : Option Bool :=
  (elementsOf strOf (settingOf experiment "data_paths" (.list []))).map fun paths =>
    needles.any fun needle => paths.any fun path =>
      needle.toList <:+: (strOf path).toList

/-- What `_eligible_experiments` decides on an experiment that it has not seen before. -/
def examineExperiment (x : SourceExperiment) :
    Except Raised (Exclusion ⊕ SourceExperiment) :=
  let doc := x.experiment.doc
  let excluded := fun reason =>
    Except.ok (.inl (Exclusion.mk .experiment reason x.experiment.id x.index))
  if ¬eligibleStatuses.any (fun s => (doc.get "status").isStr s) then excluded rExperimentStatus
  else if fileName (strOf (settingOf doc "queries_file" (.str ""))) ≠ questionsName then
    excluded rQuestionsFile
  else if needles = [] then .ok (.inr x)
  else match matchesDataset strOf needles doc with
    | none => .error .typeError
    | some true => .ok (.inr x)
    | some false => excluded rDataset

/-- `_eligible_experiments`, after the ids in `seen`. -/
def eligibleExperiments :
    List String → List SourceExperiment →
      Except Raised (List (Exclusion ⊕ SourceExperiment))
  | _, [] => .ok []
  | seen, x :: xs => do
      if x.experiment.id ∈ seen then
        let rest ← eligibleExperiments seen xs
        return .inl ⟨.experiment, rDuplicateExperiment, x.experiment.id, x.index⟩ :: rest
      else
        let verdict ← examineExperiment strOf questionsName needles x
        let rest ← eligibleExperiments (x.experiment.id :: seen) xs
        return verdict :: rest

/-! ## Candidates -/

/-- A candidate with its experiment's id, its database and the number of that. -/
structure ExportCandidate extends Candidate where
  experimentId : String
  index : Nat
  source : Source

/-- Whether `read_result_counts` counts a result of the run. -/
def hasResults (source : Source) (experimentId runId : String) : Bool :=
  source.results.any fun r => r.experimentId = experimentId ∧ r.runId = runId

/-- The exceptions that `_candidates_for` records. -/
def isRecorded : Raised → Bool
  | .keyError => true
  | .typeError => true
  | .valueError => true
  | .indexError => true
  | .attributeError => false
  | .overflowError => false

/-- `group_id_for`. -/
def digestFor (run experiment : Doc) : Except Raised GroupDigest := do
  let key ← providerLessKey run
  raising .typeError (digest
    { configKey := key
      dataPaths := settingOf experiment "data_paths" (.list [])
      queriesFile := settingOf experiment "queries_file" (.str "")
      questionsSha := questionsSha })

/-- One round of the loop of `_candidates_for`. -/
def examineRun (x : SourceExperiment) (run : ExportRun) :
    Except Raised (Exclusion ⊕ ExportCandidate) :=
  let store := (run.doc.get "database_provider").orElse
    ((configOf x.experiment.doc).get "database_provider")
  let doc := run.doc.set "database_provider" (.str (strOf store))
  let excluded := fun reason => Except.ok (.inl (Exclusion.mk .run reason run.id x.index))
  if ¬(run.doc.get "phase").isStr Phase.complete.value then excluded rRunPhase
  else if ¬store.truthy then excluded rNoStore
  else if ¬hasResults x.source x.experiment.id run.id then excluded rNoResults
  else match digestFor digest questionsSha doc x.experiment.doc with
    | .error e => if isRecorded e then excluded rBadConfig else .error e
    | .ok group => .ok (.inr
        { run := doc
          experiment := x.experiment.doc
          store := strOf store
          groupId := group.text
          stamp := stampOf x.experiment.doc
          runId := run.id
          experimentId := x.experiment.id
          index := x.index
          source := x.source })

/-- `_candidates_for`. -/
def candidatesFor (x : SourceExperiment) :
    Except Raised (List (Exclusion ⊕ ExportCandidate)) := do
  let runs ← x.source.readRuns x.experiment.id
  runs.mapM (examineRun strOf digest questionsSha x)

/-- `collect_candidates`, with the exclusions that it records. -/
def collectCandidates (dbs : List Source) :
    Except Raised (List Exclusion × List ExportCandidate) := do
  let experiments ← eligibleExperiments strOf questionsName needles [] (sourceExperiments dbs)
  let runs ← (experiments.filterMap (·.getRight?)).mapM
    (candidatesFor strOf digest questionsSha)
  return (experiments.filterMap (·.getLeft?) ++ runs.flatten.filterMap (·.getLeft?),
    runs.flatten.filterMap (·.getRight?))

end Selection

/-! ## Selection -/

def ExportCandidate.recency (c : ExportCandidate) : Lex (Int × String) := c.toCandidate.recency

def ExportCandidate.slot (c : ExportCandidate) : String × String := c.toCandidate.slot

def slotsOf (candidates : List ExportCandidate) : List (String × String) :=
  rankBy toLex (firsts (candidates.map (·.slot)))

def latestCandidates (candidates : List ExportCandidate) : List ExportCandidate :=
  leastAt ExportCandidate.recency ExportCandidate.slot (slotsOf candidates) candidates

def supersededCandidates (candidates : List ExportCandidate) : List ExportCandidate :=
  restAt ExportCandidate.recency ExportCandidate.slot (slotsOf candidates) candidates

/-- `primary_groups` has the group of the candidate. -/
def onPrimary (latest : List ExportCandidate) (c : ExportCandidate) : Bool :=
  latest.any fun d => d.store = primaryStore ∧ d.groupId = c.groupId

/-- `select_candidates`. -/
def selectCandidates (candidates : List ExportCandidate) : List ExportCandidate :=
  let latest := latestCandidates candidates
  rankBy (fun c => toLex (c.store, toLex (c.groupId, c.runId))) (latest.filter (onPrimary latest))

/-- The exclusions that `select_candidates` records. -/
def selectionExclusions (candidates : List ExportCandidate) : List Exclusion :=
  let latest := latestCandidates candidates
  (supersededCandidates candidates).map (fun c => ⟨.run, rSuperseded, c.runId, c.index⟩) ++
    (latest.filter fun c => !onPrimary latest c).map
      fun c => ⟨.run, rNotOnPrimary, c.runId, c.index⟩

/-! ## Every experiment and every run that is looked at -/

section Verdicts

variable {strOf : Value → String} {digest : GroupPayload → Option GroupDigest}
  {questionsName questionsSha : String} {needles : List String}

/-- An experiment is recorded as excluded, or kept. -/
def ExperimentVerdict (x : SourceExperiment) (v : Exclusion ⊕ SourceExperiment) : Prop :=
  (∃ reason, v = .inl ⟨.experiment, reason, x.experiment.id, x.index⟩) ∨ v = .inr x

theorem experimentVerdict_of_examine {x : SourceExperiment} {v : Exclusion ⊕ SourceExperiment}
    (h : examineExperiment strOf questionsName needles x = .ok v) : ExperimentVerdict x v := by
  unfold examineExperiment at h
  dsimp only at h
  split at h
  · exact Or.inl ⟨_, (Except.ok.inj h).symm⟩
  · split at h
    · exact Or.inl ⟨_, (Except.ok.inj h).symm⟩
    · split at h
      · exact Or.inr (Except.ok.inj h).symm
      · split at h
        · cases h
        · exact Or.inr (Except.ok.inj h).symm
        · exact Or.inl ⟨_, (Except.ok.inj h).symm⟩

/-- What is decided on the experiments after those in `seen`. -/
structure Examined (seen : List String) (xs : List SourceExperiment)
    (verdicts : List (Exclusion ⊕ SourceExperiment)) : Prop where
  decided : List.Forall₂ ExperimentVerdict xs verdicts
  fresh : ∀ x ∈ verdicts.filterMap (·.getRight?), x ∈ xs ∧ x.experiment.id ∉ seen
  ids : ((verdicts.filterMap (·.getRight?)).map (·.experiment.id)).Nodup

theorem examined_eligibleExperiments {xs : List SourceExperiment} {seen : List String}
    {verdicts : List (Exclusion ⊕ SourceExperiment)}
    (h : eligibleExperiments strOf questionsName needles seen xs = .ok verdicts) :
    Examined seen xs verdicts := by
  induction xs generalizing seen verdicts with
  | nil =>
      obtain rfl := Except.ok.inj h
      exact ⟨.nil, fun _ hx => absurd hx List.not_mem_nil, List.nodup_nil⟩
  | cons x xs ih =>
      unfold eligibleExperiments at h
      split at h
      · obtain ⟨rest, hrest, h⟩ := bind_eq_ok.mp h
        obtain rfl := Except.ok.inj h
        have hr := ih hrest
        exact ⟨.cons (Or.inl ⟨_, rfl⟩) hr.decided,
          fun y hy => ⟨List.mem_cons_of_mem _ (hr.fresh y hy).1, (hr.fresh y hy).2⟩, hr.ids⟩
      · rename_i hnew
        obtain ⟨verdict, hv, h⟩ := bind_eq_ok.mp h
        obtain ⟨rest, hrest, h⟩ := bind_eq_ok.mp h
        obtain rfl := Except.ok.inj h
        have hr := ih hrest
        have hlater : ∀ y ∈ rest.filterMap (·.getRight?),
            y ∈ x :: xs ∧ y.experiment.id ∉ seen := fun y hy =>
          ⟨List.mem_cons_of_mem _ (hr.fresh y hy).1,
            fun hs => (hr.fresh y hy).2 (List.mem_cons_of_mem _ hs)⟩
        have hverdict := experimentVerdict_of_examine hv
        refine ⟨.cons hverdict hr.decided, ?_, ?_⟩
        · rcases hverdict with ⟨reason, rfl⟩ | rfl
          · exact hlater
          · exact List.forall_mem_cons.mpr ⟨⟨List.mem_cons_self .., hnew⟩, hlater⟩
        · rcases hverdict with ⟨reason, rfl⟩ | rfl
          · exact hr.ids
          · refine List.nodup_cons.mpr ⟨fun hmem => ?_, hr.ids⟩
            obtain ⟨y, hy, heq⟩ := List.mem_map.mp hmem
            exact (hr.fresh y hy).2 (heq ▸ List.mem_cons_self ..)

/-- The run of a candidate has a key, and so it has whatever its store is called. -/
structure ExportCandidate.Keyed (c : ExportCandidate) : Prop where
  key : ∃ key, providerLessKey c.run = .ok key
  runId : runIdOf c.run = some c.runId
  experimentId : (c.experiment.item "experiment_id").isSome
  digest : c.groupId.length = 12

/-- The candidate that is made of a run. -/
structure CandidateOf (x : SourceExperiment) (run : ExportRun) (c : ExportCandidate) :
    Prop where
  runId : c.runId = run.id
  experimentId : c.experimentId = x.experiment.id
  index : c.index = x.index
  source : c.source = x.source
  keyed : c.Keyed

/-- A run is recorded as excluded, or becomes a candidate. -/
def RunVerdict (x : SourceExperiment) (run : ExportRun) (v : Exclusion ⊕ ExportCandidate) :
    Prop :=
  (∃ reason, v = .inl ⟨.run, reason, run.id, x.index⟩) ∨
    ∃ c, v = .inr c ∧ CandidateOf x run c

theorem runVerdict_of_examine {x : SourceExperiment} {run : ExportRun}
    {v : Exclusion ⊕ ExportCandidate}
    (h : examineRun strOf digest questionsSha x run = .ok v) : RunVerdict x run v := by
  unfold examineRun at h
  dsimp only at h
  split at h
  · exact Or.inl ⟨_, (Except.ok.inj h).symm⟩
  · split at h
    · exact Or.inl ⟨_, (Except.ok.inj h).symm⟩
    · split at h
      · exact Or.inl ⟨_, (Except.ok.inj h).symm⟩
      · split at h
        · split at h
          · exact Or.inl ⟨_, (Except.ok.inj h).symm⟩
          · cases h
        · rename_i group hgroup
          unfold digestFor at hgroup
          obtain ⟨key, hkey, -⟩ := bind_eq_ok.mp hgroup
          refine Or.inr ⟨_, (Except.ok.inj h).symm, rfl, rfl, rfl, rfl, ⟨key, hkey⟩, ?_,
            x.experiment.doc_id, group.length⟩
          change (run.doc.set "database_provider" (.str _)).item "run_id" >>= textOf = _
          rw [Doc.item_set_of_ne run.doc (by decide)]
          exact run.doc_id

end Verdicts

/-! ## Counting -/

def Exclusion.isAbout (scope : Scope) (i : Nat) (id : String) (e : Exclusion) : Bool :=
  e.scope = scope ∧ e.db = i ∧ e.id = id

def SourceExperiment.isAt (i : Nat) (id : String) (x : SourceExperiment) : Bool :=
  x.index = i ∧ x.experiment.id = id

def ExportCandidate.isAt (i : Nat) (id : String) (c : ExportCandidate) : Bool :=
  c.index = i ∧ c.runId = id

theorem countP_otherScope {es : List Exclusion} {scope scope' : Scope}
    (h : ∀ e ∈ es, e.scope = scope') (hne : scope' ≠ scope) (i : Nat) (id : String) :
    es.countP (Exclusion.isAbout scope i id) = 0 := by
  refine List.countP_eq_zero.mpr fun e he => ?_
  simp [Exclusion.isAbout, h e he, hne]

theorem mem_sourceExperiments {dbs : List Source} {x : SourceExperiment}
    (h : x ∈ sourceExperiments dbs) : dbs[x.index]? = some x.source := by
  obtain ⟨d, hd, hx⟩ := List.mem_flatMap.mp h
  obtain ⟨e, -, rfl⟩ := List.mem_map.mp hx
  exact List.mem_zipIdx_iff_getElem?.mp hd

theorem countP_sourceExperiments {dbs : List Source} {i : Nat} {db : Source}
    (h : dbs[i]? = some db) (id : String) :
    (sourceExperiments dbs).countP (SourceExperiment.isAt i id) =
      (decide (id ∈ db.experiments.map (·.id))).toNat := by
  have hblocks : List.Forall₂
      (fun (d : Source × Nat) ys => ys = (rankBy (·.id) d.1.experiments).map
        fun e => SourceExperiment.mk d.2 d.1 e) dbs.zipIdx
      (dbs.zipIdx.map fun d => (rankBy (·.id) d.1.experiments).map
        fun e => SourceExperiment.mk d.2 d.1 e) :=
    List.forall₂_map_right_iff.mpr (List.forall₂_same.mpr fun _ _ => rfl)
  have hcount := countP_flatten_of_forall₂ (q := fun _ => false)
    (r := fun d => decide (d.2 = i) && decide (id ∈ d.1.experiments.map (·.id)))
    (p := SourceExperiment.isAt i id) hblocks ?_
  · rw [countP_zipIdx h fun db => decide (id ∈ db.experiments.map (·.id))] at hcount
    simp only [List.countP_false, Function.const_apply, Nat.add_zero] at hcount
    exact hcount
  · rintro ⟨source, j⟩ ys rfl
    rw [List.countP_false, Function.const_apply, Nat.add_zero, List.countP_map]
    by_cases hj : j = i
    · rw [decide_eq_true hj, Bool.true_and, ← countP_key ExportExperiment.id source.experimentIds,
        (rankBy_perm _ _).countP_eq]
      exact List.countP_congr fun e _ => by simp [SourceExperiment.isAt, hj]
    · rw [decide_eq_false hj, Bool.false_and, Bool.toNat_false]
      exact List.countP_eq_zero.mpr fun e _ => by simp [SourceExperiment.isAt, hj]

/-- Among the runs of an experiment, a run is there once if it is one of them. -/
theorem countP_readRunRows {source : Source} {run : ExportRun} (h : run ∈ source.runs)
    (experimentId : String) :
    (readRunRows source experimentId).countP (fun r => decide (r.id = run.id)) =
      (decide (experimentId = run.experimentId)).toNat := by
  obtain ⟨r, -, hfilter⟩ := filter_key_singleton (·.id) source.runIds (List.mem_map_of_mem h)
  have hr : run ∈ [r] := hfilter ▸ List.mem_filter.mpr ⟨h, decide_eq_true rfl⟩
  obtain rfl := List.mem_singleton.mp hr
  have hcount : (source.runs.filter (·.experimentId = experimentId)).countP
      (fun r => decide (r.id = run.id)) =
        (source.runs.filter (·.id = run.id)).countP
          fun r => decide (r.experimentId = experimentId) := by
    rw [List.countP_filter, List.countP_filter]
    exact List.countP_congr fun r _ => by rw [Bool.and_comm]
  rw [readRunRows, (rankBy_perm _ _).countP_eq, hcount, hfilter, List.countP_singleton]
  by_cases he : run.experimentId = experimentId
  · simp [he]
  · simp [he, Ne.symm he]

section Collected

variable {strOf : Value → String} {digest : GroupPayload → Option GroupDigest}
  {questionsName questionsSha : String} {needles : List String}

/-- What `collect_candidates` returns. -/
structure Collected (dbs : List Source)
    (exclusions : List Exclusion) (cs : List ExportCandidate) : Prop where
  keyed : ∀ c ∈ cs, c.Keyed
  placed : ∀ c ∈ cs, dbs[c.index]? = some c.source ∧ ∃ run ∈ c.source.runs, run.id = c.runId
  sources : ∀ c ∈ cs, ∀ d ∈ cs, c.experimentId = d.experimentId → c.source = d.source
  accounted : ∀ i db, dbs[i]? = some db → ∀ run ∈ db.runs,
    exclusions.countP (Exclusion.isAbout .run i run.id) +
        exclusions.countP (Exclusion.isAbout .experiment i run.experimentId) +
      cs.countP (ExportCandidate.isAt i run.id) =
        (decide (run.experimentId ∈ db.experiments.map (·.id))).toNat

/-- The verdicts on the runs of an experiment. -/
theorem verdicts_of_candidatesFor {x : SourceExperiment} {ys : List (Exclusion ⊕ ExportCandidate)}
    (h : candidatesFor strOf digest questionsSha x = .ok ys) :
    List.Forall₂ (RunVerdict x) (readRunRows x.source x.experiment.id) ys := by
  obtain ⟨runs, hruns, h⟩ := bind_eq_ok.mp h
  exact eq_of_readRuns hruns ▸ (forall₂_of_mapM h).imp fun _ _ => runVerdict_of_examine

/-- A run of the experiment is recorded or becomes a candidate, once. -/
theorem countP_candidatesFor {x : SourceExperiment} {ys : List (Exclusion ⊕ ExportCandidate)}
    (h : candidatesFor strOf digest questionsSha x = .ok ys) {i : Nat}
    {run : ExportRun} (hrun : x.index = i → run ∈ x.source.runs) :
    ys.countP (Sum.elim (Exclusion.isAbout .run i run.id) fun _ => false) +
        ys.countP (Sum.elim (fun _ => false) (ExportCandidate.isAt i run.id)) =
      (x.isAt i run.experimentId).toNat := by
  have hcount := countP_add_of_forall₂ (verdicts_of_candidatesFor h)
    (p := Sum.elim (Exclusion.isAbout .run i run.id) fun _ => false)
    (q := Sum.elim (fun _ => false) (ExportCandidate.isAt i run.id))
    (r := fun r => decide (x.index = i) && decide (r.id = run.id)) ?_
  · rw [hcount]
    by_cases hi : x.index = i
    · have hone := countP_readRunRows (hrun hi) x.experiment.id
      simp only [hi, decide_true, Bool.true_and, SourceExperiment.isAt, true_and]
      exact hone
    · simp [hi, SourceExperiment.isAt]
  · rintro r v (⟨reason, rfl⟩ | ⟨c, rfl, hc⟩)
    · simp [Exclusion.isAbout]
    · simp [ExportCandidate.isAt, hc.index, hc.runId]

/-- A candidate comes from a run of an experiment. -/
theorem origin_of_candidate {xs : List SourceExperiment}
    {runs : List (List (Exclusion ⊕ ExportCandidate))}
    (h : xs.mapM (candidatesFor strOf digest questionsSha) = .ok runs)
    {c : ExportCandidate} (hc : c ∈ runs.flatten.filterMap (·.getRight?)) :
    ∃ x ∈ xs, ∃ run ∈ readRunRows x.source x.experiment.id,
      CandidateOf x run c := by
  obtain ⟨v, hv, hright⟩ := List.mem_filterMap.mp hc
  obtain ⟨ys, hys, hv⟩ := List.mem_flatten.mp hv
  obtain ⟨x, hx, hcandidates⟩ := exists_of_mem_forall₂ (forall₂_of_mapM h) hys
  obtain ⟨run, hrun, hverdict⟩ := exists_of_mem_forall₂ (verdicts_of_candidatesFor hcandidates) hv
  refine ⟨x, hx, run, hrun, ?_⟩
  rcases hverdict with ⟨reason, rfl⟩ | ⟨d, rfl, hd⟩
  · cases hright
  · obtain rfl := Option.some.inj hright
    exact hd

theorem scope_of_experimentVerdict {xs : List SourceExperiment}
    {verdicts : List (Exclusion ⊕ SourceExperiment)}
    (h : List.Forall₂ ExperimentVerdict xs verdicts) {e : Exclusion}
    (he : e ∈ verdicts.filterMap (·.getLeft?)) : e.scope = .experiment := by
  obtain ⟨v, hv, hleft⟩ := List.mem_filterMap.mp he
  obtain ⟨x, -, hverdict⟩ := exists_of_mem_forall₂ h hv
  rcases hverdict with ⟨reason, rfl⟩ | rfl
  · obtain rfl := Option.some.inj hleft
    rfl
  · cases hleft

theorem scope_of_runVerdict {xs : List SourceExperiment}
    {runs : List (List (Exclusion ⊕ ExportCandidate))}
    (h : xs.mapM (candidatesFor strOf digest questionsSha) = .ok runs)
    {e : Exclusion} (he : e ∈ runs.flatten.filterMap (·.getLeft?)) : e.scope = .run := by
  obtain ⟨v, hv, hleft⟩ := List.mem_filterMap.mp he
  obtain ⟨ys, hys, hv⟩ := List.mem_flatten.mp hv
  obtain ⟨x, hx, hcandidates⟩ := exists_of_mem_forall₂ (forall₂_of_mapM h) hys
  obtain ⟨run, hrun, hverdict⟩ := exists_of_mem_forall₂ (verdicts_of_candidatesFor hcandidates) hv
  rcases hverdict with ⟨reason, rfl⟩ | ⟨c, rfl, -⟩
  · obtain rfl := Option.some.inj hleft
    rfl
  · cases hleft

/-- An experiment is recorded or kept, once. -/
theorem countP_experimentVerdicts {xs : List SourceExperiment}
    {verdicts : List (Exclusion ⊕ SourceExperiment)}
    (h : List.Forall₂ ExperimentVerdict xs verdicts) (i : Nat) (id : String) :
    (verdicts.filterMap (·.getLeft?)).countP (Exclusion.isAbout .experiment i id) +
        (verdicts.filterMap (·.getRight?)).countP (SourceExperiment.isAt i id) =
      xs.countP (SourceExperiment.isAt i id) := by
  rw [countP_getLeft?, countP_getRight?]
  refine countP_add_of_forall₂ h ?_
  rintro x v (⟨reason, rfl⟩ | rfl)
  · simp [Exclusion.isAbout, SourceExperiment.isAt]
  · simp

/-- A run of a kept experiment is recorded or becomes a candidate, once. -/
theorem countP_runVerdicts {dbs : List Source} {kept : List SourceExperiment}
    {runs : List (List (Exclusion ⊕ ExportCandidate))}
    (h : kept.mapM (candidatesFor strOf digest questionsSha) = .ok runs)
    (hsource : ∀ x ∈ kept, dbs[x.index]? = some x.source) {i : Nat} {db : Source}
    (hdb : dbs[i]? = some db) {run : ExportRun} (hrun : run ∈ db.runs) :
    (runs.flatten.filterMap (·.getLeft?)).countP (Exclusion.isAbout .run i run.id) +
        (runs.flatten.filterMap (·.getRight?)).countP (ExportCandidate.isAt i run.id) =
      kept.countP (SourceExperiment.isAt i run.experimentId) := by
  rw [countP_getLeft?, countP_getRight?]
  refine countP_flatten_of_forall₂
    ((List.forall₂_and_left _ _).mpr ⟨hsource, forall₂_of_mapM h⟩) ?_
  rintro x ys ⟨hx, hys⟩
  refine countP_candidatesFor hys fun hi => ?_
  rw [hi, hdb] at hx
  exact Option.some.inj hx ▸ hrun

theorem collected_of_collect {dbs : List Source} {exclusions : List Exclusion}
    {cs : List ExportCandidate}
    (h : collectCandidates strOf digest questionsName questionsSha needles dbs =
      .ok (exclusions, cs)) : Collected dbs exclusions cs := by
  unfold collectCandidates at h
  obtain ⟨experiments, hexperiments, h⟩ := bind_eq_ok.mp h
  obtain ⟨runs, hruns, h⟩ := bind_eq_ok.mp h
  obtain ⟨rfl, rfl⟩ := Prod.mk.inj (Except.ok.inj h)
  have hexamined := examined_eligibleExperiments hexperiments
  have hsource : ∀ x ∈ experiments.filterMap (·.getRight?), dbs[x.index]? = some x.source :=
    fun x hx => mem_sourceExperiments (hexamined.fresh x hx).1
  refine ⟨fun c hc => ?_, fun c hc => ?_, fun c hc d hd heq => ?_,
    fun i db hdb run hrun => ?_⟩
  · obtain ⟨x, -, run, -, hof⟩ := origin_of_candidate hruns hc
    exact hof.keyed
  · obtain ⟨x, hx, run, hrun, hof⟩ := origin_of_candidate hruns hc
    rw [hof.index, hof.source]
    refine ⟨hsource x hx, run, ?_, hof.runId.symm⟩
    exact List.mem_of_mem_filter ((rankBy_perm _ _).mem_iff.mp hrun)
  · obtain ⟨x, hx, run, -, hofc⟩ := origin_of_candidate hruns hc
    obtain ⟨y, hy, run', -, hofd⟩ := origin_of_candidate hruns hd
    have hxy : x = y := List.inj_on_of_nodup_map hexamined.ids hx hy
      (hofc.experimentId.symm.trans (heq.trans hofd.experimentId))
    rw [hofc.source, hofd.source, hxy]
  · have hexperiment := countP_experimentVerdicts hexamined.decided i run.experimentId
    have hcandidate := countP_runVerdicts hruns hsource hdb hrun
    have hnoRun : (experiments.filterMap (·.getLeft?)).countP
        (Exclusion.isAbout .run i run.id) = 0 :=
      countP_otherScope (fun _ he => scope_of_experimentVerdict hexamined.decided he)
        (by decide) _ _
    have hnoExperiment : (runs.flatten.filterMap (·.getLeft?)).countP
        (Exclusion.isAbout .experiment i run.experimentId) = 0 :=
      countP_otherScope (fun _ he => scope_of_runVerdict hruns he) (by decide) _ _
    rw [countP_sourceExperiments hdb] at hexperiment
    rw [List.countP_append, List.countP_append, hnoRun, hnoExperiment]
    omega

end Collected

/-! ## What raises -/

section Raises

variable (strOf : Value → String) (questionsName : String) (needles : List String)

/-- The status and the questions file let the experiment through. -/
def passesToDataset (x : SourceExperiment) : Bool :=
  eligibleStatuses.any (fun s => (x.experiment.doc.get "status").isStr s) &&
    fileName (strOf (settingOf x.experiment.doc "queries_file" (.str ""))) = questionsName

/-- The data paths are looked at and cannot be iterated. -/
def raisesTypeError (x : SourceExperiment) : Bool :=
  passesToDataset strOf questionsName x && !needles.isEmpty &&
    (matchesDataset strOf needles x.experiment.doc).isNone

def isEligible (x : SourceExperiment) : Bool :=
  passesToDataset strOf questionsName x &&
    (needles.isEmpty || matchesDataset strOf needles x.experiment.doc == some true)

/-- The key of the run raises an exception that is not recorded. -/
def raisesKey (run : Doc) : Bool :=
  match providerLessKey run with
  | .error e => !isRecorded e
  | .ok _ => false

/-- The key of the run is looked at and raises. -/
def raisesOnRun (x : SourceExperiment) (run : ExportRun) : Bool :=
  (run.doc.get "phase").isStr Phase.complete.value &&
    ((run.doc.get "database_provider").orElse
      ((configOf x.experiment.doc).get "database_provider")).truthy &&
    hasResults x.source x.experiment.id run.id && raisesKey run.doc

/-- The experiments whose id is not in `seen` and not that of an earlier one. -/
def unseen : List String → List SourceExperiment → List SourceExperiment
  | _, [] => []
  | seen, x :: xs =>
      if x.experiment.id ∈ seen then unseen seen xs else x :: unseen (x.experiment.id :: seen) xs

/-- No row of the databases makes the collection raise. -/
def NothingRaises (dbs : List Source) : Prop :=
  ∀ x ∈ unseen [] (sourceExperiments dbs), raisesTypeError strOf questionsName needles x = false ∧
    (isEligible strOf questionsName needles x →
      ∀ run ∈ readRunRows x.source x.experiment.id,
        run.decode.isOk = true ∧ raisesOnRun x run = false)

variable (digest : GroupPayload → Option GroupDigest) (questionsSha : String)

/-- What is decided on an experiment, by whether it raises and whether it is eligible. -/
theorem examineExperiment_cases (x : SourceExperiment) :
    (raisesTypeError strOf questionsName needles x = true ∧
        examineExperiment strOf questionsName needles x = .error .typeError) ∨
      (raisesTypeError strOf questionsName needles x = false ∧
        ∃ v, examineExperiment strOf questionsName needles x = .ok v ∧
          v.getRight? = if isEligible strOf questionsName needles x then some x else none) := by
  unfold raisesTypeError isEligible passesToDataset examineExperiment
  dsimp only
  by_cases hstatus : eligibleStatuses.any fun s => (x.experiment.doc.get "status").isStr s
  · by_cases hfile :
        fileName (strOf (settingOf x.experiment.doc "queries_file" (.str ""))) = questionsName
    · cases needles with
      | nil => simp [hstatus, hfile]
      | cons needle needles =>
          cases hmatch : matchesDataset strOf (needle :: needles) x.experiment.doc with
          | none => simp [hstatus, hfile]
          | some found => cases found <;> simp [hstatus, hfile]
    · simp [hstatus, hfile]
  · simp [hstatus]

/-- The digest of a group raises what is recorded, or what the key does. -/
theorem digestFor_cases (run experiment : Doc) :
    (raisesKey run = true ∧
        ∃ e, digestFor digest questionsSha run experiment = .error e ∧ isRecorded e = false) ∨
      (raisesKey run = false ∧ ((∃ group, digestFor digest questionsSha run experiment =
          .ok group) ∨
        ∃ e, digestFor digest questionsSha run experiment = .error e ∧ isRecorded e = true)) := by
  unfold raisesKey digestFor
  cases providerLessKey run with
  | error e =>
      cases he : isRecorded e with
      | false => exact Or.inl ⟨by simp [he], e, rfl, he⟩
      | true => exact Or.inr ⟨by simp [he], Or.inr ⟨e, rfl, he⟩⟩
  | ok key =>
      refine Or.inr ⟨rfl, ?_⟩
      change (∃ group, raising .typeError (digest _) = .ok group) ∨
        ∃ e, raising .typeError (digest _) = .error e ∧ _
      cases digest _ with
      | none => exact Or.inr ⟨.typeError, rfl, rfl⟩
      | some group => exact Or.inl ⟨group, rfl⟩

theorem exists_examineRun_iff {x : SourceExperiment} {run : ExportRun} :
    (∃ v, examineRun strOf digest questionsSha x run = .ok v) ↔ raisesOnRun x run = false := by
  unfold examineRun raisesOnRun
  dsimp only
  by_cases hphase : (run.doc.get "phase").isStr Phase.complete.value
  · by_cases hstore : ((run.doc.get "database_provider").orElse
        ((configOf x.experiment.doc).get "database_provider")).truthy
    · by_cases hresults : hasResults x.source x.experiment.id run.id
      · simp only [hphase, hstore, hresults, not_true_eq_false, if_false, Bool.true_and]
        have hset : raisesKey (run.doc.set "database_provider" (.str (strOf
            ((run.doc.get "database_provider").orElse
              ((configOf x.experiment.doc).get "database_provider"))))) = raisesKey run.doc := by
          unfold raisesKey
          rw [providerLessKey_set]
        rw [← hset]
        rcases digestFor_cases digest questionsSha (run.doc.set "database_provider" (.str (strOf
            ((run.doc.get "database_provider").orElse
              ((configOf x.experiment.doc).get "database_provider"))))) x.experiment.doc with
          ⟨hraises, e, he, hrecorded⟩ | ⟨hnone, ⟨group, hgroup⟩ | ⟨e, he, hrecorded⟩⟩
        · rw [he, hraises]
          simp [hrecorded]
        · rw [hgroup, hnone]
          simp
        · rw [he, hnone]
          simp [hrecorded]
      · simp [hphase, hstore, hresults]
    · simp [hphase, hstore]
  · simp [hphase]

theorem exists_candidatesFor_iff {x : SourceExperiment} :
    (∃ ys, candidatesFor strOf digest questionsSha x = .ok ys) ↔
      ∀ run ∈ readRunRows x.source x.experiment.id,
        run.decode.isOk = true ∧ raisesOnRun x run = false := by
  have hdecode : ∀ run : ExportRun, (∃ r, run.decode = .ok r) ↔ run.decode.isOk = true := by
    intro run
    cases run.decode with
    | error e => simp [Except.isOk, Except.toBool]
    | ok r => simp [Except.isOk, Except.toBool]
  unfold candidatesFor
  constructor
  · rintro ⟨ys, h⟩ run hrun
    obtain ⟨runs, hruns, h⟩ := bind_eq_ok.mp h
    refine ⟨(hdecode run).mp (exists_mapM_iff.mp ⟨runs, hruns⟩ run hrun), ?_⟩
    exact (exists_examineRun_iff strOf digest questionsSha).mp
      (exists_mapM_iff.mp ⟨ys, h⟩ run (eq_of_readRuns hruns ▸ hrun))
  · intro h
    obtain ⟨runs, hruns⟩ := exists_mapM_iff.mpr fun run hrun => (hdecode run).mpr (h run hrun).1
    obtain ⟨ys, hys⟩ := exists_mapM_iff.mpr fun run hrun =>
      (exists_examineRun_iff strOf digest questionsSha).mpr (h run hrun).2
    exact ⟨ys, bind_eq_ok.mpr ⟨runs, hruns, eq_of_readRuns hruns ▸ hys⟩⟩

/-- What is decided on a list of experiments. -/
theorem eligibleExperiments_cases (xs : List SourceExperiment) (seen : List String) :
    ((∃ x ∈ unseen seen xs, raisesTypeError strOf questionsName needles x = true) ∧
        ∃ e, eligibleExperiments strOf questionsName needles seen xs = .error e) ∨
      ((∀ x ∈ unseen seen xs, raisesTypeError strOf questionsName needles x = false) ∧
        ∃ verdicts, eligibleExperiments strOf questionsName needles seen xs = .ok verdicts ∧
          verdicts.filterMap (·.getRight?) =
            (unseen seen xs).filter (isEligible strOf questionsName needles)) := by
  induction xs generalizing seen with
  | nil => exact Or.inr ⟨fun _ hx => absurd hx List.not_mem_nil, [], rfl, rfl⟩
  | cons x xs ih =>
      unfold eligibleExperiments unseen
      split
      · rcases ih seen with ⟨hraise, e, he⟩ | ⟨hnone, verdicts, hv, hkept⟩
        · exact Or.inl ⟨hraise, e, by rw [he]; rfl⟩
        · exact Or.inr ⟨hnone, .inl _ :: verdicts, by rw [hv]; rfl, hkept⟩
      · rcases examineExperiment_cases strOf questionsName needles x with
          ⟨hraise, he⟩ | ⟨hnone, v, hv, hright⟩
        · exact Or.inl ⟨⟨x, List.mem_cons_self .., hraise⟩, _, by rw [he]; rfl⟩
        · rw [hv]
          rcases ih (x.experiment.id :: seen) with
            ⟨⟨y, hy, hraise⟩, e, he⟩ | ⟨hrest, vs, hvs, hkept⟩
          · exact Or.inl ⟨⟨y, List.mem_cons_of_mem _ hy, hraise⟩, e, by rw [he]; rfl⟩
          · refine Or.inr ⟨List.forall_mem_cons.mpr ⟨hnone, hrest⟩, v :: vs, by rw [hvs]; rfl, ?_⟩
            rw [List.filterMap_cons, hright, List.filter_cons, hkept]
            cases isEligible strOf questionsName needles x <;> rfl

/-- When the collection does not raise. -/
theorem exists_collect_iff (dbs : List Source) :
    (∃ r, collectCandidates strOf digest questionsName questionsSha needles dbs =
      .ok r) ↔ NothingRaises strOf questionsName needles dbs := by
  have hruns := fun x : SourceExperiment =>
    exists_candidatesFor_iff strOf digest questionsSha (x := x)
  unfold collectCandidates
  rcases eligibleExperiments_cases strOf questionsName needles (sourceExperiments dbs) [] with
    ⟨⟨x, hx, hraise⟩, e, he⟩ | ⟨hnone, verdicts, hv, hkept⟩
  · rw [he]
    constructor
    · rintro ⟨r, h⟩
      cases h
    · intro h
      exact absurd hraise (by rw [(h x hx).1]; decide)
  · rw [hv]
    constructor
    · rintro ⟨r, h⟩ x hx
      obtain ⟨_, hok, h⟩ := bind_eq_ok.mp h
      obtain rfl := Except.ok.inj hok
      obtain ⟨runs, hmap, -⟩ := bind_eq_ok.mp h
      refine ⟨hnone x hx, fun hel => (hruns x).mp (exists_mapM_iff.mp ⟨runs, hmap⟩ x ?_)⟩
      rw [hkept]
      exact List.mem_filter.mpr ⟨hx, hel⟩
    · intro h
      have hall : ∀ x ∈ verdicts.filterMap (·.getRight?),
          ∃ ys, candidatesFor strOf digest questionsSha x = .ok ys := by
        intro x hx
        rw [hkept] at hx
        obtain ⟨hx, hel⟩ := List.mem_filter.mp hx
        exact (hruns x).mpr ((h x hx).2 hel)
      obtain ⟨runs, hmap⟩ := exists_mapM_iff.mpr hall
      exact ⟨_, bind_eq_ok.mpr ⟨_, rfl, bind_eq_ok.mpr ⟨runs, hmap, rfl⟩⟩⟩

end Raises

/-! ## Every candidate -/

theorem nodup_slotsOf (cs : List ExportCandidate) : (slotsOf cs).Nodup :=
  (rankBy_perm _ _).nodup_iff.mpr (nodup_firsts _)

theorem mem_slotsOf {cs : List ExportCandidate} {s : String × String} :
    s ∈ slotsOf cs ↔ s ∈ cs.map (·.slot) := by
  rw [slotsOf, (rankBy_perm _ _).mem_iff, mem_firsts]

theorem latest_append_superseded_perm (cs : List ExportCandidate) :
    (latestCandidates cs ++ supersededCandidates cs).Perm cs := by
  refine (leastAt_append_restAt_perm (nodup_slotsOf cs) cs).trans (List.Perm.of_eq ?_)
  refine List.filter_eq_self.mpr fun c hc => ?_
  have hslot : c.slot ∈ slotsOf cs := mem_slotsOf.mpr (List.mem_map_of_mem hc)
  simpa using hslot

/-- Every candidate is selected or recorded, once. -/
theorem selectCandidates_perm (cs : List ExportCandidate) :
    (selectCandidates cs ++ ((latestCandidates cs).filter fun c =>
      !onPrimary (latestCandidates cs) c) ++ supersededCandidates cs).Perm cs := by
  refine List.Perm.trans ?_ (latest_append_superseded_perm cs)
  refine List.Perm.append_right _ ?_
  refine ((rankBy_perm _ _).append_right _).trans ?_
  exact List.filter_append_perm _ _

theorem countP_selectionExclusions (cs : List ExportCandidate) (i : Nat) (id : String) :
    (selectionExclusions cs).countP (Exclusion.isAbout .run i id) +
        (selectCandidates cs).countP (ExportCandidate.isAt i id) =
      cs.countP (ExportCandidate.isAt i id) := by
  have hrecorded : ∀ (reason : String) (ds : List ExportCandidate),
      (ds.map fun c => Exclusion.mk .run reason c.runId c.index).countP
          (Exclusion.isAbout .run i id) = ds.countP (ExportCandidate.isAt i id) := by
    intro reason ds
    rw [List.countP_map]
    exact List.countP_congr fun c _ => by simp [Exclusion.isAbout, ExportCandidate.isAt]
  have hperm := (selectCandidates_perm cs).countP_eq (ExportCandidate.isAt i id)
  rw [List.countP_append, List.countP_append] at hperm
  unfold selectionExclusions
  dsimp only
  rw [List.countP_append, hrecorded, hrecorded]
  omega

theorem countP_experiment_selectionExclusions (cs : List ExportCandidate) (i : Nat)
    (id : String) : (selectionExclusions cs).countP (Exclusion.isAbout .experiment i id) = 0 := by
  have hscope : ∀ e ∈ selectionExclusions cs, e.scope = .run := by
    intro e he
    rcases List.mem_append.mp he with he | he
    · obtain ⟨c, -, rfl⟩ := List.mem_map.mp he
      rfl
    · obtain ⟨c, -, rfl⟩ := List.mem_map.mp he
      rfl
  exact countP_otherScope hscope (by decide) _ _

/-- The selected candidates are in different slots. -/
theorem nodup_slots_selectCandidates (cs : List ExportCandidate) :
    ((selectCandidates cs).map (·.slot)).Nodup := by
  refine ((rankBy_perm _ _).map _).nodup_iff.mpr ?_
  have hlatest : ((latestCandidates cs).map (·.slot)).Nodup := by
    unfold latestCandidates
    rw [map_key_leastAt _ _ fun k hk => mem_slotsOf.mp hk]
    exact nodup_slotsOf cs
  exact hlatest.sublist (List.filter_sublist.map _)

theorem mem_of_mem_selectCandidates {cs : List ExportCandidate} {c : ExportCandidate}
    (h : c ∈ selectCandidates cs) : c ∈ cs :=
  (selectCandidates_perm cs).subset
    (List.mem_append_left _ (List.mem_append_left _ h))

end RagParamsFinder
