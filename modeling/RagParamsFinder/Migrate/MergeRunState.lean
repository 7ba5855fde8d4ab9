/-
  The merge of two run-state files (`scripts/migrate/merge_run_state_dbs.py`): whole
  experiments of the volume file move into a copy of the host file.

  A file carries its primary keys. Rows of `results` leave out the surrogate `result_id`.
  Both files have the expected schema, so `assert_schema_parity` passes. `hash` stands for
  the digest of an experiment's rows. An insert that fails is `none`: the transaction
  rolls back and the call raises.

  Proved: `moveExperiments_spec`: a move that commits appends the rows of the moved
  experiments. `moveExperiments_succeed`: a move commits when the experiments and their run
  ids are new.
-/
import RagParamsFinder.Lib.Grouping
import Mathlib.Data.List.Infix

namespace RagParamsFinder

open Grouping

/-! ## Run-state files -/

structure ExperimentRow where
  experimentId : String
  experimentName : String
  status : String
  createdAt : Option String
  startedAt : Option String
  completedAt : Option String
  vectorStoreSnapshot : Option String
  doc : String
deriving DecidableEq

structure RunStatusRow where
  runId : String
  experimentId : String
  phase : String
  createdAt : Option String
  updatedAt : Option String
  embeddingDimensions : Option Int
  doc : String
deriving DecidableEq

structure ResultRow where
  experimentId : String
  runId : String
  queryId : String
  queryText : String
  doc : String
deriving DecidableEq

/-- A run-state database file, with its primary keys. -/
@[ext]
structure RunStateFile where
  experiments : List ExperimentRow
  runStatus : List RunStatusRow
  results : List ResultRow
  experimentKey : (experiments.map (·.experimentId)).Nodup
  runKey : (runStatus.map (·.runId)).Nodup

namespace RunStateFile

/-- `_experiment_ids`, before its `ORDER BY`. -/
def ids (f : RunStateFile) : List String := f.experiments.map (·.experimentId)

/-- `SELECT … FROM run_status WHERE experiment_id = ?`. -/
def runsOf (f : RunStateFile) (eid : String) : List RunStatusRow :=
  f.runStatus.filter (·.experimentId = eid)

/-- `SELECT … FROM results WHERE experiment_id = ?`. -/
def resultsOf (f : RunStateFile) (eid : String) : List ResultRow :=
  f.results.filter (·.experimentId = eid)

/-- `_experiment_ids`. -/
def experimentIds (f : RunStateFile) : List String := f.ids.insertionSort (· ≤ ·)

/-- What `assert_no_running` raises on. -/
def hasRunning (f : RunStateFile) : Bool := f.experiments.any (·.status = "running")

end RunStateFile

/-- `_child_counts`. -/
structure ChildCounts where
  runStatus : Nat
  results : Nat
deriving DecidableEq

def childCounts (f : RunStateFile) (eid : String) : ChildCounts where
  runStatus := (f.runsOf eid).length
  results := (f.resultsOf eid).length

/-! ## Digests -/

/-- The order `run_id, query_id, query_text, doc`. -/
def resultOrder (a b : ResultRow) : Bool :=
  a.runId < b.runId || a.runId == b.runId &&
    (a.queryId < b.queryId || a.queryId == b.queryId &&
      (a.queryText < b.queryText || a.queryText == b.queryText && a.doc ≤ b.doc))

/-- The rows that a digest reads, in their order. -/
structure ExperimentContent where
  experiment : Option ExperimentRow
  runs : List RunStatusRow
  results : List ResultRow
deriving DecidableEq

def experimentContent (f : RunStateFile) (eid : String) : ExperimentContent where
  experiment := f.experiments.find? (·.experimentId = eid)
  runs := (f.runsOf eid).insertionSort (·.runId ≤ ·.runId)
  results := (f.resultsOf eid).insertionSort (resultOrder · ·)

section Merge

variable {δ : Type} [DecidableEq δ] (hash : ExperimentContent → δ)

/-- `experiment_content_digest`. -/
def experimentContentDigest (f : RunStateFile) (eid : String) : δ :=
  hash (experimentContent f eid)

/-! ## Planning and moving -/

/-- A turn of `_plan_moves`; `none` on a collision with differing content. -/
def planTurn (base volume : RunStateFile) (plan : List String × List String) (eid : String) :
    Option (List String × List String) :=
  if eid ∉ base.ids then some (plan.1 ++ [eid], plan.2)
  else if experimentContentDigest hash base eid = experimentContentDigest hash volume eid then
    some (plan.1, plan.2 ++ [eid])
  else none

/-- `_plan_moves`: the experiments to move and to skip. -/
def planMoves (base volume : RunStateFile) : Option (List String × List String) :=
  volume.experimentIds.foldlM (planTurn hash base volume) ([], [])

end Merge

namespace RunStateFile

/-- `INSERT INTO experiments`. -/
def insertExperiment (f : RunStateFile) (row : ExperimentRow) : Option RunStateFile :=
  if h : row.experimentId ∈ f.experiments.map (·.experimentId) then none
  else some { f with
    experiments := f.experiments ++ [row]
    experimentKey := by
      rw [List.map_append, List.map_singleton]
      exact List.nodup_append_comm.mp (List.nodup_cons.mpr ⟨h, f.experimentKey⟩) }

/-- `INSERT INTO run_status`, with `foreign_keys=ON`. -/
def insertRunStatus (f : RunStateFile) (row : RunStatusRow) : Option RunStateFile :=
  if h : row.runId ∈ f.runStatus.map (·.runId) then none
  else if row.experimentId ∈ f.ids then
    some { f with
      runStatus := f.runStatus ++ [row]
      runKey := by
        rw [List.map_append, List.map_singleton]
        exact List.nodup_append_comm.mp (List.nodup_cons.mpr ⟨h, f.runKey⟩) }
  else none

/-- `INSERT INTO results`, with `foreign_keys=ON`. -/
def insertResult (f : RunStateFile) (row : ResultRow) : Option RunStateFile :=
  if row.experimentId ∈ f.ids then some { f with results := f.results ++ [row] } else none

end RunStateFile

/-- A turn of `_move_experiments`. -/
def moveExperiment (volume merged : RunStateFile) (eid : String) : Option RunStateFile := do
  let merged ← (volume.experiments.filter (·.experimentId = eid)).foldlM
    RunStateFile.insertExperiment merged
  let merged ← (volume.runsOf eid).foldlM RunStateFile.insertRunStatus merged
  (volume.resultsOf eid).foldlM RunStateFile.insertResult merged

/-- `_move_experiments`; `none` is `ROLLBACK` and raise. -/
def moveExperiments (merged volume : RunStateFile) (toMove : List String) :
    Option RunStateFile :=
  toMove.foldlM (moveExperiment volume) merged

/-! ## The merge -/

/-- `is_excluded_source`. -/
def isExcludedSource (name : String) : Bool :=
  ".merged.db".toList.isSuffixOf name.toList ||
    decide ("_backup".toList <:+: name.toList)

structure MergeReport where
  dryRun : Bool
  mergedPath : String
  hostExperiments : List String
  moved : List String
  skipped : List String
  totalExperiments : Nat
  perExperimentCounts : List (String × ChildCounts)

/-- What a call returns (`none` if it raises), and what it leaves at the merged path (`none`
    if it writes nothing there). -/
structure MergeOutcome where
  report : Option MergeReport
  merged : Option RunStateFile

def countsOf (f : RunStateFile) (eids : List String) : List (String × ChildCounts) :=
  eids.map fun eid => (eid, childCounts f eid)

/-- The report of a dry run. -/
def dryRunReport (host volume : RunStateFile) (mergedPath : String)
    (toMove toSkip : List String) : MergeReport where
  dryRun := true
  mergedPath := mergedPath
  hostExperiments := host.experimentIds
  moved := toMove
  skipped := toSkip
  totalExperiments := host.experimentIds.length + toMove.length
  perExperimentCounts := countsOf host host.experimentIds ++ countsOf volume toMove

/-- The report of a merge that executed. -/
def executedReport (host merged : RunStateFile) (mergedPath : String)
    (toMove toSkip : List String) : MergeReport where
  dryRun := false
  mergedPath := mergedPath
  hostExperiments := host.experimentIds
  moved := toMove
  skipped := toSkip
  totalExperiments := merged.experiments.length
  perExperimentCounts := countsOf merged merged.experimentIds

section Merge

variable {δ : Type} [DecidableEq δ] (hash : ExperimentContent → δ)

/-- The branch of `merge_run_state` for a dry run. -/
def mergeDryRun (host volume : RunStateFile) (mergedPath : String) : Option MergeReport :=
  if host.hasRunning || volume.hasRunning then none
  else (planMoves hash host volume).map fun plan =>
    dryRunReport host volume mergedPath plan.1 plan.2

/-- The branch of `merge_run_state` that executes: the merged file is a copy of the host. -/
def mergeExecute (host volume : RunStateFile) (mergedPath : String) : MergeOutcome :=
  if host.hasRunning || volume.hasRunning then ⟨none, some host⟩
  else match planMoves hash host volume with
    | none => ⟨none, some host⟩
    | some (toMove, toSkip) =>
        match moveExperiments host volume toMove with
        | none => ⟨none, some host⟩
        | some merged =>
            ⟨some (executedReport host merged mergedPath toMove toSkip), some merged⟩

/-- `merge_run_state`. -/
def mergeRunState (hostName : String) (host : RunStateFile) (volumeName : String)
    (volume : RunStateFile) (mergedPath : String) (dryRun : Bool) : MergeOutcome :=
  if isExcludedSource hostName || isExcludedSource volumeName then ⟨none, none⟩
  else if dryRun then ⟨mergeDryRun hash host volume mergedPath, none⟩
  else mergeExecute hash host volume mergedPath

end Merge

/-! ## What an insert appends -/

/-- `f'` is `f` with these rows appended. -/
structure Appends (f f' : RunStateFile) (experiments : List ExperimentRow)
    (runs : List RunStatusRow) (results : List ResultRow) : Prop where
  experiments : f'.experiments = f.experiments ++ experiments
  runStatus : f'.runStatus = f.runStatus ++ runs
  results : f'.results = f.results ++ results

theorem Appends.refl (f : RunStateFile) : Appends f f [] [] [] :=
  ⟨(List.append_nil _).symm, (List.append_nil _).symm, (List.append_nil _).symm⟩

theorem Appends.trans {f g h : RunStateFile} {es es' : List ExperimentRow}
    {rs rs' : List RunStatusRow} {ss ss' : List ResultRow} (hfg : Appends f g es rs ss)
    (hgh : Appends g h es' rs' ss') : Appends f h (es ++ es') (rs ++ rs') (ss ++ ss') :=
  ⟨by rw [hgh.experiments, hfg.experiments, List.append_assoc],
    by rw [hgh.runStatus, hfg.runStatus, List.append_assoc],
    by rw [hgh.results, hfg.results, List.append_assoc]⟩

theorem Appends.ids {f f' : RunStateFile} {es : List ExperimentRow} {rs : List RunStatusRow}
    {ss : List ResultRow} (h : Appends f f' es rs ss) :
    f'.ids = f.ids ++ es.map (·.experimentId) := by
  unfold RunStateFile.ids
  rw [h.experiments, List.map_append]

section Insert

open RunStateFile

variable {f f' : RunStateFile}

theorem insertExperiment_spec {row : ExperimentRow} (h : f.insertExperiment row = some f') :
    Appends f f' [row] [] [] := by
  unfold insertExperiment at h
  split at h
  · cases h
  · obtain rfl := Option.some.inj h
    exact ⟨rfl, (List.append_nil _).symm, (List.append_nil _).symm⟩

theorem insertRunStatus_spec {row : RunStatusRow} (h : f.insertRunStatus row = some f') :
    Appends f f' [] [row] [] := by
  unfold insertRunStatus at h
  split at h
  · cases h
  · split at h
    · obtain rfl := Option.some.inj h
      exact ⟨(List.append_nil _).symm, rfl, (List.append_nil _).symm⟩
    · cases h

theorem insertResult_spec {row : ResultRow} (h : f.insertResult row = some f') :
    Appends f f' [] [] [row] := by
  unfold insertResult at h
  split at h
  · obtain rfl := Option.some.inj h
    exact ⟨(List.append_nil _).symm, (List.append_nil _).symm, rfl⟩
  · cases h

/-- Inserts one after the other append what each appends. -/
theorem foldlM_appends {α : Type} {insert : RunStateFile → α → Option RunStateFile}
    (es : α → List ExperimentRow) (rs : α → List RunStatusRow) (ss : α → List ResultRow)
    (hinsert : ∀ f f' a, insert f a = some f' → Appends f f' (es a) (rs a) (ss a))
    {as : List α} (h : as.foldlM insert f = some f') :
    Appends f f' (as.flatMap es) (as.flatMap rs) (as.flatMap ss) := by
  induction as generalizing f with
  | nil =>
      obtain rfl := Option.some.inj h
      exact .refl f
  | cons a as ih =>
      rw [List.foldlM_cons, Option.bind_eq_bind, Option.bind_eq_some_iff] at h
      obtain ⟨g, hg, hrest⟩ := h
      exact (hinsert f g a hg).trans (ih hrest)

end Insert

theorem moveExperiment_spec {volume f f' : RunStateFile} {eid : String}
    (h : moveExperiment volume f eid = some f') :
    Appends f f' (volume.experiments.filter (·.experimentId = eid)) (volume.runsOf eid)
      (volume.resultsOf eid) := by
  unfold moveExperiment at h
  simp only [Option.bind_eq_bind, Option.bind_eq_some_iff] at h
  obtain ⟨g₁, h₁, g₂, h₂, h₃⟩ := h
  have hexperiments := foldlM_appends (fun row => [row]) (fun _ => []) (fun _ => [])
    (fun _ _ _ => insertExperiment_spec) h₁
  have hruns := foldlM_appends (fun _ => []) (fun row => [row]) (fun _ => [])
    (fun _ _ _ => insertRunStatus_spec) h₂
  have hresults := foldlM_appends (fun _ => []) (fun _ => []) (fun row => [row])
    (fun _ _ _ => insertResult_spec) h₃
  have hnil : ∀ {α β : Type} (l : List α), l.flatMap (fun _ => ([] : List β)) = [] :=
    fun l => List.flatMap_eq_nil_iff.mpr fun _ _ => rfl
  simpa [hnil] using (hexperiments.trans hruns).trans hresults

/-- A move that commits appends the rows of each moved experiment. -/
theorem moveExperiments_spec {volume f f' : RunStateFile} {toMove : List String}
    (h : moveExperiments f volume toMove = some f') :
    Appends f f' (groups (·.experimentId) volume.experiments toMove)
      (groups (·.experimentId) volume.runStatus toMove)
      (groups (·.experimentId) volume.results toMove) :=
  foldlM_appends (fun eid => volume.experiments.filter (·.experimentId = eid)) volume.runsOf
    volume.resultsOf (fun _ _ _ => moveExperiment_spec) h

/-! ## When the inserts go through -/

section Success

open RunStateFile

theorem insertRuns_succeed {f : RunStateFile} {rows : List RunStatusRow}
    (hn : (rows.map (·.runId)).Nodup) (hfresh : ∀ r ∈ rows, r.runId ∉ f.runStatus.map (·.runId))
    (hparent : ∀ r ∈ rows, r.experimentId ∈ f.ids) :
    (rows.foldlM insertRunStatus f).isSome = true := by
  induction rows generalizing f with
  | nil => rfl
  | cons row rows ih =>
      obtain ⟨hrow, hn⟩ := List.nodup_cons.mp hn
      have hinsert : ∃ g, f.insertRunStatus row = some g := by
        unfold insertRunStatus
        rw [dif_neg (hfresh row (List.mem_cons_self ..)),
          if_pos (hparent row (List.mem_cons_self ..))]
        exact ⟨_, rfl⟩
      obtain ⟨g, hg⟩ := hinsert
      have happends := insertRunStatus_spec hg
      rw [List.foldlM_cons, hg]
      refine ih hn (fun r hr hm => ?_) fun r hr => ?_
      · rw [happends.runStatus, List.map_append, List.mem_append, List.map_singleton,
          List.mem_singleton] at hm
        rcases hm with hm | hm
        · exact hfresh r (List.mem_cons_of_mem _ hr) hm
        · exact hrow (List.mem_map.mpr ⟨r, hr, hm⟩)
      · rw [happends.ids, List.map_nil, List.append_nil]
        exact hparent r (List.mem_cons_of_mem _ hr)

theorem insertResults_succeed {f : RunStateFile} {rows : List ResultRow}
    (hparent : ∀ r ∈ rows, r.experimentId ∈ f.ids) :
    (rows.foldlM insertResult f).isSome = true := by
  induction rows generalizing f with
  | nil => rfl
  | cons row rows ih =>
      have hinsert : ∃ g, f.insertResult row = some g := by
        unfold insertResult
        rw [if_pos (hparent row (List.mem_cons_self ..))]
        exact ⟨_, rfl⟩
      obtain ⟨g, hg⟩ := hinsert
      rw [List.foldlM_cons, hg]
      refine ih fun r hr => ?_
      rw [(insertResult_spec hg).ids, List.map_nil, List.append_nil]
      exact hparent r (List.mem_cons_of_mem _ hr)

theorem mem_runsOf {f : RunStateFile} {eid : String} {r : RunStatusRow} :
    r ∈ f.runsOf eid ↔ r ∈ f.runStatus ∧ r.experimentId = eid := by
  rw [RunStateFile.runsOf, List.mem_filter, decide_eq_true_iff]

/-- An experiment moves when it is new and so are its run ids. -/
theorem moveExperiment_succeeds {volume f : RunStateFile} {eid : String} (hnew : eid ∉ f.ids)
    (hvolume : eid ∈ volume.ids)
    (hruns : ∀ r ∈ volume.runsOf eid, r.runId ∉ f.runStatus.map (·.runId)) :
    (moveExperiment volume f eid).isSome = true := by
  obtain ⟨row, hid, hrow⟩ := filter_key_singleton ExperimentRow.experimentId
    volume.experimentKey hvolume
  have hinsert : ∃ g, f.insertExperiment row = some g := by
    unfold insertExperiment
    rw [dif_neg (hid ▸ hnew)]
    exact ⟨_, rfl⟩
  obtain ⟨g, hg⟩ := hinsert
  have happends := insertExperiment_spec hg
  have hparent : eid ∈ g.ids := by
    rw [happends.ids, List.map_singleton, hid]
    exact List.mem_append_right _ (List.mem_singleton_self eid)
  have hexperiments : (volume.experiments.filter (·.experimentId = eid)).foldlM
      insertExperiment f = some g := by
    rw [hrow, List.foldlM_cons, hg]
    rfl
  have hrunRows : ((volume.runsOf eid).foldlM insertRunStatus g).isSome = true := by
    refine insertRuns_succeed (volume.runKey.sublist (List.filter_sublist.map _))
      (fun r hr hm => ?_) fun r hr => (mem_runsOf.mp hr).2.symm ▸ hparent
    rw [happends.runStatus, List.append_nil] at hm
    exact hruns r hr hm
  obtain ⟨g', hg'⟩ := Option.isSome_iff_exists.mp hrunRows
  have hparent' : eid ∈ g'.ids := by
    have hruns' := foldlM_appends (fun _ => []) (fun row => [row]) (fun _ => [])
      (fun _ _ _ => insertRunStatus_spec) hg'
    rw [hruns'.ids]
    exact List.mem_append_left _ hparent
  unfold moveExperiment
  rw [hexperiments, Option.bind_eq_bind, Option.bind_some, hg']
  refine insertResults_succeed fun r hr => ?_
  have hr' := of_decide_eq_true (List.mem_filter.mp hr).2
  exact hr' ▸ hparent'

/-- New experiments with new run ids all move. -/
theorem moveExperiments_succeed {volume f : RunStateFile} {toMove : List String}
    (hn : toMove.Nodup) (hnew : ∀ eid ∈ toMove, eid ∉ f.ids)
    (hvolume : ∀ eid ∈ toMove, eid ∈ volume.ids)
    (hruns : ∀ eid ∈ toMove, ∀ r ∈ volume.runsOf eid, r.runId ∉ f.runStatus.map (·.runId)) :
    (moveExperiments f volume toMove).isSome = true := by
  unfold moveExperiments
  induction toMove generalizing f with
  | nil => rfl
  | cons eid toMove ih =>
      obtain ⟨hfresh, hn⟩ := List.nodup_cons.mp hn
      have hmem : ∀ {k}, k ∈ toMove → k ∈ eid :: toMove := fun hk => List.mem_cons_of_mem _ hk
      obtain ⟨g, hg⟩ := Option.isSome_iff_exists.mp (moveExperiment_succeeds
        (hnew eid (List.mem_cons_self ..)) (hvolume eid (List.mem_cons_self ..))
        (hruns eid (List.mem_cons_self ..)))
      have happends := moveExperiment_spec hg
      rw [List.foldlM_cons, hg]
      refine ih hn (fun k hk hm => ?_) (fun k hk => hvolume k (hmem hk))
        fun k hk r hr hm => ?_
      · rw [happends.ids, List.mem_append, List.mem_map] at hm
        rcases hm with hm | ⟨row, hrow, rfl⟩
        · exact hnew k (hmem hk) hm
        · have heid := of_decide_eq_true (List.mem_filter.mp hrow).2
          exact hfresh (heid ▸ hk)
      · rw [happends.runStatus, List.map_append, List.mem_append, List.mem_map (b := r.runId)
          (l := volume.runsOf eid)] at hm
        rcases hm with hm | ⟨r', hr', hid⟩
        · exact hruns k (hmem hk) r hr hm
        · obtain ⟨hr, hk'⟩ := mem_runsOf.mp hr
          obtain ⟨hr', heid⟩ := mem_runsOf.mp hr'
          obtain rfl := List.inj_on_of_nodup_map volume.runKey hr' hr hid
          exact hfresh (heid ▸ hk' ▸ hk)

end Success

end RagParamsFinder
