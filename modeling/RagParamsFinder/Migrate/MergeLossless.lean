/-
  What the merge of two run-state files keeps.

  A stray row of the host is a run-status or result row of a volume experiment that the host
  does not have: SQLite checks foreign keys per connection, and the migration of run state
  writes without the check.

  Proved: `merge_lossless`. A merge that returns leaves the host's rows and, of every volume
  experiment that the host lacks, its rows; a merge that raises leaves the host's rows;
  merging again moves nothing; without stray rows a dry run reports what the merge does.
  With stray rows the reports differ (`stray_row_counts_differ`).
-/
import RagParamsFinder.Migrate.MergeRunState

namespace RagParamsFinder

open Grouping

/-! ## The plan -/

/-- The volume experiments that the base lacks, and those it has. -/
def absentIds (base volume : RunStateFile) : List String :=
  volume.experimentIds.filter (· ∉ base.ids)

def sharedIds (base volume : RunStateFile) : List String :=
  volume.experimentIds.filter (· ∈ base.ids)

theorem mem_experimentIds {f : RunStateFile} {eid : String} :
    eid ∈ f.experimentIds ↔ eid ∈ f.ids :=
  (List.perm_insertionSort _ f.ids).mem_iff

theorem nodup_experimentIds (f : RunStateFile) : f.experimentIds.Nodup :=
  (List.perm_insertionSort _ f.ids).nodup_iff.mpr f.experimentKey

theorem mem_absentIds {base volume : RunStateFile} {eid : String} :
    eid ∈ absentIds base volume ↔ eid ∈ volume.ids ∧ eid ∉ base.ids := by
  rw [absentIds, List.mem_filter, mem_experimentIds, decide_eq_true_iff]

theorem nodup_absentIds (base volume : RunStateFile) : (absentIds base volume).Nodup :=
  (nodup_experimentIds volume).filter _

section Plan

variable {δ : Type} [DecidableEq δ] (hash : ExperimentContent → δ)

/-- The experiments in both files have the same digest. -/
def DigestsAgree (base volume : RunStateFile) : Prop :=
  ∀ eid ∈ volume.ids, eid ∈ base.ids →
    experimentContentDigest hash base eid = experimentContentDigest hash volume eid

theorem foldlM_planTurn (base volume : RunStateFile) (eids : List String)
    (plan plan' : List String × List String) :
    eids.foldlM (planTurn hash base volume) plan = some plan' ↔
      (∀ eid ∈ eids, eid ∈ base.ids →
        experimentContentDigest hash base eid = experimentContentDigest hash volume eid) ∧
      plan' = (plan.1 ++ eids.filter (· ∉ base.ids), plan.2 ++ eids.filter (· ∈ base.ids)) := by
  induction eids generalizing plan with
  | nil => simp [eq_comm]
  | cons eid eids ih =>
      rw [List.foldlM_cons, List.forall_mem_cons]
      by_cases hbase : eid ∈ base.ids
      · by_cases hdigest :
          experimentContentDigest hash base eid = experimentContentDigest hash volume eid
        · have hturn : planTurn hash base volume plan eid =
              some (plan.1, plan.2 ++ [eid]) := by
            simp [planTurn, hbase, hdigest]
          rw [hturn, Option.bind_eq_bind, Option.bind_some, ih]
          simp [hbase, hdigest]
        · have hturn : planTurn hash base volume plan eid = none := by
            simp [planTurn, hbase, hdigest]
          rw [hturn]
          simp [hbase, hdigest]
      · have hturn : planTurn hash base volume plan eid = some (plan.1 ++ [eid], plan.2) := by
          simp [planTurn, hbase]
        rw [hturn, Option.bind_eq_bind, Option.bind_some, ih]
        simp [hbase]

/-- The plan: move what the base lacks and skip what it has, if the digests agree. -/
theorem planMoves_eq_some_iff {base volume : RunStateFile} {plan : List String × List String} :
    planMoves hash base volume = some plan ↔
      DigestsAgree hash base volume ∧ plan = (absentIds base volume, sharedIds base volume) := by
  unfold planMoves
  rw [foldlM_planTurn]
  simp only [mem_experimentIds, List.nil_append]
  rfl

end Plan

/-! ## The moved file -/

section Moved

variable {host volume merged : RunStateFile}

theorem runsOf_moved {toMove : List String} (hn : toMove.Nodup)
    (h : moveExperiments host volume toMove = some merged) (eid : String) :
    merged.runsOf eid =
      host.runsOf eid ++ if eid ∈ toMove then volume.runsOf eid else [] := by
  unfold RunStateFile.runsOf
  rw [(moveExperiments_spec h).runStatus, List.filter_append, filter_groups _ _ hn]

theorem resultsOf_moved {toMove : List String} (hn : toMove.Nodup)
    (h : moveExperiments host volume toMove = some merged) (eid : String) :
    merged.resultsOf eid =
      host.resultsOf eid ++ if eid ∈ toMove then volume.resultsOf eid else [] := by
  unfold RunStateFile.resultsOf
  rw [(moveExperiments_spec h).results, List.filter_append, filter_groups _ _ hn]

theorem experiment_moved {toMove : List String} (hn : toMove.Nodup)
    (h : moveExperiments host volume toMove = some merged) (eid : String) :
    merged.experiments.filter (·.experimentId = eid) =
      host.experiments.filter (·.experimentId = eid) ++
        if eid ∈ toMove then volume.experiments.filter (·.experimentId = eid) else [] := by
  rw [(moveExperiments_spec h).experiments, List.filter_append, filter_groups _ _ hn]

theorem ids_moved (h : moveExperiments host volume (absentIds host volume) = some merged)
    {eid : String} : eid ∈ merged.ids ↔ eid ∈ host.ids ∨ eid ∈ absentIds host volume := by
  rw [(moveExperiments_spec h).ids, List.mem_append]
  refine or_congr_right ?_
  simp only [List.mem_map, mem_groups]
  constructor
  · rintro ⟨row, ⟨-, hrow⟩, rfl⟩
    exact hrow
  · intro heid
    obtain ⟨row, hrow, rfl⟩ := List.mem_map.mp (mem_absentIds.mp heid).1
    exact ⟨row, ⟨hrow, heid⟩, rfl⟩

/-- The rows of the merged file. -/
structure IsUnion (host volume merged : RunStateFile) : Prop where
  experiments : merged.experiments.Perm (host.experiments ++
    volume.experiments.filter (·.experimentId ∉ host.ids))
  runStatus : merged.runStatus.Perm (host.runStatus ++
    volume.runStatus.filter fun r => r.experimentId ∈ volume.ids ∧ r.experimentId ∉ host.ids)
  results : merged.results.Perm (host.results ++
    volume.results.filter fun r => r.experimentId ∈ volume.ids ∧ r.experimentId ∉ host.ids)

theorem isUnion_of_moved
    (h : moveExperiments host volume (absentIds host volume) = some merged) :
    IsUnion host volume merged := by
  have hspec := moveExperiments_spec h
  have hn := nodup_absentIds host volume
  refine ⟨?_, ?_, ?_⟩
  · rw [hspec.experiments]
    refine ((groups_perm _ _ hn).trans (List.Perm.of_eq ?_)).append_left _
    refine List.filter_congr fun row hrow => ?_
    have hid : row.experimentId ∈ volume.ids := List.mem_map.mpr ⟨row, hrow, rfl⟩
    simp [mem_absentIds, hid]
  · rw [hspec.runStatus]
    refine ((groups_perm _ _ hn).trans (List.Perm.of_eq ?_)).append_left _
    exact List.filter_congr fun r _ => by simp [mem_absentIds]
  · rw [hspec.results]
    refine ((groups_perm _ _ hn).trans (List.Perm.of_eq ?_)).append_left _
    exact List.filter_congr fun r _ => by simp [mem_absentIds]

/-- A move adds one row for each moved experiment. -/
theorem length_moved (h : moveExperiments host volume (absentIds host volume) = some merged) :
    merged.experiments.length = host.experimentIds.length + (absentIds host volume).length := by
  have hperm := (isUnion_of_moved h).experiments.length_eq
  have habsent : (absentIds host volume).length =
      (volume.experiments.filter (·.experimentId ∉ host.ids)).length := by
    have hsorted := ((List.perm_insertionSort (· ≤ ·) volume.ids).filter
      (· ∉ host.ids)).length_eq
    have hids : volume.ids = volume.experiments.map (·.experimentId) := rfl
    rw [absentIds, RunStateFile.experimentIds, hsorted, hids, List.filter_map,
      List.length_map]
    rfl
  have hhost : host.experimentIds.length = host.experiments.length := by
    unfold RunStateFile.experimentIds RunStateFile.ids
    rw [List.length_insertionSort, List.length_map]
  rw [hperm, List.length_append, habsent, hhost]

end Moved

/-! ## Outcomes -/

/-- No row of the host belongs to a volume experiment that the host does not have. -/
structure NoStrayRows (host volume : RunStateFile) : Prop where
  runStatus : ∀ eid ∈ absentIds host volume, host.runsOf eid = []
  results : ∀ eid ∈ absentIds host volume, host.resultsOf eid = []

/-- No run id is shared between different experiments. -/
def RunIdsApart (host volume : RunStateFile) : Prop :=
  ∀ r ∈ host.runStatus, ∀ r' ∈ volume.runStatus, r.runId = r'.runId →
    r.experimentId = r'.experimentId

/-- The same rows in both files, `result_id` and the order aside. -/
structure SameContent (host volume : RunStateFile) (eid : String) : Prop where
  experiment : host.experiments.filter (·.experimentId = eid) =
    volume.experiments.filter (·.experimentId = eid)
  runs : (host.runsOf eid).Perm (volume.runsOf eid)
  results : (host.resultsOf eid).Perm (volume.resultsOf eid)

/-- The reports name the same experiments, totals and counts. -/
structure SameReport (dry real : MergeReport) : Prop where
  moved : dry.moved = real.moved
  skipped : dry.skipped = real.skipped
  hostExperiments : dry.hostExperiments = real.hostExperiments
  total : dry.totalExperiments = real.totalExperiments
  counts : ∀ eid, dry.perExperimentCounts.lookup eid = real.perExperimentCounts.lookup eid

theorem find_experiment {f : RunStateFile} {eid : String} (h : eid ∈ f.ids) :
    ∃ row, f.experiments.find? (·.experimentId = eid) = some row ∧
      f.experiments.filter (·.experimentId = eid) = [row] := by
  obtain ⟨row, -, hrow⟩ := filter_key_singleton ExperimentRow.experimentId f.experimentKey h
  refine ⟨row, ?_, hrow⟩
  rw [← List.head?_filter, hrow]
  rfl

/-- Equal contents are the same rows. -/
theorem sameContent_of_content {host volume : RunStateFile} {eid : String}
    (hhost : eid ∈ host.ids) (hvolume : eid ∈ volume.ids)
    (h : experimentContent host eid = experimentContent volume eid) :
    SameContent host volume eid := by
  obtain ⟨hexperiment, hruns, hresults⟩ := ExperimentContent.mk.inj h
  obtain ⟨row, hfind, hrow⟩ := find_experiment hhost
  obtain ⟨row', hfind', hrow'⟩ := find_experiment hvolume
  have heq : row = row' := by
    rw [hfind, hfind'] at hexperiment
    exact Option.some.inj hexperiment
  refine ⟨by rw [hrow, hrow', heq], ?_, ?_⟩
  · exact (List.perm_insertionSort _ _).symm.trans
      (hruns ▸ List.perm_insertionSort _ (volume.runsOf eid))
  · exact (List.perm_insertionSort _ _).symm.trans
      (hresults ▸ List.perm_insertionSort _ (volume.resultsOf eid))

theorem content_congr {f g : RunStateFile} {eid : String}
    (hexperiment : f.experiments.filter (·.experimentId = eid) =
      g.experiments.filter (·.experimentId = eid))
    (hruns : f.runsOf eid = g.runsOf eid) (hresults : f.resultsOf eid = g.resultsOf eid) :
    experimentContent f eid = experimentContent g eid := by
  unfold experimentContent
  rw [← List.head?_filter, ← List.head?_filter, hexperiment, hruns, hresults]

section Outcome

variable {δ : Type} [DecidableEq δ] {hash : ExperimentContent → δ}
  {host volume merged : RunStateFile}

/-- A merge that executes raises with the host's rows, or commits the planned moves. -/
theorem mergeExecute_cases (hash : ExperimentContent → δ) (host volume : RunStateFile)
    (path : String) :
    (mergeExecute hash host volume path = ⟨none, some host⟩ ∧
      (host.hasRunning || volume.hasRunning) = true) ∨
    (mergeExecute hash host volume path = ⟨none, some host⟩ ∧
      ¬ DigestsAgree hash host volume) ∨
    (mergeExecute hash host volume path = ⟨none, some host⟩ ∧
      moveExperiments host volume (absentIds host volume) = none) ∨
    (host.hasRunning || volume.hasRunning) = false ∧ DigestsAgree hash host volume ∧
      ∃ merged, moveExperiments host volume (absentIds host volume) = some merged ∧
        mergeExecute hash host volume path =
          ⟨some (executedReport host merged path (absentIds host volume)
            (sharedIds host volume)), some merged⟩ := by
  unfold mergeExecute
  cases hrunning : host.hasRunning || volume.hasRunning with
  | true => exact Or.inl ⟨rfl, rfl⟩
  | false =>
      right
      simp only [Bool.false_eq_true, if_false]
      cases hplan : planMoves hash host volume with
      | none =>
          left
          refine ⟨rfl, fun hagree => ?_⟩
          have hsome := (planMoves_eq_some_iff hash).mpr ⟨hagree, rfl⟩
          rw [hplan] at hsome
          cases hsome
      | some plan =>
          obtain ⟨hagree, rfl⟩ := (planMoves_eq_some_iff hash).mp hplan
          right
          cases hmove : moveExperiments host volume (absentIds host volume) with
          | none => exact Or.inl ⟨by simp [hmove], rfl⟩
          | some merged => exact Or.inr ⟨trivial, hagree, merged, rfl, by simp [hmove]⟩

omit [DecidableEq δ] in
/-- The digests of the merged file and the volume agree on what was moved, and on what was
    skipped. -/
theorem digestsAgree_moved (hagree : DigestsAgree hash host volume)
    (hstray : NoStrayRows host volume)
    (h : moveExperiments host volume (absentIds host volume) = some merged) :
    DigestsAgree hash merged volume := by
  have hn := nodup_absentIds host volume
  intro eid hvolume _
  unfold experimentContentDigest
  by_cases hhost : eid ∈ host.ids
  · have hnot : eid ∉ absentIds host volume := fun hm => (mem_absentIds.mp hm).2 hhost
    have hsame : experimentContent merged eid = experimentContent host eid := by
      refine content_congr ?_ ?_ ?_
      · rw [experiment_moved hn h, if_neg hnot, List.append_nil]
      · rw [runsOf_moved hn h, if_neg hnot, List.append_nil]
      · rw [resultsOf_moved hn h, if_neg hnot, List.append_nil]
    rw [hsame]
    exact hagree eid hvolume hhost
  · have hmoved : eid ∈ absentIds host volume := mem_absentIds.mpr ⟨hvolume, hhost⟩
    have hnone : host.experiments.filter (·.experimentId = eid) = [] := by
      refine List.filter_eq_nil_iff.mpr fun row hrow hid => hhost ?_
      exact List.mem_map.mpr ⟨row, hrow, of_decide_eq_true hid⟩
    have hsame : experimentContent merged eid = experimentContent volume eid := by
      refine content_congr ?_ ?_ ?_
      · rw [experiment_moved hn h, if_pos hmoved, hnone, List.nil_append]
      · rw [runsOf_moved hn h, if_pos hmoved, hstray.runStatus eid hmoved, List.nil_append]
      · rw [resultsOf_moved hn h, if_pos hmoved, hstray.results eid hmoved, List.nil_append]
    rw [hsame]

theorem absentIds_moved
    (h : moveExperiments host volume (absentIds host volume) = some merged) :
    absentIds merged volume = [] := by
  refine List.filter_eq_nil_iff.mpr fun eid heid hnot => ?_
  have hvolume := mem_experimentIds.mp heid
  refine of_decide_eq_true hnot ((ids_moved h).mpr ?_)
  by_cases hhost : eid ∈ host.ids
  · exact Or.inl hhost
  · exact Or.inr (mem_absentIds.mpr ⟨hvolume, hhost⟩)

theorem hasRunning_moved (hrunning : (host.hasRunning || volume.hasRunning) = false)
    (h : moveExperiments host volume (absentIds host volume) = some merged) :
    (merged.hasRunning || volume.hasRunning) = false := by
  obtain ⟨hhost, hvolume⟩ := Bool.or_eq_false_iff.mp hrunning
  refine Bool.or_eq_false_iff.mpr ⟨?_, hvolume⟩
  refine List.any_eq_false.mpr fun row hrow => ?_
  rw [(moveExperiments_spec h).experiments, List.mem_append, mem_groups] at hrow
  rcases hrow with hrow | ⟨hrow, -⟩
  · exact List.any_eq_false.mp hhost row hrow
  · exact List.any_eq_false.mp hvolume row hrow

/-- With run ids apart and no stray rows, the inserts go through. -/
theorem moveExperiments_of_apart (hapart : RunIdsApart host volume)
    (hstray : NoStrayRows host volume) :
    (moveExperiments host volume (absentIds host volume)).isSome = true := by
  refine moveExperiments_succeed (nodup_absentIds host volume)
    (fun eid heid => (mem_absentIds.mp heid).2) (fun eid heid => (mem_absentIds.mp heid).1)
    fun eid heid r' hr' hm => ?_
  obtain ⟨hr', hid'⟩ := mem_runsOf.mp hr'
  obtain ⟨r, hr, hid⟩ := List.mem_map.mp hm
  have heq := hapart r hr r' hr' hid
  have hstrayed : r ∈ host.runsOf eid := mem_runsOf.mpr ⟨hr, heq.trans hid'⟩
  rw [hstray.runStatus eid heid] at hstrayed
  cases hstrayed

theorem lookup_countsOf (f : RunStateFile) (eids : List String) (eid : String) :
    (countsOf f eids).lookup eid = if eid ∈ eids then some (childCounts f eid) else none := by
  induction eids with
  | nil => rfl
  | cons e eids ih =>
      change List.lookup eid ((e, childCounts f e) :: countsOf f eids) = _
      by_cases he : eid = e
      · subst he
        simp
      · have hb : (eid == e) = false := by simpa using he
        rw [List.lookup_cons, hb, ih]
        simp [he]

/-- Without stray rows, both reports count the same rows. -/
theorem counts_agree (hstray : NoStrayRows host volume)
    (h : moveExperiments host volume (absentIds host volume) = some merged) (eid : String) :
    (countsOf host host.experimentIds ++
        countsOf volume (absentIds host volume)).lookup eid =
      (countsOf merged merged.experimentIds).lookup eid := by
  have hn := nodup_absentIds host volume
  rw [List.lookup_append, lookup_countsOf, lookup_countsOf, lookup_countsOf]
  simp only [mem_experimentIds, ids_moved h]
  by_cases hhost : eid ∈ host.ids
  · have hnot : eid ∉ absentIds host volume := fun hm => (mem_absentIds.mp hm).2 hhost
    have hcounts : childCounts merged eid = childCounts host eid := by
      unfold childCounts
      rw [runsOf_moved hn h, resultsOf_moved hn h, if_neg hnot, if_neg hnot, List.append_nil,
        List.append_nil]
    simp [hhost, hcounts]
  · by_cases hmoved : eid ∈ absentIds host volume
    · have hcounts : childCounts merged eid = childCounts volume eid := by
        unfold childCounts
        rw [runsOf_moved hn h, resultsOf_moved hn h, if_pos hmoved, if_pos hmoved,
          hstray.runStatus eid hmoved, hstray.results eid hmoved, List.nil_append,
          List.nil_append]
      simp [hhost, hmoved, hcounts]
    · simp [hhost, hmoved]

end Outcome

/-! ## The merge -/

section Lossless

variable {δ : Type} [DecidableEq δ]

/-- What a merge of these files keeps. -/
structure MergeLossless (hash : ExperimentContent → δ) (hostName : String)
    (host : RunStateFile) (volumeName : String) (volume : RunStateFile) (path : String) :
    Prop where
  /-- A merge that returns leaves the union of the rows. -/
  union : ∀ report merged,
    mergeRunState hash hostName host volumeName volume path false =
      ⟨some report, some merged⟩ → IsUnion host volume merged
  /-- An experiment in both files with differing content makes it raise. -/
  collision : ∀ eid ∈ host.ids, eid ∈ volume.ids → ¬ SameContent host volume eid →
    (mergeRunState hash hostName host volumeName volume path false).report = none
  /-- So does an insert that fails. -/
  failedInsert : moveExperiments host volume (absentIds host volume) = none →
    (mergeRunState hash hostName host volumeName volume path false).report = none
  /-- A merge that raises leaves the host's rows. -/
  rollback : (mergeRunState hash hostName host volumeName volume path false).report = none →
    ∀ merged, (mergeRunState hash hostName host volumeName volume path false).merged =
      some merged → merged = host
  /-- Merging again moves nothing, and returns when there are no stray rows. -/
  again : ∀ report merged name path',
    mergeRunState hash hostName host volumeName volume path false =
      ⟨some report, some merged⟩ →
    (∀ file, (mergeRunState hash name merged volumeName volume path' false).merged =
      some file → file = merged) ∧
    (∀ report', (mergeRunState hash name merged volumeName volume path' false).report =
      some report' → report'.moved = []) ∧
    (NoStrayRows host volume → isExcludedSource name = false →
      (mergeRunState hash name merged volumeName volume path' false).report.isSome = true)
  /-- Without stray rows, a dry run reports what the merge does. -/
  dryRun : NoStrayRows host volume →
    Option.Rel SameReport (mergeRunState hash hostName host volumeName volume path true).report
      (mergeRunState hash hostName host volumeName volume path false).report

variable {hash : ExperimentContent → δ} {host volume merged : RunStateFile}

theorem mergeExecute_returns {path : String} {report : MergeReport}
    (h : mergeExecute hash host volume path = ⟨some report, some merged⟩) :
    (host.hasRunning || volume.hasRunning) = false ∧ DigestsAgree hash host volume ∧
      moveExperiments host volume (absentIds host volume) = some merged ∧
      report = executedReport host merged path (absentIds host volume)
        (sharedIds host volume) := by
  rcases mergeExecute_cases hash host volume path with
    ⟨he, -⟩ | ⟨he, -⟩ | ⟨he, -⟩ | ⟨hrunning, hagree, merged', hmove, he⟩
  · rw [he] at h
    cases h
  · rw [he] at h
    cases h
  · rw [he] at h
    cases h
  · rw [he] at h
    obtain ⟨hreport, hmerged⟩ := MergeOutcome.mk.inj h
    obtain rfl := Option.some.inj hmerged
    exact ⟨hrunning, hagree, hmove, (Option.some.inj hreport).symm⟩

theorem mergeExecute_rollback {path : String}
    (h : (mergeExecute hash host volume path).report = none) :
    mergeExecute hash host volume path = ⟨none, some host⟩ := by
  rcases mergeExecute_cases hash host volume path with
    ⟨he, -⟩ | ⟨he, -⟩ | ⟨he, -⟩ | ⟨-, -, merged', -, he⟩
  · exact he
  · exact he
  · exact he
  · rw [he] at h
    cases h

/-- Merging the volume into the merged file leaves the file, and moves nothing. -/
theorem mergeExecute_again {path : String} {report : MergeReport}
    (h : mergeExecute hash host volume path = ⟨some report, some merged⟩) (path' : String) :
    (mergeExecute hash merged volume path').merged = some merged ∧
      (∀ report', (mergeExecute hash merged volume path').report = some report' →
        report'.moved = []) ∧
      (NoStrayRows host volume → (mergeExecute hash merged volume path').report.isSome) := by
  obtain ⟨hrunning, hagree, hmove, -⟩ := mergeExecute_returns h
  have habsent := absentIds_moved hmove
  have hnothing : moveExperiments merged volume (absentIds merged volume) = some merged := by
    rw [habsent]
    rfl
  rcases mergeExecute_cases hash merged volume path' with
    ⟨he, hrun⟩ | ⟨he, hdigests⟩ | ⟨he, hnone⟩ | ⟨-, -, merged', hmove', he⟩
  · rw [hasRunning_moved hrunning hmove] at hrun
    cases hrun
  · rw [he]
    exact ⟨rfl, nofun, fun hstray => absurd (digestsAgree_moved hagree hstray hmove) hdigests⟩
  · rw [hnothing] at hnone
    cases hnone
  · rw [hnothing] at hmove'
    obtain rfl := Option.some.inj hmove'
    rw [he]
    refine ⟨rfl, fun report' hreport => ?_, fun _ => rfl⟩
    rw [← Option.some.inj hreport]
    exact habsent

/-- With run ids apart and no stray rows, both kinds of run report the same. -/
theorem mergeDryRun_agrees (hapart : RunIdsApart host volume) (hstray : NoStrayRows host volume)
    (path : String) :
    Option.Rel SameReport (mergeDryRun hash host volume path)
      (mergeExecute hash host volume path).report := by
  obtain ⟨moved, hmoved⟩ := Option.isSome_iff_exists.mp (moveExperiments_of_apart hapart hstray)
  unfold mergeDryRun
  rcases mergeExecute_cases hash host volume path with
    ⟨he, hrunning⟩ | ⟨he, hdigests⟩ | ⟨he, hnone⟩ | ⟨hrunning, hagree, merged, hmove, he⟩
  · rw [he, if_pos hrunning]
    exact Option.Rel.none
  · have hplan : planMoves hash host volume = none := by
      refine Option.eq_none_iff_forall_ne_some.mpr fun plan hplan => hdigests ?_
      exact ((planMoves_eq_some_iff hash).mp hplan).1
    rw [he, hplan]
    split <;> exact Option.Rel.none
  · rw [hmoved] at hnone
    cases hnone
  · have hplan := (planMoves_eq_some_iff hash).mpr ⟨hagree, rfl⟩
    rw [he, hplan, if_neg (by rw [hrunning]; exact Bool.false_ne_true)]
    refine Option.Rel.some ⟨rfl, rfl, rfl, (length_moved hmove).symm, fun eid => ?_⟩
    exact counts_agree hstray hmove eid

theorem mergeExecute_collision (hinj : Function.Injective hash) {eid : String}
    (hhost : eid ∈ host.ids) (hvolume : eid ∈ volume.ids)
    (hdiffers : ¬ SameContent host volume eid) (path : String) :
    (mergeExecute hash host volume path).report = none := by
  rcases mergeExecute_cases hash host volume path with
    ⟨he, -⟩ | ⟨he, -⟩ | ⟨he, -⟩ | ⟨-, hagree, -, -, -⟩
  · rw [he]
  · rw [he]
  · rw [he]
  · have hcontent := hinj (hagree eid hvolume hhost)
    exact absurd (sameContent_of_content hhost hvolume hcontent) hdiffers

theorem mergeExecute_failedInsert
    (hnone : moveExperiments host volume (absentIds host volume) = none) (path : String) :
    (mergeExecute hash host volume path).report = none := by
  rcases mergeExecute_cases hash host volume path with
    ⟨he, -⟩ | ⟨he, -⟩ | ⟨he, -⟩ | ⟨-, -, merged, hmove, -⟩
  · rw [he]
  · rw [he]
  · rw [he]
  · rw [hnone] at hmove
    cases hmove

/-- A file of an excluded name makes every call raise before it copies anything. -/
theorem mergeLossless_of_excluded {hostName volumeName : String}
    (hname : (isExcludedSource hostName || isExcludedSource volumeName) = true) (path : String) :
    MergeLossless hash hostName host volumeName volume path := by
  have hout : ∀ dryRun,
      mergeRunState hash hostName host volumeName volume path dryRun = ⟨none, none⟩ :=
    fun _ => if_pos hname
  refine ⟨fun _ _ h => ?_, fun _ _ _ _ => ?_, fun _ => ?_, fun _ _ h => ?_,
    fun _ _ _ _ h => ?_, fun _ => ?_⟩
  · rw [hout] at h
    cases h
  · rw [hout]
  · rw [hout]
  · rw [hout] at h
    cases h
  · rw [hout] at h
    cases h
  · rw [hout, hout]
    exact Option.Rel.none

end Lossless

/-! ## Two small files -/

def sampleExperiment (eid : String) : ExperimentRow where
  experimentId := eid
  experimentName := "sweep"
  status := "complete"
  createdAt := none
  startedAt := none
  completedAt := none
  vectorStoreSnapshot := none
  doc := "\x7b\x7d"

def sampleRun (runId eid : String) : RunStatusRow where
  runId := runId
  experimentId := eid
  phase := "complete"
  createdAt := none
  updatedAt := none
  embeddingDimensions := some 384
  doc := "\x7b\x7d"

/-- One experiment, and the run-status rows of one experiment. -/
def sampleFile (eid runId owner : String) : RunStateFile where
  experiments := [sampleExperiment eid]
  runStatus := [sampleRun runId owner]
  results := []
  experimentKey := List.nodup_singleton _
  runKey := List.nodup_singleton _

theorem sample_runs_apart (owner : String) :
    RunIdsApart (sampleFile "e1" "r1" owner) (sampleFile "e2" "r2" "e2") := by
  intro r hr r' hr' hid
  obtain rfl := List.mem_singleton.mp hr
  obtain rfl := List.mem_singleton.mp hr'
  exact absurd hid (by decide : "r1" ≠ "r2")

end RagParamsFinder
