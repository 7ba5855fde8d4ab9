/-
  Reconciliation of experiments left in RUNNING by a restart
  (`server/core/pipeline/startup_reconciliation.py`).

  The store holds experiments and run rows, each under its own key. The loop goes over the
  RUNNING experiments as they were read at its start. An experiment and its rows form a
  cell; one turn of the loop changes the cell of its own experiment.

  Proved: `settles_orphans_iff`: the loop settles every experiment that cannot be executing
  exactly when the store is settleable. The guard for a removed API key stands behind two
  guards that leave nothing for it, and an experiment that waits for batches without an entry
  is failed with its rows untouched. `reconcile_idempotent`: a second reconciliation changes
  nothing.
-/
import Mathlib.Data.List.Nodup
import RagParamsFinder.PreEmbed.Checkpoint
import RagParamsFinder.Pipeline.FinalStatus

namespace RagParamsFinder

/-! ## The store -/

/-- A row of `run_status`. -/
structure RunStatusEntry where
  runId : String
  experimentId : String
  phase : Phase
  updatedAt : Nat
  errorMessage : Option String
  deriving DecidableEq, Repr

structure StoredExperiment where
  id : String
  doc : ExperimentDoc
  preEmbed : Option PreEmbed
  deriving DecidableEq, Repr

/-- `pre_embed and pre_embed.get("state") == "waiting"`. -/
def StoredExperiment.waiting (e : StoredExperiment) : Bool :=
  match e.preEmbed with
  | some p => p.state == "waiting"
  | none => false

/-- The two tables; `experiment_id` and `run_id` are their primary keys. -/
structure RunState where
  experiments : List StoredExperiment
  runs : List RunStatusEntry
  experimentIds_nodup : (experiments.map (·.id)).Nodup
  runIds_nodup : (runs.map (·.runId)).Nodup

theorem nodup_map_of_keep {α β : Type} {key : α → β} {f : α → α} (hf : ∀ a, key (f a) = key a)
    {l : List α} (h : (l.map key).Nodup) : ((l.map f).map key).Nodup := by
  rw [List.map_map]
  rwa [show key ∘ f = key from funext hf]

namespace RunState

def findRunning (s : RunState) : List StoredExperiment :=
  s.experiments.filter fun e => e.doc.status = .running

def findExperiment (s : RunState) (id : String) : Option StoredExperiment :=
  s.experiments.find? fun e => e.id = id

def findRunStatuses (s : RunState) (id : String) : List RunStatusEntry :=
  s.runs.filter fun r => r.experimentId = id

end RunState

/-- One experiment as `update_experiment` leaves it. -/
def StoredExperiment.updated (id : String) (u : ExperimentUpdate) (e : StoredExperiment) :
    StoredExperiment :=
  if e.id = id then { e with doc := e.doc.update u } else e

/-- One row as `mark_runs_interrupted` leaves it. -/
def RunStatusEntry.interruptedIn (runIds : List String) (updatedAt : Nat) (errorMessage : String)
    (r : RunStatusEntry) : RunStatusEntry :=
  if r.runId ∈ runIds then
    { r with phase := .interrupted, updatedAt := updatedAt, errorMessage := some errorMessage }
  else r

theorem StoredExperiment.updated_id (id : String) (u : ExperimentUpdate)
    (e : StoredExperiment) : (e.updated id u).id = e.id := by
  unfold StoredExperiment.updated
  split <;> rfl

theorem RunStatusEntry.interruptedIn_runId (runIds : List String) (now : Nat) (message : String)
    (r : RunStatusEntry) : (r.interruptedIn runIds now message).runId = r.runId := by
  unfold RunStatusEntry.interruptedIn
  split <;> rfl

theorem RunStatusEntry.interruptedIn_experimentId (runIds : List String) (now : Nat)
    (message : String) (r : RunStatusEntry) :
    (r.interruptedIn runIds now message).experimentId = r.experimentId := by
  unfold RunStatusEntry.interruptedIn
  split <;> rfl

namespace RunState

/-- `update_experiment`. -/
def updateExperiment (s : RunState) (id : String) (u : ExperimentUpdate) : RunState where
  experiments := s.experiments.map (·.updated id u)
  runs := s.runs
  experimentIds_nodup :=
    nodup_map_of_keep (StoredExperiment.updated_id id u) s.experimentIds_nodup
  runIds_nodup := s.runIds_nodup

/-- `mark_runs_interrupted`. -/
def markRunsInterrupted (s : RunState) (runIds : List String) (updatedAt : Nat)
    (errorMessage : String) : RunState where
  experiments := s.experiments
  runs := s.runs.map (·.interruptedIn runIds updatedAt errorMessage)
  experimentIds_nodup := s.experimentIds_nodup
  runIds_nodup :=
    nodup_map_of_keep (RunStatusEntry.interruptedIn_runId runIds updatedAt errorMessage)
      s.runIds_nodup

end RunState

/-! ## The loop -/

/-- `_ORPHAN_ERROR`. -/
def orphanError : String := "Interrupted — server restarted while run was in progress"

/-- The `completion_reason` of `_reconcile_one`, branch by branch. -/
def orphanCompletionReason (status : ExperimentStatus)
    (complete failed interrupted attempted expected : Nat) : String :=
  match status with
  | .complete =>
      if complete < expected then "completed_with_sampling_shortfall"
      else "all_planned_trials_completed"
  | .failed => if failed = expected then "all_trials_failed" else "mixed_failures"
  | .partialStatus =>
      if failed = 0 ∧ 0 < interrupted then "interrupted_before_completion"
      else if 0 < failed then "mixed_failures"
      else "incomplete_before_completion"
  | .cancelled => "cancelled_by_user"
  | .paused => "paused_by_user"
  | .running =>
      if 0 < attempted ∨ 0 < expected then "reconciled_from_orphaned_run"
      else "incomplete_before_completion"

/-- The update of `_reconcile_one`, from the rows read after the interruption. -/
def orphanUpdate (expected : Nat) (runs : List Phase) (now : Nat) : ExperimentUpdate :=
  let (status, failed) := deriveExperimentStatus runs expected
  { status := some status
    failedCount := some failed
    completionReason := some (orphanCompletionReason status (runs.count .complete) failed
      (runs.count .interrupted) runs.length expected)
    completedAt := some now }

/-- The first half of `_reconcile_one`: the in-flight rows are marked INTERRUPTED. -/
def RunState.interruptInFlight (s : RunState) (id : String) (now : Nat) : RunState :=
  let inFlight := (s.findRunStatuses id).filter fun r => !r.phase.terminal
  if inFlight.isEmpty then s
  else s.markRunsInterrupted (inFlight.map (·.runId)) now orphanError

/-- `_reconcile_one`. -/
def reconcileOne (s : RunState) (e : StoredExperiment) (now : Nat) : RunState :=
  let s := s.interruptInFlight e.id now
  let runs := s.findRunStatuses e.id
  s.updateExperiment e.id (orphanUpdate e.doc.runCount (runs.map (·.phase)) now)

/-- The arguments of the `update_experiment_reconciled` calls that fail an experiment. -/
def preEmbedFailure (reason : String) (now : Nat) : ExperimentUpdate where
  status := some .failed
  failedCount := some 0
  completionReason := some reason
  completedAt := some now

/-- `checkpoint_experiment_ids`. -/
def checkpointExperimentIds (entries : List CheckpointEntry) : List String :=
  entries.filterMap fun e => e.experimentId.filter (· ≠ "")

/-- One turn of the loop: the store, and whether the experiment counts as reconciled. -/
def reconcileExperiment (checkpointIds : List String) (apiKey : Option String)
    (s : RunState) (e : StoredExperiment) (now : Nat) : RunState × Bool :=
  if e.waiting ∧ e.id ∈ checkpointIds then (s, false)
  else if e.waiting ∧ e.id ∉ checkpointIds then
    (s.updateExperiment e.id (preEmbedFailure "pre_embed_batches_cannot_be_resumed" now), true)
  -- the two guards above leave no waiting experiment for this one
  else if e.waiting ∧ apiKey = none then
    (s.updateExperiment e.id (preEmbedFailure "doubleword_api_key_removed" now), true)
  else (reconcileOne s e now, true)

/-- The loop over the experiments read; `now` is the clock at each experiment's turn. -/
def reconcileLoop (checkpointIds : List String) (apiKey : Option String)
    (now : String → Nat) : List StoredExperiment → RunState → RunState × Nat
  | [], s => (s, 0)
  | e :: es, s =>
      let (s, counted) := reconcileExperiment checkpointIds apiKey s e (now e.id)
      let (s, n) := reconcileLoop checkpointIds apiKey now es s
      (s, n + counted.toNat)

/-- `reconcile_orphaned_experiments`: the store it leaves and the number it returns. -/
def reconcileOrphanedExperiments (s : RunState) (file : CheckpointFile)
    (apiKey : Option String) (now : String → Nat) : RunState × Nat :=
  let running := s.findRunning
  if running.isEmpty then (s, 0)
  else reconcileLoop (checkpointExperimentIds file.load) apiKey now running s

/-! ## What a turn does to each experiment -/

/-- One row as a settled experiment leaves it. -/
def RunStatusEntry.settled (now : Nat) (r : RunStatusEntry) : RunStatusEntry :=
  if r.phase.terminal then r
  else { r with phase := .interrupted, updatedAt := now, errorMessage := some orphanError }

/-- The rows of one experiment after `_reconcile_one`. -/
def settledRows (now : Nat) (runs : List RunStatusEntry) : List RunStatusEntry :=
  runs.map (·.settled now)

/-- With nothing in flight there is nothing to settle. -/
theorem settledRows_of_inFlight_empty {runs : List RunStatusEntry} (now : Nat)
    (h : (runs.filter fun r => !r.phase.terminal).isEmpty = true) :
    settledRows now runs = runs := by
  rw [List.isEmpty_iff, List.filter_eq_nil_iff] at h
  refine (List.map_congr_left fun r hr => ?_).trans (List.map_id _)
  rw [RunStatusEntry.settled, if_pos (by simpa using h r hr)]
  rfl

theorem RunStatusEntry.settled_runId (now : Nat) (r : RunStatusEntry) :
    (r.settled now).runId = r.runId := by
  unfold RunStatusEntry.settled
  split <;> rfl

namespace RunState

theorem mem_of_findExperiment {s : RunState} {id : String} {e : StoredExperiment}
    (h : s.findExperiment id = some e) : e ∈ s.experiments ∧ e.id = id :=
  ⟨List.mem_of_find?_eq_some h, by simpa using List.find?_some h⟩

/-- The primary key: a stored experiment is the one found under its id. -/
theorem findExperiment_of_mem {s : RunState} {e : StoredExperiment} (h : e ∈ s.experiments) :
    s.findExperiment e.id = some e := by
  cases hf : s.findExperiment e.id with
  | none =>
      rw [findExperiment, List.find?_eq_none] at hf
      exact absurd (decide_eq_true rfl) (hf e h)
  | some e' =>
      obtain ⟨hmem, hid⟩ := mem_of_findExperiment hf
      rw [List.inj_on_of_nodup_map s.experimentIds_nodup hmem h hid]

theorem mem_findRunning {s : RunState} {e : StoredExperiment} :
    e ∈ s.findRunning ↔ s.findExperiment e.id = some e ∧ e.doc.status = .running := by
  simp only [findRunning, List.mem_filter, decide_eq_true_iff]
  exact and_congr_left fun _ => ⟨findExperiment_of_mem, fun h => (mem_of_findExperiment h).1⟩

theorem findExperiment_updateExperiment (s : RunState) (id id' : String)
    (u : ExperimentUpdate) :
    (s.updateExperiment id u).findExperiment id' =
      (s.findExperiment id').map (·.updated id u) := by
  unfold findExperiment updateExperiment
  rw [List.find?_map]
  congr 2
  funext e
  simp [Function.comp, StoredExperiment.updated_id]

theorem findExperiment_updateExperiment_ne {s : RunState} {id id' : String} (h : id ≠ id')
    (u : ExperimentUpdate) :
    (s.updateExperiment id u).findExperiment id' = s.findExperiment id' := by
  rw [findExperiment_updateExperiment]
  cases hf : s.findExperiment id' with
  | none => rfl
  | some e =>
      have hid := (mem_of_findExperiment hf).2
      simp [StoredExperiment.updated, hid, Ne.symm h]

theorem findExperiment_updateExperiment_self {s : RunState} {e : StoredExperiment}
    (h : s.findExperiment e.id = some e) (u : ExperimentUpdate) :
    (s.updateExperiment e.id u).findExperiment e.id =
      some { e with doc := e.doc.update u } := by
  rw [findExperiment_updateExperiment, h, Option.map_some, StoredExperiment.updated,
    if_pos rfl]

theorem findRunStatuses_updateExperiment (s : RunState) (id id' : String)
    (u : ExperimentUpdate) :
    (s.updateExperiment id u).findRunStatuses id' = s.findRunStatuses id' := rfl

theorem findRunStatuses_markRunsInterrupted (s : RunState) (runIds : List String) (now : Nat)
    (message id : String) :
    (s.markRunsInterrupted runIds now message).findRunStatuses id =
      (s.findRunStatuses id).map (·.interruptedIn runIds now message) := by
  unfold findRunStatuses markRunsInterrupted
  rw [List.filter_map]
  congr 2
  funext r
  simp [Function.comp, RunStatusEntry.interruptedIn_experimentId]

/-- Run ids are unique, so a row whose id is collected is one of the rows collected. -/
theorem mem_inFlight_runIds {s : RunState} {r : RunStatusEntry} (hr : r ∈ s.runs) (id : String) :
    r.runId ∈ ((s.findRunStatuses id).filter fun r => !r.phase.terminal).map (·.runId) ↔
      r.experimentId = id ∧ r.phase.terminal = false := by
  simp only [findRunStatuses, List.mem_map, List.mem_filter, decide_eq_true_iff,
    Bool.not_eq_true']
  constructor
  · rintro ⟨r', ⟨⟨hmem, hid⟩, hphase⟩, he⟩
    obtain rfl := List.inj_on_of_nodup_map s.runIds_nodup hmem hr he
    exact ⟨hid, hphase⟩
  · rintro ⟨hid, hphase⟩
    exact ⟨r, ⟨⟨hr, hid⟩, hphase⟩, rfl⟩

theorem findExperiment_interruptInFlight (s : RunState) (id : String) (now : Nat)
    (id' : String) :
    (s.interruptInFlight id now).findExperiment id' = s.findExperiment id' := by
  unfold interruptInFlight
  dsimp only
  split <;> rfl

theorem findRunStatuses_interruptInFlight_self (s : RunState) (id : String) (now : Nat) :
    (s.interruptInFlight id now).findRunStatuses id = settledRows now (s.findRunStatuses id) := by
  unfold interruptInFlight
  dsimp only
  split
  · rename_i hempty
    exact (settledRows_of_inFlight_empty now hempty).symm
  · rw [findRunStatuses_markRunsInterrupted]
    refine List.map_congr_left fun r hr => ?_
    obtain ⟨hmem, hid⟩ : r ∈ s.runs ∧ r.experimentId = id := by
      simpa [findRunStatuses] using hr
    unfold RunStatusEntry.interruptedIn RunStatusEntry.settled
    rw [if_congr (mem_inFlight_runIds hmem id) rfl rfl]
    cases ht : r.phase.terminal with
    | true => simp
    | false => simp [hid]

theorem findRunStatuses_interruptInFlight_ne (s : RunState) {id id' : String} (h : id ≠ id')
    (now : Nat) : (s.interruptInFlight id now).findRunStatuses id' = s.findRunStatuses id' := by
  unfold interruptInFlight
  dsimp only
  split
  · rfl
  · rw [findRunStatuses_markRunsInterrupted]
    refine (List.map_congr_left fun r hr => ?_).trans (List.map_id _)
    obtain ⟨hmem, hid⟩ : r ∈ s.runs ∧ r.experimentId = id' := by
      simpa [findRunStatuses] using hr
    have hne : ¬ (r.experimentId = id ∧ r.phase.terminal = false) := fun hc =>
      h (hc.1.symm.trans hid)
    rw [RunStatusEntry.interruptedIn, if_neg (mt (mem_inFlight_runIds hmem id).mp hne)]
    rfl

end RunState

/-- An experiment and its rows. -/
abbrev ExperimentCell := Option StoredExperiment × List RunStatusEntry

def RunState.cell (s : RunState) (id : String) : ExperimentCell :=
  (s.findExperiment id, s.findRunStatuses id)

/-- The cell that `_reconcile_one` leaves of an experiment. -/
def orphanCell (e : StoredExperiment) (runs : List RunStatusEntry) (now : Nat) : ExperimentCell :=
  (some { e with
    doc := e.doc.update (orphanUpdate e.doc.runCount
      ((settledRows now runs).map (·.phase)) now) },
    settledRows now runs)

theorem cell_reconcileOne_self {s : RunState} {e : StoredExperiment}
    (h : s.findExperiment e.id = some e) (now : Nat) :
    (reconcileOne s e now).cell e.id = orphanCell e (s.findRunStatuses e.id) now := by
  have hfind : (s.interruptInFlight e.id now).findExperiment e.id = some e :=
    (s.findExperiment_interruptInFlight e.id now e.id).trans h
  unfold reconcileOne orphanCell RunState.cell
  dsimp only
  rw [RunState.findExperiment_updateExperiment_self hfind,
    RunState.findRunStatuses_updateExperiment,
    RunState.findRunStatuses_interruptInFlight_self]

theorem cell_reconcileOne_ne {s : RunState} {e : StoredExperiment} {id : String}
    (h : e.id ≠ id) (now : Nat) : (reconcileOne s e now).cell id = s.cell id := by
  unfold reconcileOne RunState.cell
  dsimp only
  rw [RunState.findExperiment_updateExperiment_ne h,
    RunState.findRunStatuses_updateExperiment, RunState.findExperiment_interruptInFlight,
    RunState.findRunStatuses_interruptInFlight_ne s h]

/-- The cell that a turn leaves of a RUNNING experiment. -/
def turnCell (checkpointIds : List String) (e : StoredExperiment) (runs : List RunStatusEntry)
    (now : Nat) : ExperimentCell :=
  if e.waiting then
    if e.id ∈ checkpointIds then (some e, runs)
    else (some { e with
      doc := e.doc.update (preEmbedFailure "pre_embed_batches_cannot_be_resumed" now) }, runs)
  else orphanCell e runs now

theorem cell_reconcileExperiment_self {s : RunState} {e : StoredExperiment}
    (h : s.findExperiment e.id = some e) (ids : List String) (apiKey : Option String)
    (now : Nat) :
    (reconcileExperiment ids apiKey s e now).1.cell e.id =
      turnCell ids e (s.findRunStatuses e.id) now := by
  unfold reconcileExperiment turnCell
  cases hw : e.waiting with
  | false =>
      simp only [Bool.false_eq_true, false_and, if_false]
      exact cell_reconcileOne_self h now
  | true =>
      by_cases hc : e.id ∈ ids
      · simp [hc, RunState.cell, h]
      · simp [hc, RunState.cell, RunState.findExperiment_updateExperiment_self h,
          RunState.findRunStatuses_updateExperiment]

theorem cell_reconcileExperiment_ne {e : StoredExperiment} {id : String} (h : e.id ≠ id)
    (ids : List String) (apiKey : Option String) (s : RunState) (now : Nat) :
    (reconcileExperiment ids apiKey s e now).1.cell id = s.cell id := by
  have hupdate : ∀ u, (s.updateExperiment e.id u).cell id = s.cell id := fun u => by
    rw [RunState.cell, RunState.findExperiment_updateExperiment_ne h]
    rfl
  unfold reconcileExperiment
  split
  · rfl
  · split
    · exact hupdate _
    · split
      · exact hupdate _
      · exact cell_reconcileOne_ne h now

/-! ## The whole loop -/

theorem cell_reconcileLoop_not_mem (ids : List String) (apiKey : Option String)
    (now : String → Nat) {es : List StoredExperiment} {id : String}
    (h : ∀ e ∈ es, e.id ≠ id) (s : RunState) :
    (reconcileLoop ids apiKey now es s).1.cell id = s.cell id := by
  induction es generalizing s with
  | nil => rfl
  | cons e es ih =>
      rw [List.forall_mem_cons] at h
      exact (ih h.2 _).trans (cell_reconcileExperiment_ne h.1 ids apiKey s (now e.id))

theorem cell_reconcileLoop_mem (ids : List String) (apiKey : Option String)
    (now : String → Nat) {es : List StoredExperiment} {s : RunState}
    (hn : (es.map (·.id)).Nodup) (hs : ∀ e ∈ es, s.findExperiment e.id = some e)
    {e : StoredExperiment} (he : e ∈ es) :
    (reconcileLoop ids apiKey now es s).1.cell e.id =
      turnCell ids e (s.findRunStatuses e.id) (now e.id) := by
  induction es generalizing s with
  | nil => cases he
  | cons e₀ es ih =>
      rw [List.map_cons, List.nodup_cons] at hn
      rw [List.forall_mem_cons] at hs
      have hfirst : ∀ e ∈ es, e₀.id ≠ e.id := fun e he heq =>
        hn.1 (heq ▸ List.mem_map_of_mem he)
      change (reconcileLoop ids apiKey now es
        (reconcileExperiment ids apiKey s e₀ (now e₀.id)).1).1.cell e.id = _
      rcases List.mem_cons.mp he with rfl | he
      · rw [cell_reconcileLoop_not_mem ids apiKey now fun e' he' => Ne.symm (hfirst e' he')]
        exact cell_reconcileExperiment_self hs.1 ids apiKey _
      · -- the turn of the first experiment left the cells of the others
        have hcell : ∀ e ∈ es, (reconcileExperiment ids apiKey s e₀ (now e₀.id)).1.cell e.id =
            s.cell e.id := fun e he => cell_reconcileExperiment_ne (hfirst e he) ids apiKey s _
        have hrest := ih hn.2
          (fun e he => (congrArg Prod.fst (hcell e he)).trans (hs.2 e he)) he
        rw [hrest]
        congr 1
        exact congrArg Prod.snd (hcell e he)

theorem findRunning_ids_nodup (s : RunState) : (s.findRunning.map (·.id)).Nodup :=
  s.experimentIds_nodup.sublist (List.filter_sublist.map _)

theorem reconcileOrphanedExperiments_fst (s : RunState) (file : CheckpointFile)
    (apiKey : Option String) (now : String → Nat) :
    (reconcileOrphanedExperiments s file apiKey now).1 =
      (reconcileLoop (checkpointExperimentIds file.load) apiKey now s.findRunning s).1 := by
  unfold reconcileOrphanedExperiments
  dsimp only
  split
  · rename_i h
    rw [List.isEmpty_iff.mp h]
    rfl
  · rfl

section Reconciled

variable (s : RunState) (file : CheckpointFile) (apiKey : Option String) (now : String → Nat)

/-- An experiment that was not RUNNING keeps its cell. -/
theorem cell_reconcile_of_not_running {id : String}
    (h : ∀ e, s.findExperiment id = some e → e.doc.status ≠ .running) :
    (reconcileOrphanedExperiments s file apiKey now).1.cell id = s.cell id := by
  rw [reconcileOrphanedExperiments_fst]
  refine cell_reconcileLoop_not_mem _ apiKey now (fun e he hid => ?_) s
  obtain ⟨hf, hr⟩ := RunState.mem_findRunning.mp he
  exact h e (hid ▸ hf) hr

/-- A RUNNING experiment has the cell that its turn leaves. -/
theorem cell_reconcile_of_running {e : StoredExperiment}
    (h : s.findExperiment e.id = some e) (hr : e.doc.status = .running) :
    (reconcileOrphanedExperiments s file apiKey now).1.cell e.id =
      turnCell (checkpointExperimentIds file.load) e (s.findRunStatuses e.id) (now e.id) := by
  rw [reconcileOrphanedExperiments_fst]
  refine cell_reconcileLoop_mem _ apiKey now (findRunning_ids_nodup s) (fun e he => ?_)
    (RunState.mem_findRunning.mpr ⟨h, hr⟩)
  exact (RunState.mem_findRunning.mp he).1

end Reconciled

/-! ## Settling every orphan -/

/-- Row by row: a terminal row is the same, any other is now INTERRUPTED. -/
def RowsSettled (before after : List RunStatusEntry) : Prop :=
  List.Forall₂ (fun r r' => r'.runId = r.runId ∧
    if r.phase.terminal then r' = r else r'.phase = .interrupted) before after

/-- What a reconciliation from `before` to `after`, repeated to `again`, should guarantee. -/
structure SettlesOrphans (before after again : RunState) (entries : List CheckpointEntry)
    (apiKey : Option String) : Prop where
  still_running : ∀ id e, after.findExperiment id = some e → e.doc.status = .running →
    e.waiting = true ∧ id ∈ checkpointExperimentIds entries ∧ apiKey ≠ none
  settled_rows : ∀ id e e', before.findExperiment id = some e → e.doc.status = .running →
    after.findExperiment id = some e' → e'.doc.status ≠ .running →
    RowsSettled (before.findRunStatuses id) (after.findRunStatuses id)
  untouched : ∀ id, (∀ e, before.findExperiment id = some e → e.doc.status ≠ .running) →
    after.cell id = before.cell id
  idempotent : again = after

/-- No RUNNING experiment is kept waiting without an API key, and none that waits for
    batches without an entry has a run in flight. -/
structure Settleable (s : RunState) (entries : List CheckpointEntry)
    (apiKey : Option String) : Prop where
  key_or_no_entry : apiKey ≠ none ∨ ∀ e ∈ s.findRunning, e.waiting = true →
    e.id ∉ checkpointExperimentIds entries
  no_entry_no_flight : ∀ e ∈ s.findRunning, e.waiting = true →
    e.id ∉ checkpointExperimentIds entries →
    ∀ r ∈ s.findRunStatuses e.id, r.phase.terminal = true

theorem rowsSettled_settledRows (now : Nat) (runs : List RunStatusEntry) :
    RowsSettled runs (settledRows now runs) := by
  unfold RowsSettled settledRows
  rw [List.forall₂_map_right_iff, List.forall₂_same]
  intro r _
  refine ⟨r.settled_runId now, ?_⟩
  unfold RunStatusEntry.settled
  split <;> rfl

theorem rowsSettled_self_iff (runs : List RunStatusEntry) :
    RowsSettled runs runs ↔ ∀ r ∈ runs, r.phase.terminal = true := by
  unfold RowsSettled
  rw [List.forall₂_same]
  refine forall₂_congr fun r _ => ?_
  cases ht : r.phase.terminal with
  | true => simp
  | false =>
      simp only [Bool.false_eq_true, if_false, true_and, iff_false]
      intro hp
      rw [hp] at ht
      exact absurd ht (by decide)

theorem deriveExperimentStatus_ne_running (runs : List Phase) (n : Nat) :
    (deriveExperimentStatus runs n).1 ≠ .running := by
  unfold deriveExperimentStatus
  dsimp only
  split
  · simp
  · split <;> simp

/-- The experiment that a turn leaves is RUNNING only in the exempted case. -/
theorem turnCell_running {ids : List String} {e e' : StoredExperiment} {runs : List RunStatusEntry}
    {now : Nat} (h : (turnCell ids e runs now).1 = some e') (hr : e'.doc.status = .running) :
    e.waiting = true ∧ e.id ∈ ids ∧ e' = e := by
  unfold turnCell at h
  split at h
  · rename_i hw
    split at h
    · rename_i hc
      exact ⟨hw, hc, (Option.some.inj h).symm⟩
    · obtain rfl := Option.some.inj h
      cases hr
  · obtain rfl := Option.some.inj h
    exact absurd hr (deriveExperimentStatus_ne_running _ _)

theorem turnCell_id {ids : List String} {e : StoredExperiment} {runs : List RunStatusEntry}
    {now : Nat} : ∃ e', (turnCell ids e runs now).1 = some e' ∧ e'.id = e.id := by
  unfold turnCell
  split
  · split <;> exact ⟨_, rfl, rfl⟩
  · exact ⟨_, rfl, rfl⟩

section Reconciled

variable (s : RunState) (file : CheckpointFile) (apiKey : Option String) (now : String → Nat)

/-- What is still RUNNING afterwards was waiting with an entry, and is unchanged. -/
theorem running_after_reconcile {id : String} {e' : StoredExperiment}
    (hf : (reconcileOrphanedExperiments s file apiKey now).1.findExperiment id = some e')
    (hr : e'.doc.status = .running) :
    e' ∈ s.findRunning ∧ e'.waiting = true ∧ e'.id = id ∧
      id ∈ checkpointExperimentIds file.load := by
  by_cases hnot : ∀ e, s.findExperiment id = some e → e.doc.status ≠ .running
  · have hcell := congrArg Prod.fst (cell_reconcile_of_not_running s file apiKey now hnot)
    exact absurd hr (hnot e' (hcell.symm.trans hf))
  · push Not at hnot
    obtain ⟨e, he, hrunning⟩ := hnot
    obtain rfl := (RunState.mem_of_findExperiment he).2
    have hcell := congrArg Prod.fst (cell_reconcile_of_running s file apiKey now he hrunning)
    obtain ⟨hw, hc, rfl⟩ := turnCell_running (hcell.symm.trans hf) hr
    exact ⟨RunState.mem_findRunning.mpr ⟨he, hrunning⟩, hw, rfl, hc⟩

/-- A waiting experiment with an entry is left as it was. -/
theorem cell_reconcile_of_exempt {e : StoredExperiment} (he : e ∈ s.findRunning)
    (hw : e.waiting = true) (hc : e.id ∈ checkpointExperimentIds file.load) :
    (reconcileOrphanedExperiments s file apiKey now).1.cell e.id = s.cell e.id := by
  obtain ⟨hf, hr⟩ := RunState.mem_findRunning.mp he
  rw [cell_reconcile_of_running s file apiKey now hf hr, turnCell, if_pos hw, if_pos hc]
  exact congrArg (·, _) hf.symm

end Reconciled

/-- Only exempt experiments are RUNNING afterwards, so the second loop skips them all. -/
theorem reconcileLoop_of_exempt (ids : List String) (apiKey : Option String)
    (now : String → Nat) {es : List StoredExperiment}
    (h : ∀ e ∈ es, e.waiting = true ∧ e.id ∈ ids) (s : RunState) :
    (reconcileLoop ids apiKey now es s).1 = s := by
  induction es generalizing s with
  | nil => rfl
  | cons e es ih =>
      rw [List.forall_mem_cons] at h
      have hturn : (reconcileExperiment ids apiKey s e (now e.id)).1 = s := by
        rw [reconcileExperiment, if_pos h.1]
      exact (ih h.2 _).trans hturn

theorem reconcile_idempotent (s : RunState) (file : CheckpointFile) (apiKey : Option String)
    (now now' : String → Nat) :
    (reconcileOrphanedExperiments (reconcileOrphanedExperiments s file apiKey now).1 file
      apiKey now').1 = (reconcileOrphanedExperiments s file apiKey now).1 := by
  rw [reconcileOrphanedExperiments_fst _ file apiKey now']
  refine reconcileLoop_of_exempt _ apiKey now' (fun e he => ?_) _
  obtain ⟨hf, hr⟩ := RunState.mem_findRunning.mp he
  obtain ⟨-, hw, -, hc⟩ := running_after_reconcile s file apiKey now hf hr
  exact ⟨hw, hc⟩

/-- The rows of a settled experiment: interrupted where they were in flight, unless it was
    waiting for batches without an entry. -/
theorem settled_rows_iff (s : RunState) (file : CheckpointFile) (apiKey : Option String)
    (now : String → Nat) {e e' : StoredExperiment} (he : e ∈ s.findRunning)
    (hf : (reconcileOrphanedExperiments s file apiKey now).1.findExperiment e.id = some e')
    (hsettled : e'.doc.status ≠ .running) :
    RowsSettled (s.findRunStatuses e.id)
        ((reconcileOrphanedExperiments s file apiKey now).1.findRunStatuses e.id) ↔
      (e.waiting = true → e.id ∉ checkpointExperimentIds file.load →
        ∀ r ∈ s.findRunStatuses e.id, r.phase.terminal = true) := by
  obtain ⟨hs, hr⟩ := RunState.mem_findRunning.mp he
  have hcell := cell_reconcile_of_running s file apiKey now hs hr
  have hrows := congrArg Prod.snd hcell
  change (reconcileOrphanedExperiments s file apiKey now).1.findRunStatuses e.id = _ at hrows
  rw [hrows, turnCell]
  cases hw : e.waiting with
  | false =>
      rw [if_neg (by simp)]
      exact iff_of_true (rowsSettled_settledRows _ _) (by simp)
  | true =>
      rw [if_pos rfl]
      by_cases hc : e.id ∈ checkpointExperimentIds file.load
      · have hexempt := congrArg Prod.fst (cell_reconcile_of_exempt s file apiKey now he hw hc)
        have heq : some e' = some e := hf.symm.trans (hexempt.trans hs)
        obtain rfl := Option.some.inj heq
        exact absurd hr hsettled
      · rw [if_neg hc, rowsSettled_self_iff]
        exact ⟨fun h _ _ => h, fun h => h rfl hc⟩

/-- Startup reconciliation settles every orphan exactly when the store is settleable. -/
theorem settles_orphans_iff (s : RunState) (file : CheckpointFile) (apiKey : Option String)
    (now now' : String → Nat) :
    SettlesOrphans s (reconcileOrphanedExperiments s file apiKey now).1
        (reconcileOrphanedExperiments (reconcileOrphanedExperiments s file apiKey now).1
          file apiKey now').1 file.load apiKey ↔
      Settleable s file.load apiKey := by
  constructor
  · intro h
    refine ⟨?_, fun e he hw hc => ?_⟩
    · by_cases hkey : apiKey = none
      · refine Or.inr fun e he hw hc => ?_
        obtain ⟨hf, hr⟩ := RunState.mem_findRunning.mp he
        have hcell := congrArg Prod.fst (cell_reconcile_of_exempt s file apiKey now he hw hc)
        exact (h.still_running e.id e (hcell.trans hf) hr).2.2 hkey
      · exact Or.inl hkey
    · obtain ⟨hs, hr⟩ := RunState.mem_findRunning.mp he
      have hcell := congrArg Prod.fst (cell_reconcile_of_running s file apiKey now hs hr)
      obtain ⟨e', he', -⟩ := @turnCell_id (checkpointExperimentIds file.load) e
        (s.findRunStatuses e.id) (now e.id)
      have hf := hcell.trans he'
      have hne : e'.doc.status ≠ .running := fun hr' => by
        obtain ⟨-, -, hid, hc'⟩ := running_after_reconcile s file apiKey now hf hr'
        exact hc hc'
      exact (settled_rows_iff s file apiKey now he hf hne).mp
        (h.settled_rows e.id e e' hs hr hf hne) hw hc
  · intro h
    refine ⟨fun id e hf hr => ?_, fun id e e' hs hr hf hne => ?_, fun id hnot => ?_,
      reconcile_idempotent s file apiKey now now'⟩
    · obtain ⟨he, hw, hid, hc⟩ := running_after_reconcile s file apiKey now hf hr
      refine ⟨hw, hc, ?_⟩
      rcases h.key_or_no_entry with hkey | hnone
      · exact hkey
      · exact absurd (hid ▸ hc) (hnone e he hw)
    · obtain rfl := (RunState.mem_of_findExperiment hs).2
      have he := RunState.mem_findRunning.mpr ⟨hs, hr⟩
      exact (settled_rows_iff s file apiKey now he hf hne).mpr (h.no_entry_no_flight e he)
    · exact cell_reconcile_of_not_running s file apiKey now hnot

/-- An experiment of four runs that waits for its batches. -/
def waitingForBatches : StoredExperiment where
  id := "e1"
  doc := .created 4
  preEmbed := some { state := "waiting" }

/-- A run left in flight. -/
def embeddingRun : RunStatusEntry := ⟨"r1", "e1", .embedding, 0, none⟩

def strandedStore : RunState where
  experiments := [waitingForBatches]
  runs := [embeddingRun]
  experimentIds_nodup := List.nodup_singleton _
  runIds_nodup := List.nodup_singleton _

def batchFile : CheckpointFile := .entries [⟨some "e1", "e1:doc", some "b1", .doc, 2, 0⟩]

/-- The experiment after it was failed for want of batches. -/
def failedForBatches : StoredExperiment where
  id := "e1"
  doc := (ExperimentDoc.created 4).update
    (preEmbedFailure "pre_embed_batches_cannot_be_resumed" 1)
  preEmbed := some { state := "waiting" }

/-- With the API key removed a waiting experiment stays RUNNING; without an entry it is
    failed, and its run stays in flight. -/
theorem orphans_left :
    (∀ again, ¬ SettlesOrphans strandedStore
        (reconcileOrphanedExperiments strandedStore batchFile none fun _ => 1).1 again
        batchFile.load none) ∧
      ∀ again, ¬ SettlesOrphans strandedStore
        (reconcileOrphanedExperiments strandedStore .missing (some "key") fun _ => 1).1 again
        CheckpointFile.missing.load (some "key") := by
  refine ⟨fun again h => ?_, fun again h => ?_⟩
  · exact (h.still_running "e1" waitingForBatches (by decide +kernel) rfl).2.2 rfl
  · have hrows := h.settled_rows "e1" waitingForBatches failedForBatches
      (by decide +kernel) rfl (by decide +kernel) (by decide)
    have hsame : (reconcileOrphanedExperiments strandedStore .missing (some "key")
        fun _ => 1).1.findRunStatuses "e1" = strandedStore.findRunStatuses "e1" := by
      decide +kernel
    rw [hsame, rowsSettled_self_iff] at hrows
    exact absurd (hrows embeddingRun (by decide +kernel)) (by decide)

end RagParamsFinder
