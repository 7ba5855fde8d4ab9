/-
  `--drop-source` of the migration of run state: `main` of
  `scripts/migrate/migrate_run_state_to_sqlite.py` after the source was read, into a target
  with any content.

  Proved: `drop_source_safe_iff`: when the drop step runs, every deleted record is in the
  target with the same content exactly when each is `Settled` before the write: a row of the
  target reads as the record already, or no row has its key and the first record of that
  key that the insert takes stands for it.
-/
import RagParamsFinder.Migrate.Preserves

namespace RagParamsFinder

open Documents KeyedInsert

/-! ## The drop step -/

/-- `exp_ids`. -/
def SourceRecords.experimentIds (source : SourceRecords) : List String :=
  source.experiments.map fun s => boundKey (s.raw.get "experiment_id")

/-- `experiment_id` is in the list: the filter of `_drop_source_mongo` and
    `_drop_source_postgres`. -/
def SourceRecord.Named {schema : Schema} (ids : List String) (s : SourceRecord schema) : Prop :=
  boundKey (s.raw.get "experiment_id") ∈ ids

instance {schema : Schema} (ids : List String) (s : SourceRecord schema) :
    Decidable (s.Named ids) :=
  inferInstanceAs (Decidable (_ ∈ _))

/-- `_drop_source_mongo` and `_drop_source_postgres`: the records that stay. -/
def dropSource (source : SourceRecords) (ids : List String) : SourceRecords where
  experiments := source.experiments.filter fun s => ¬ s.Named ids
  runStatus := source.runStatus.filter fun s => ¬ s.Named ids
  results := source.results.filter fun s => ¬ s.Named ids

/-- `main` with `--execute --drop-source`: the target and what is left of the source; `none`
    when the write raises or the parity check fails, before the source is touched. -/
def migrateAndDrop (db : RunStateDb) (source : SourceRecords) :
    Option (RunStateDb × SourceRecords) := do
  let target ← writeSqlite db source
  if verifyParity source target then
    return (target, dropSource source source.experimentIds)
  else none

/-! ## What is deleted, and what is settled -/

/-- Every record that is not left in the source has a row in the target that reads as it. -/
structure DropSafe (source remaining : SourceRecords) (target : RunStateDb) : Prop where
  experiments : ∀ s ∈ source.experiments, s ∉ remaining.experiments →
    ∃ r ∈ target.experiments, SameRecord s.read (experimentRowToDoc r false)
  runStatus : ∀ s ∈ source.runStatus, s ∉ remaining.runStatus →
    ∃ r ∈ target.runStatus, SameRecord s.read (runRowToDoc r)
  results : ∀ s ∈ source.results, s ∉ remaining.results →
    ∃ r ∈ target.results, SameRecord s.read (resultRowToDoc r)

section Settled

variable {schema : Schema} {κ : Type} [DecidableEq κ]

/-- The record has the key, and the insert takes it. -/
def SourceRecord.Claims (keyOf : Doc → κ) (notNull : List String) (k : κ)
    (s : SourceRecord schema) : Bool :=
  Inserts schema notNull s.raw && decide (keyOf s.raw = k)

/-- Before the write, a row reads as the record; or no row has its key, and the first record
    that claims the key stands for it. -/
def SourceRecord.Settled (keyOf : Doc → κ) (notNull : List String) (rows : List Row)
    (records : List (SourceRecord schema)) (s : SourceRecord schema) : Prop :=
  (∃ r ∈ rows, SameRecord s.read (readRow schema.names r)) ∨
    (keyOf s.raw ∉ rows.map (fun r => keyOf r.columns) ∧
      ∃ first, records.find? (SourceRecord.Claims keyOf notNull (keyOf s.raw)) = some first ∧
        StandsFor schema notNull first.raw s.read)

variable (hp : schema.Proper) {keyOf : Doc → κ} (hkey : KeyFunction schema keyOf)
  (notNull : List String) (hfilled : ∀ c ∈ schema, c.2 = .filled → c.1 ∈ notNull)
  (hnames : ∀ k ∈ notNull, k ∈ schema.names)

include hp hkey hfilled hnames

/-- The records whose row has the key are those that claim it. -/
theorem accepted_eq_claims (k : κ) (s : SourceRecord schema) :
    Accepted (fun r : Row => keyOf r.columns)
      (fun s : SourceRecord schema => acceptedRow schema notNull s.raw) k s =
      s.Claims keyOf notNull k := by
  have hsome := isSome_acceptedRow hp s.typed hfilled hnames
  unfold Accepted SourceRecord.Claims
  rw [← hsome]
  dsimp only
  cases hrow : acceptedRow schema notNull s.raw with
  | none => rfl
  | some row =>
      have hkeyOf : keyOf row.columns = keyOf s.raw :=
        hkey _ _ fun c hc hk => get_key hp (acceptedRow_eq_some.mp hrow).1 hc hk
      simp [hkeyOf]

/-- A record has its row in the table after the inserts exactly when it was settled. -/
theorem exists_row_iff_settled (rows : List Row) (records : List (SourceRecord schema))
    (s : SourceRecord schema) :
    (∃ r ∈ insertNew (fun r : Row => keyOf r.columns) (acceptedRow schema notNull) rows
        (records.map (·.raw)), SameRecord s.read (readRow schema.names r)) ↔
      s.Settled keyOf notNull rows records := by
  rw [insertNew_map]
  refine (exists_same_iff (hkey.of_same hp) (hkey.readRow hp)
    (hkey _ _ fun c hc hk => s.keys c hc hk)).trans
    (or_congr_right (and_congr_right' (exists_congr fun first => ?_)))
  rw [← exists_row_iff_standsFor hp first.typed hfilled hnames, ← exists_and_left]
  refine exists_congr fun row => and_congr_left' ?_
  rw [← funext (accepted_eq_claims hp hkey notNull hfilled hnames (keyOf s.raw))]
  rfl

end Settled

/-- Every record that the drop step deletes is settled. -/
structure SourceRecords.SettledIn (source : SourceRecords) (db : RunStateDb) : Prop where
  experiments : ∀ s ∈ source.experiments,
    s.Settled (fun d => boundKey (d.get "experiment_id")) experimentNotNull db.experiments
      source.experiments
  runStatus : ∀ s ∈ source.runStatus, s.Named source.experimentIds →
    s.Settled (fun d => boundKey (d.get "run_id")) runNotNull db.runStatus source.runStatus
  results : ∀ s ∈ source.results, s.Named source.experimentIds →
    s.Settled resultKey resultNotNull db.results source.results

theorem not_mem_dropped_iff {schema : Schema} {records : List (SourceRecord schema)}
    {ids : List String} {s : SourceRecord schema} (hs : s ∈ records) :
    s ∉ records.filter (fun s => ¬ s.Named ids) ↔ s.Named ids := by
  simp [hs]

theorem migrateAndDrop_eq_some {db target : RunStateDb} {source remaining : SourceRecords}
    (h : migrateAndDrop db source = some (target, remaining)) :
    writeSqlite db source = some target ∧
      remaining = dropSource source source.experimentIds := by
  unfold migrateAndDrop at h
  rw [Option.bind_eq_bind, Option.bind_eq_some_iff] at h
  obtain ⟨db', hwrite, h⟩ := h
  split at h
  · obtain ⟨rfl, rfl⟩ := Prod.mk.inj (Option.some.inj h)
    exact ⟨hwrite, rfl⟩
  · cases h

/-- When the drop step runs, every deleted record is in the target with the same content
    exactly when each deleted record was settled before the write. -/
theorem drop_source_safe_iff {db target : RunStateDb} {source remaining : SourceRecords}
    (h : migrateAndDrop db source = some (target, remaining)) :
    DropSafe source remaining target ↔ source.SettledIn db := by
  obtain ⟨hwrite, rfl⟩ := migrateAndDrop_eq_some h
  obtain ⟨hexperiments, hrunStatus, hresults⟩ := writeSqlite_eq hwrite
  have he := exists_row_iff_settled experimentSchema_proper experimentKey_function
    experimentNotNull (by decide) (by decide) db.experiments source.experiments
  have hr := exists_row_iff_settled runSchema_proper runKey_function runNotNull
    (by decide) (by decide) db.runStatus source.runStatus
  have hs := exists_row_iff_settled resultSchema_proper resultKey_function resultNotNull
    (by decide) (by decide) db.results source.results
  constructor
  · intro hsafe
    refine ⟨fun s hm => (he s).mp ?_, fun s hm hn => (hr s).mp ?_,
      fun s hm hn => (hs s).mp ?_⟩
    · have hnamed : s.Named source.experimentIds := List.mem_map.mpr ⟨s, hm, rfl⟩
      have hrow := hsafe.experiments s hm ((not_mem_dropped_iff hm).mpr hnamed)
      rw [hexperiments] at hrow
      exact hrow
    · have hrow := hsafe.runStatus s hm ((not_mem_dropped_iff hm).mpr hn)
      rw [hrunStatus] at hrow
      exact hrow
    · have hrow := hsafe.results s hm ((not_mem_dropped_iff hm).mpr hn)
      rw [hresults] at hrow
      exact hrow
  · intro hsettled
    refine ⟨fun s hm _ => ?_, fun s hm hn => ?_, fun s hm hn => ?_⟩
    · rw [hexperiments]
      exact (he s).mpr (hsettled.experiments s hm)
    · rw [hrunStatus]
      exact (hr s).mpr (hsettled.runStatus s hm ((not_mem_dropped_iff hm).mp hn))
    · rw [hresults]
      exact (hs s).mpr (hsettled.results s hm ((not_mem_dropped_iff hm).mp hn))

/-- The document of a sweep in MongoDB. -/
def sweepDoc (status : String) : Doc :=
  [("_id", .str "e1"), ("experiment_id", .str "e1"), ("experiment_name", .str "sweep"),
   ("status", .str status), ("created_at", .time 1), ("started_at", .time 2),
   ("completed_at", .null), ("vector_store_snapshot", .null), ("run_count", .int 4)]

theorem sweepDoc_typed : experimentSchema.Typed (sweepDoc "complete") := by
  unfold Schema.Typed
  decide

/-- The source: the sweep is complete. -/
def completeSource : SourceStore := .mongo [⟨sweepDoc "complete", sweepDoc_typed⟩] [] []

/-- The target of an earlier migration: the sweep was running. -/
def earlierTarget : RunStateDb where
  experiments := (experimentValues (((sweepDoc "running").zoned false).dropKeys ["_id"])).toList
  runStatus := []
  results := []

theorem drop_source_safe_empty :
    ∃ target remaining, migrateAndDrop .empty completeSource.read = some (target, remaining) ∧
      (DropSafe completeSource.read remaining target ↔
        completeSource.read.SettledIn .empty) :=
  ⟨_, _, rfl, drop_source_safe_iff rfl⟩

/-- The write skips the sweep, the counts agree, and the completed document is deleted. -/
theorem completed_sweep_dropped :
    ∃ target remaining,
      migrateAndDrop earlierTarget completeSource.read = some (target, remaining) ∧
        ¬ DropSafe completeSource.read remaining target := by
  refine ⟨earlierTarget, ⟨[], [], []⟩, rfl, fun h => ?_⟩
  obtain ⟨r, hr, hsame⟩ := h.experiments _ (List.mem_cons_self ..) List.not_mem_nil
  obtain rfl := List.mem_singleton.mp hr
  have hstatus := hsame "status" (by decide)
  exact absurd (Value.str.inj (Option.some.inj hstatus)) (by decide)

end RagParamsFinder
