/-
  Run-status documents in the three run-state stores: `RunStatus.model_dump()`
  (`server/models/status.py`), and the `insert_run_status`, `update_run_phase` and
  `find_completed_run_sigs` of the MongoDB, Postgres and SQLite adapters.

  MongoDB keeps the document and projects the signature keys on read. The two SQL adapters
  promote some keys to columns, keep the rest as a JSON blob, and rebuild the whole document
  on read. A JSON blob read back is the dictionary that was written: the run documents hold
  date-times only under promoted keys. Run ids are `uuid4` strings, so the primary-key
  clauses of the inserts are never exercised.

  Proved: `runTable_eq`: a table filled by runs with distinct ids is one row for each run.
  `findCompletedRunSigs_runTable`: the rows read back for a resume are those of the completed
  runs. `get_readDoc_settledRun`: a row read back has the value it was written with, except
  under the keys that the settling update writes.
-/
import Mathlib.Data.List.Induction
import RagParamsFinder.Lib.Documents
import RagParamsFinder.Models.Config

namespace RagParamsFinder

open Documents

/-! ## The document -/

def retrieverDump (r : RetrieverConfig) : Value :=
  .dict [("type", .str r.type.value),
    ("provider", (r.provider.map fun p => Value.str p.value).getD .null),
    ("model", (r.model.map Value.str).getD .null)]

/-- `RunStatus(...).model_dump()` as `_run_single` builds it, at the time `now`. -/
def runStatusDump (runId experimentId : String) (p : RunParams) (now : Int) : Doc :=
  [("run_id", .str runId),
   ("experiment_id", .str experimentId),
   ("phase", .str Phase.queued.value),
   ("database_provider", .str p.databaseProvider.value),
   ("embedding_provider", .str p.embeddingProvider.value),
   ("embedding_model", .str p.embeddingModel.name),
   ("chunking_method", .str p.chunkingMethod.value),
   ("chunk_size", .int p.chunkSize),
   ("overlap", .int p.overlap),
   ("padding", .int p.padding),
   ("retrievers", .list (p.retrievers.map retrieverDump)),
   ("retrieval_method", .str p.retrievalMethod.value),
   ("retrieval_provider", .str p.retrievalProvider.value),
   ("retrieval_model", (p.retrievalModel.map Value.str).getD .null),
   ("created_at", .time now),
   ("updated_at", .time now),
   ("elapsed_ms", .int 0),
   ("error_message", .null),
   ("embedding_dimensions", .int p.embeddingModel.info.dimensions)]

/-! ## The adapters -/

inductive RunStateStore where
  | mongo
  | postgres
  | sqlite
  deriving DecidableEq, Repr

/-- A stored run: a MongoDB document, or a row of an SQL table. -/
inductive StoredRun where
  | document (d : Doc)
  | row (r : Row)

abbrev RunTable := List StoredRun

/-- `RUN_COLUMNS` of `postgres_docs.py`. -/
def postgresRunColumns : List String :=
  ["run_id", "experiment_id", "phase", "created_at", "updated_at"]

/-- `RUN_COLUMNS` of `sqlite_docs.py`. -/
def sqliteRunColumns : List String :=
  ["run_id", "experiment_id", "phase", "created_at", "updated_at", "embedding_dimensions"]

/-- `_DERIVED_KEYS`. -/
def derivedKeys : List String := ["_id"]

def storeRun : RunStateStore → Doc → StoredRun
  | .mongo, d => .document d
  | .postgres, d => .row (Row.ofDoc postgresRunColumns derivedKeys d)
  | .sqlite, d => .row (Row.ofDoc sqliteRunColumns derivedKeys d)

/-- `insert_run_status`. -/
def insertRunStatus (st : RunStateStore) (table : RunTable) (doc : Doc) : RunTable :=
  table ++ [storeRun st doc]

/-- The value a `WHERE` clause or a MongoDB filter compares. -/
def StoredRun.field : StoredRun → String → Value
  | .document d, k => d.get k
  | .row r, k => r.columns.get k

/-- The `$set` of the MongoDB `update_run_phase`, and the assignments of the SQL ones. -/
def StoredRun.setPhase (phase : Phase) (updatedAt : Int) (elapsedMs : Int)
    (errorMessage : Option String) : StoredRun → StoredRun
  | .document d => .document (d.update
      [("phase", .str phase.value), ("updated_at", .time updatedAt),
       ("elapsed_ms", .int elapsedMs),
       ("error_message", (errorMessage.map Value.str).getD .null)])
  | .row r => .row (r.assign
      [("phase", .str phase.value), ("updated_at", .time updatedAt)]
      [("elapsed_ms", .int elapsedMs),
       ("error_message", (errorMessage.map Value.str).getD .null)])

/-- `update_run_phase`. -/
def updateRunPhase (table : RunTable) (runId : String) (phase : Phase) (updatedAt : Int)
    (elapsedMs : Int) (errorMessage : Option String) : RunTable :=
  table.map fun run =>
    if (run.field "run_id").isStr runId then run.setPhase phase updatedAt elapsedMs errorMessage
    else run

/-- The keys that the MongoDB `find_completed_run_sigs` projects. -/
def sigKeys : List String :=
  ["database_provider", "embedding_provider", "embedding_model", "chunking_method",
   "chunk_size", "overlap", "retrieval_method", "retrieval_provider", "retrieval_model"]

/-- What `find_completed_run_sigs` returns for one run: a projection, or the whole document. -/
def StoredRun.readSig : StoredRun → Doc
  | .document d => d.project sigKeys
  | .row r => r.toDoc

/-- A run document as `find_run_statuses` and `load_explore_source` return it. -/
def StoredRun.readDoc : StoredRun → Doc
  | .document d => d
  | .row r => r.toDoc

/-- The run documents of an experiment. -/
def findRunStatuses (table : RunTable) (experimentId : String) : List Doc :=
  (table.filter fun run => (run.field "experiment_id").isStr experimentId).map StoredRun.readDoc

/-- `find_completed_run_sigs`. -/
def findCompletedRunSigs (table : RunTable) (experimentId : String) : List Doc :=
  (table.filter fun run =>
    (run.field "experiment_id").isStr experimentId &&
      (run.field "phase").isStr Phase.complete.value).map StoredRun.readSig

/-! ## The table that a history of runs leaves -/

/-- One run of an experiment: its id, its parameters, and the phase that settled it. -/
structure RunAttempt where
  runId : String
  params : RunParams
  phase : Phase
  startedAt : Int
  settledAt : Int
  elapsedMs : Int
  errorMessage : Option String

/-- What `_run_single` writes about one run: its status row, then the settling phase. -/
def recordRun (st : RunStateStore) (experimentId : String) (table : RunTable)
    (a : RunAttempt) : RunTable :=
  updateRunPhase
    (insertRunStatus st table (runStatusDump a.runId experimentId a.params a.startedAt))
    a.runId a.phase a.settledAt a.elapsedMs a.errorMessage

def runTable (st : RunStateStore) (experimentId : String) (as : List RunAttempt) : RunTable :=
  as.foldl (recordRun st experimentId) []

/-- The stored form of one settled run. -/
def settledRun (st : RunStateStore) (experimentId : String) (a : RunAttempt) : StoredRun :=
  (storeRun st (runStatusDump a.runId experimentId a.params a.startedAt)).setPhase
    a.phase a.settledAt a.elapsedMs a.errorMessage

theorem field_storeRun_runId (st : RunStateStore) (e : String) (a : RunAttempt) :
    (storeRun st (runStatusDump a.runId e a.params a.startedAt)).field "run_id" =
      .str a.runId := by
  cases st <;> rfl

theorem field_settledRun_runId (st : RunStateStore) (e : String) (a : RunAttempt) :
    (settledRun st e a).field "run_id" = .str a.runId := by
  cases st <;> rfl

theorem field_settledRun_experiment (st : RunStateStore) (e : String) (a : RunAttempt) :
    (settledRun st e a).field "experiment_id" = .str e := by
  cases st <;> rfl

theorem field_settledRun_phase (st : RunStateStore) (e : String) (a : RunAttempt) :
    (settledRun st e a).field "phase" = .str a.phase.value := by
  cases st <;> rfl

/-- Recording a run with a fresh id appends its settled row and leaves the others. -/
theorem recordRun_fresh (st : RunStateStore) (e : String) (as : List RunAttempt)
    (a : RunAttempt) (h : a.runId ∉ as.map (·.runId)) :
    recordRun st e (as.map (settledRun st e)) a =
      as.map (settledRun st e) ++ [settledRun st e a] := by
  unfold recordRun insertRunStatus updateRunPhase
  rw [List.map_append, List.map_map]
  congr 1
  · refine List.map_congr_left fun b hb => ?_
    have hne : b.runId ≠ a.runId := fun he => h (List.mem_map.mpr ⟨b, hb, he⟩)
    simp [Function.comp, field_settledRun_runId, Value.isStr, hne]
  · simp [field_storeRun_runId, Value.isStr, settledRun]

theorem runTable_eq (st : RunStateStore) (e : String) {as : List RunAttempt}
    (h : (as.map (·.runId)).Nodup) : runTable st e as = as.map (settledRun st e) := by
  unfold runTable
  induction as using List.reverseRecOn with
  | nil => rfl
  | append_singleton as a ih =>
      rw [List.map_append, List.nodup_append] at h
      rw [List.foldl_append, ih h.1, List.foldl_cons, List.foldl_nil, List.map_append]
      refine recordRun_fresh st e as a fun hm => ?_
      exact h.2.2 _ hm _ (List.mem_singleton_self _) rfl

theorem findRunStatuses_runTable (st : RunStateStore) (e : String) {as : List RunAttempt}
    (h : (as.map (·.runId)).Nodup) :
    findRunStatuses (runTable st e as) e = as.map fun a => (settledRun st e a).readDoc := by
  have hall : ∀ a ∈ as, ((settledRun st e a).field "experiment_id").isStr e = true := by
    intro a _
    simp [field_settledRun_experiment, Value.isStr]
  rw [runTable_eq st e h, findRunStatuses, List.filter_map, List.map_map]
  congr 1
  exact List.filter_eq_self.mpr hall

/-- Only the completed runs are read back. -/
theorem findCompletedRunSigs_runTable (st : RunStateStore) (e : String) {as : List RunAttempt}
    (h : (as.map (·.runId)).Nodup) :
    findCompletedRunSigs (runTable st e as) e =
      (as.filter (·.phase = .complete)).map fun a => (settledRun st e a).readSig := by
  rw [runTable_eq st e h, findCompletedRunSigs, List.filter_map, List.map_map]
  congr 1
  refine List.filter_congr fun a _ => ?_
  have hphase : (a.phase.value == Phase.complete.value) = decide (a.phase = .complete) := by
    rw [Bool.eq_iff_iff, beq_iff_eq, decide_eq_true_iff, Phase.value_injective.eq_iff]
  simp [Function.comp, field_settledRun_experiment, field_settledRun_phase, Value.isStr, hphase]

/-- The keys that the settling update writes. -/
def settledKeys : List String := ["phase", "updated_at", "elapsed_ms", "error_message"]

/-- A run read back has the value it was written with, except under the settled keys. -/
theorem get_readDoc_settledRun (st : RunStateStore) (e : String) (a : RunAttempt) {k : String}
    (hup : k ∉ settledKeys) (hid : k ∉ derivedKeys) :
    (settledRun st e a).readDoc.get k =
      (runStatusDump a.runId e a.params a.startedAt).get k := by
  simp only [settledKeys, List.mem_cons, not_or] at hup
  cases st with
  | mongo =>
      change (Doc.update _ _).get k = _
      rw [Doc.get_update_of_not_mem]
      simpa [Doc.keys] using hup
  | postgres =>
      change (Row.assign _ _ _).toDoc.get k = _
      rw [get_toDoc_assign, get_toDoc_ofDoc (by decide) _ hid]
      · rw [keys_ofDoc_columns]; decide
      · simp [Doc.keys, Row.ofDoc, postgresRunColumns]
      · simpa [Doc.keys] using ⟨hup.1, hup.2.1⟩
      · simpa [Doc.keys] using ⟨hup.2.2.1, hup.2.2.2.1⟩
  | sqlite =>
      change (Row.assign _ _ _).toDoc.get k = _
      rw [get_toDoc_assign, get_toDoc_ofDoc (by decide) _ hid]
      · rw [keys_ofDoc_columns]; decide
      · simp [Doc.keys, Row.ofDoc, sqliteRunColumns]
      · simpa [Doc.keys] using ⟨hup.1, hup.2.1⟩
      · simpa [Doc.keys] using ⟨hup.2.2.1, hup.2.2.2.1⟩

theorem get_readSig_settledRun (st : RunStateStore) (e : String) (a : RunAttempt) {k : String}
    (hk : k ∈ sigKeys) :
    (settledRun st e a).readSig.get k =
      (runStatusDump a.runId e a.params a.startedAt).get k := by
  have hup : k ∉ settledKeys := by revert k; decide
  have hid : k ∉ derivedKeys := by revert k; decide
  rw [← get_readDoc_settledRun st e a hup hid]
  cases st with
  | mongo => exact Doc.get_project hk
  | postgres => rfl
  | sqlite => rfl

end RagParamsFinder
