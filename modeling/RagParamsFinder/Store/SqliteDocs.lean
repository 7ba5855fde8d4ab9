/-
  The SQLite run-state adapter: rows and documents (`server/db/sqlite/sqlite_docs.py`), and
  the experiment and run-status operations of `server/db/sqlite/sqlite_store.py`.

  A row holds the promoted columns and the JSON text of the rest. An operation that raises
  leaves the store as it was, and so does an insert that a constraint makes `OR IGNORE`
  drop: both are `none` here. The encoders are those of payloads whose promoted values have
  the types of their columns (`TypedPayload`). What the database would make of another value,
  such as the text of a number, is not modelled; the statements about payloads assume the types.

  Proved: `item_readRow`: a key is read from its column when it is promoted and from the
  JSON text otherwise. `item_encodeColumns`: an update assigns the columns that it names.
-/
import Mathlib.Algebra.Group.Int.Defs
import RagParamsFinder.Lib.Tables
import RagParamsFinder.Store.RunDocs

namespace RagParamsFinder

open Documents Tables

/-! ## Columns -/

/-- `EXPERIMENT_COLUMNS`. -/
def sqliteExperimentColumns : List String :=
  ["experiment_id", "experiment_name", "status", "created_at", "started_at", "completed_at",
   "vector_store_snapshot"]

def dateColumns : List String := ["created_at", "started_at", "completed_at", "updated_at"]

/-- A string. -/
def isText : Value → Bool
  | .str _ => true
  | .timeText _ _ => true
  | _ => false

/-- `None` or a date-time. -/
def isDate : Value → Bool
  | .null => true
  | .time _ => true
  | _ => false

/-- Bind a string to a `TEXT NOT NULL` column, which refuses `None`. -/
def bindText (v : Value) : Option Value := if isText v then some v else none

/-- `serialize_datetime`. -/
def serializeDatetime : Value → Option Value
  | .null => some .null
  | .time t => some (.timeText 'T' t)
  | _ => none

/-- `_parse_datetime`, on what a text column holds. -/
def parseDatetime : Value → Value
  | .timeText _ t => .time t
  | _ => .null

/-- `vector_store_snapshot` in `insert_experiment`: a snapshot that `json.dumps` refuses is
    stored as `NULL`. -/
def snapshotOnInsert (v : Value) : Value := if v.hasTime then .null else v

/-- `vector_store_snapshot` in `update_experiment`: `json.dumps(snap) if snap else None`. -/
def snapshotOnUpdate (v : Value) : Option Value :=
  if v.truthy then if v.hasTime then none else some v
  else some .null

/-- `int(dims) if dims is not None else None`, of a number. -/
def bindDimensions : Value → Option Value
  | .null => some .null
  | .int i => some (.int i)
  | .bool b => some (.int b.toNat)
  | .float q => some (.int (q.num.tdiv q.den))
  | _ => none

/-- The key a string gives; ids are plain strings. -/
def idOf : Value → Option String
  | .str s => some s
  | _ => none

def isNone : Value → Bool
  | .null => true
  | _ => false

/-- A number of dimensions that an `INTEGER` column holds, or `None`. -/
def isDimensions (v : Value) : Bool :=
  match bindDimensions v with
  | some (.int i) => decide (-2 ^ 63 ≤ i ∧ i < 2 ^ 63)
  | some _ => true
  | none => false

/-- The type of the values that payloads give a promoted key: a string for an id, and a string,
    a date-time or a number, or `None`, for the others. -/
def fitsColumn (c : String) (v : Value) : Bool :=
  if c = "experiment_id" ∨ c = "run_id" then (idOf v).isSome
  else if c ∈ dateColumns then isDate v
  else if c = "embedding_dimensions" then isDimensions v
  else if c = "vector_store_snapshot" then true
  else isNone v || isText v

/-- Each promoted key of the payload has a value of its type. -/
def TypedPayload (columns : List String) (doc : Doc) : Prop :=
  ∀ c ∈ columns, fitsColumn c (doc.get c) = true

instance (columns : List String) (doc : Doc) : Decidable (TypedPayload columns doc) :=
  inferInstanceAs (Decidable (∀ _ ∈ _, _))

/-- The assignments to the columns that an update names; `none` if one of them raises. -/
def encodeColumns (u : Doc) : List (String × (Value → Option Value)) → Option Doc
  | [] => some []
  | (c, encode) :: rest =>
      match u.item c with
      | none => encodeColumns u rest
      | some v => do
          let w ← encode v
          let ws ← encodeColumns u rest
          return (c, w) :: ws

/-- The value that a reader makes of what column `c` holds. -/
def decodeColumn (c : String) (v : Value) : Value :=
  if c ∈ dateColumns then parseDatetime v else v

/-- Rebuild a document: the blob updated with the decoded columns. -/
def readRow (columns : List String) (r : Row) : Doc :=
  r.blob.update (columns.map fun c => (c, decodeColumn c (r.columns.get c)))

/-- `experiment_row_to_doc`. -/
def experimentRowToDoc (r : Row) (includeId : Bool) : Doc :=
  let doc := readRow sqliteExperimentColumns r
  if includeId then doc.set "_id" (r.columns.get "experiment_id") else doc

/-- `run_row_to_doc`. -/
def runRowToDoc (r : Row) : Doc := readRow sqliteRunColumns r

/-- `to_json`, read back. -/
def toJson (doc : Doc) (promoted : List String) : Doc :=
  (doc.dropKeys (promoted ++ derivedKeys)).dump 'T'

/-- `_update_doc_json`, read back. -/
def updateDocJson (existing update : Doc) (promoted : List String) : Doc :=
  (existing.update (update.dropKeys promoted)).dump 'T'

/-! ## The store -/

structure SqliteStore where
  experiments : Table Row
  runStatus : Table Row

/-- The row of `insert_experiment`. -/
def experimentRow (doc : Doc) : Option Row := do
  let id ← bindText (doc.get "experiment_id")
  let name ← bindText ((doc.get "experiment_name").orElse (.str ""))
  let status ← bindText ((doc.get "status").orElse (.str ExperimentStatus.running.value))
  let createdAt ← serializeDatetime (doc.get "created_at")
  let startedAt ← serializeDatetime (doc.get "started_at")
  let completedAt ← serializeDatetime (doc.get "completed_at")
  return {
    columns := [("experiment_id", id), ("experiment_name", name), ("status", status),
      ("created_at", createdAt), ("started_at", startedAt), ("completed_at", completedAt),
      ("vector_store_snapshot", snapshotOnInsert (doc.get "vector_store_snapshot"))]
    blob := toJson doc sqliteExperimentColumns }

/-- The row of `insert_run_status`. -/
def runRow (doc : Doc) : Option Row := do
  let runId ← bindText (doc.get "run_id")
  let id ← bindText (doc.get "experiment_id")
  let phase ← bindText (doc.get "phase")
  let createdAt ← serializeDatetime (doc.get "created_at")
  let updatedAt ← serializeDatetime (doc.get "updated_at")
  let dims ← bindDimensions (doc.get "embedding_dimensions")
  return {
    columns := [("run_id", runId), ("experiment_id", id), ("phase", phase),
      ("created_at", createdAt), ("updated_at", updatedAt), ("embedding_dimensions", dims)]
    blob := toJson doc sqliteRunColumns }

/-- The columns that `update_experiment` assigns, in the order of the source. -/
def experimentEncoders : List (String × (Value → Option Value)) :=
  [("experiment_name", bindText), ("status", bindText), ("created_at", serializeDatetime),
   ("started_at", serializeDatetime), ("completed_at", serializeDatetime),
   ("vector_store_snapshot", snapshotOnUpdate)]

/-- `promoted_fields`. -/
def promotedFields (update : Doc) : Option Doc := encodeColumns update experimentEncoders

namespace SqliteStore

def empty : SqliteStore := ⟨[], []⟩

def insertExperiment (s : SqliteStore) (doc : Doc) : SqliteStore :=
  match idOf (doc.get "experiment_id"), experimentRow doc with
  | some id, some row => { s with experiments := s.experiments.insertOrIgnore id row }
  | _, _ => s

/-- The foreign key is enforced: the experiment of the run must be stored. -/
def insertRunStatus (s : SqliteStore) (doc : Doc) : SqliteStore :=
  match idOf (doc.get "run_id"), idOf (doc.get "experiment_id"), runRow doc with
  | some runId, some id, some row =>
      if (s.experiments.find id).isSome then
        { s with runStatus := s.runStatus.insertOrIgnore runId row }
      else s
  | _, _, _ => s

def updateExperiment (s : SqliteStore) (id : String) (update : Doc) : SqliteStore :=
  match promotedFields update with
  | none => s
  | some fields =>
      { s with experiments := s.experiments.modify id fun r =>
        { columns := r.columns.update fields
          blob := updateDocJson r.blob update sqliteExperimentColumns } }

/-- `_mark_experiment_terminal`: only columns are assigned. -/
def markExperimentTerminal (s : SqliteStore) (id : String) (status : ExperimentStatus)
    (now : Int) : SqliteStore :=
  let fields : Doc := [("status", .str status.value), ("completed_at", .timeText 'T' now)]
  { s with experiments := s.experiments.modify id fun r =>
    { r with columns := r.columns.update fields } }

def markExperimentRunning (s : SqliteStore) (id : String) : SqliteStore :=
  let fields : Doc :=
    [("status", .str ExperimentStatus.running.value), ("completed_at", .null)]
  { s with experiments := s.experiments.modify id fun r =>
    { r with columns := r.columns.update fields } }

def updateRunPhase (s : SqliteStore) (runId phase : String) (updatedAt elapsedMs : Int)
    (errorMessage : Option String) : SqliteStore :=
  let fields : Doc := [("phase", .str phase), ("updated_at", .timeText 'T' updatedAt)]
  let update : Doc := [("elapsed_ms", .int elapsedMs),
    ("error_message", (errorMessage.map Value.str).getD .null)]
  { s with runStatus := s.runStatus.modify runId fun r =>
    { columns := r.columns.update fields
      blob := updateDocJson r.blob update sqliteRunColumns } }

def markRunInterrupted (t : Table Row) (runId : String) (updatedAt : Int)
    (errorMessage : String) : Table Row :=
  let fields : Doc :=
    [("phase", .str Phase.interrupted.value), ("updated_at", .timeText 'T' updatedAt)]
  let update : Doc := [("error_message", .str errorMessage)]
  t.modify runId fun r =>
    { columns := r.columns.update fields
      blob := updateDocJson r.blob update sqliteRunColumns }

def markRunsInterrupted (s : SqliteStore) (runIds : List String) (updatedAt : Int)
    (errorMessage : String) : SqliteStore :=
  { s with runStatus := runIds.foldl (fun t runId =>
      markRunInterrupted t runId updatedAt errorMessage) s.runStatus }

/-- `find_experiment_by_id`. -/
def findExperimentById (s : SqliteStore) (id : String) : Option Doc :=
  (s.experiments.find id).map (experimentRowToDoc · true)

/-- `find_run_status`. -/
def findRunStatus (s : SqliteStore) (runId : String) : Option Doc :=
  (s.runStatus.find runId).map runRowToDoc

end SqliteStore

/-! ## Reading a row -/

theorem item_readRow {columns : List String} (hn : columns.Nodup) (r : Row) (k : String) :
    (readRow columns r).item k =
      if k ∈ columns then some (decodeColumn k (r.columns.get k)) else r.blob.item k :=
  Doc.item_overlay hn (fun c => decodeColumn c (r.columns.get c)) r.blob k

theorem item_experimentRowToDoc (r : Row) (includeId : Bool) {k : String} (h : k ≠ "_id") :
    (experimentRowToDoc r includeId).item k = (readRow sqliteExperimentColumns r).item k := by
  unfold experimentRowToDoc
  cases includeId with
  | false => rfl
  | true => exact Doc.item_set_of_ne _ (Ne.symm h) _

/-! ## Writing a row -/

theorem keys_encodeColumns {u ws : Doc} {encoders : List (String × (Value → Option Value))}
    (h : encodeColumns u encoders = some ws) : ws.keys.Sublist (encoders.map (·.1)) := by
  induction encoders generalizing ws with
  | nil =>
      obtain rfl := Option.some.inj h
      exact List.Sublist.refl _
  | cons ce encoders ih =>
      obtain ⟨c, encode⟩ := ce
      unfold encodeColumns at h
      split at h
      · exact (ih h).trans (List.sublist_cons_self _ _)
      · simp only [Option.bind_eq_bind, Option.bind_eq_some_iff, Option.pure_def,
          Option.some.injEq] at h
        obtain ⟨w, -, ws', hws, rfl⟩ := h
        exact (ih hws).cons_cons _

theorem lookup_of_mem {β : Type} {l : List (String × β)} (hn : (l.map (·.1)).Nodup)
    {k : String} {b : β} (h : (k, b) ∈ l) : l.lookup k = some b := by
  induction l with
  | nil => cases h
  | cons kb l ih =>
      obtain ⟨k', b'⟩ := kb
      rw [List.map_cons, List.nodup_cons] at hn
      rcases List.mem_cons.mp h with heq | hm
      · obtain ⟨rfl, rfl⟩ := Prod.mk.inj heq
        exact List.lookup_cons_self
      · have hne : k ≠ k' := fun he => hn.1 (he ▸ List.mem_map.mpr ⟨_, hm, rfl⟩)
        have hb : (k == k') = false := by simpa using hne
        rw [List.lookup_cons, hb]
        exact ih hn.2 hm

/-- An update assigns the columns that it names, each with its encoded value. -/
theorem item_encodeColumns {u ws : Doc} {encoders : List (String × (Value → Option Value))}
    (hn : (encoders.map (·.1)).Nodup) (h : encodeColumns u encoders = some ws) (k : String) :
    ws.item k = (encoders.lookup k).bind fun encode => (u.item k).bind encode := by
  induction encoders generalizing ws with
  | nil =>
      obtain rfl := Option.some.inj h
      rfl
  | cons ce encoders ih =>
      obtain ⟨c, encode⟩ := ce
      rw [List.map_cons, List.nodup_cons] at hn
      by_cases hk : c = k
      · subst hk
        rw [List.lookup_cons_self, Option.bind_some]
        unfold encodeColumns at h
        split at h
        · rename_i hu
          have hfresh : c ∉ ws.keys := fun hm => hn.1 ((keys_encodeColumns h).subset hm)
          rw [Doc.item_eq_none_iff.mpr hfresh, hu, Option.bind_none]
        · rename_i v hu
          simp only [Option.bind_eq_bind, Option.bind_eq_some_iff, Option.pure_def,
            Option.some.injEq] at h
          obtain ⟨w, hw, ws', -, rfl⟩ := h
          rw [Doc.item_cons_self, hu, Option.bind_some, hw]
      · have hb : (k == c) = false := by simpa using Ne.symm hk
        rw [List.lookup_cons, hb]
        unfold encodeColumns at h
        split at h
        · exact ih hn.2 h
        · simp only [Option.bind_eq_bind, Option.bind_eq_some_iff, Option.pure_def,
            Option.some.injEq] at h
          obtain ⟨w, -, ws', hws, rfl⟩ := h
          rw [Doc.item_cons_of_ne _ hk]
          exact ih hn.2 hws

/-- An update is encoded when each column that it names has a value its encoder takes. -/
theorem isSome_encodeColumns (u : Doc) (encoders : List (String × (Value → Option Value))) :
    (encodeColumns u encoders).isSome =
      encoders.all fun ce => (u.item ce.1).all fun v => (ce.2 v).isSome := by
  induction encoders with
  | nil => rfl
  | cons ce encoders ih =>
      obtain ⟨c, encode⟩ := ce
      unfold encodeColumns
      rw [List.all_cons, ← ih]
      cases u.item c with
      | none => rfl
      | some v =>
          cases hw : encode v with
          | none => simp [hw]
          | some w =>
              cases hws : encodeColumns u encoders <;> simp [hw]

theorem encode_of_mem {u ws : Doc} {encoders : List (String × (Value → Option Value))}
    (hn : (encoders.map (·.1)).Nodup) (h : encodeColumns u encoders = some ws) {k : String}
    {encode : Value → Option Value} (hm : (k, encode) ∈ encoders) {v : Value}
    (hv : u.item k = some v) : ∃ w, ws.item k = some w ∧ encode v = some w := by
  have hsome := isSome_encodeColumns u encoders
  rw [h, Option.isSome_some, eq_comm, List.all_eq_true] at hsome
  have hk := hsome _ hm
  rw [hv, Option.all_some, Option.isSome_iff_exists] at hk
  obtain ⟨w, hw⟩ := hk
  have hlookup : encoders.lookup k = some encode := lookup_of_mem hn hm
  refine ⟨w, ?_, hw⟩
  rw [item_encodeColumns hn h, hlookup, Option.bind_some, hv, Option.bind_some]
  exact hw

theorem item_updateDocJson {update : Doc} (hn : update.keys.Nodup) (existing : Doc)
    (promoted : List String) (k : String) :
    (updateDocJson existing update promoted).item k =
      ((if k ∈ promoted then none else update.item k).or (existing.item k)).map
        (Value.dump 'T') := by
  unfold updateDocJson
  rw [Doc.item_dump, Doc.item_update (hn.sublist (Doc.keys_dropKeys_sublist _ _)),
    Doc.item_dropKeys]

end RagParamsFinder
