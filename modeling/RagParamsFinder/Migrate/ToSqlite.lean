/-
  The migration of run state to SQLite (`scripts/migrate/migrate_run_state_to_sqlite.py`):
  the source readers, the write step and the parity check.

  A write that raises leaves the target as it was (`with conn`) and is `none` here. The
  connection does not enforce foreign keys. MongoDB stores the instants of date-times only: the
  script's own client reads them without a time zone, the one of the adapter with UTC.

  Proved: `item_readBack_promoted` and `item_readBack_rest`: what a stored record reads back
  under each key; `dump_serialize_eq_iff`: which values outside the columns come back as they
  were.
-/
import RagParamsFinder.Lib.KeyedInsert
import RagParamsFinder.Store.PostgresDocs
import RagParamsFinder.Store.SqliteDocs

namespace RagParamsFinder

open Documents KeyedInsert

/-! ## Source records -/

/-- What the writers of run state store under a promoted key, and how the script binds it:
    `filled` is text that is bound with a default. -/
inductive ColumnType where
  | key
  | text
  | filled
  | date
  | integer
  | json
deriving DecidableEq

def ColumnType.admits : ColumnType → Value → Bool
  | .key, .str _ => true
  | .text, .null => true
  | .text, v => isText v
  | .filled, .null => true
  | .filled, v => isText v
  | .date, v => isDate v
  | .integer, .null => true
  | .integer, .int _ => true
  | .json, .null => true
  | .json, .dict _ => true
  | _, _ => false

/-- The promoted keys of a record. -/
abbrev Schema := List (String × ColumnType)

def Schema.Typed (schema : Schema) (d : Doc) : Prop :=
  ∀ c ∈ schema, c.2.admits (d.get c.1) = true

def Schema.names (schema : Schema) : List String := schema.map (·.1)

/-- `exp_promoted`. -/
def experimentSchema : Schema :=
  [("experiment_id", .key), ("experiment_name", .text), ("status", .text),
   ("created_at", .date), ("started_at", .date), ("completed_at", .date),
   ("vector_store_snapshot", .json)]

/-- `run_promoted`. -/
def runSchema : Schema :=
  [("run_id", .key), ("experiment_id", .key), ("phase", .text), ("created_at", .date),
   ("updated_at", .date), ("embedding_dimensions", .integer)]

/-- `res_promoted`. -/
def resultSchema : Schema :=
  [("experiment_id", .key), ("run_id", .key), ("query_id", .key), ("query_text", .filled)]

/-- A MongoDB document, as it is stored: of a date-time only the instant counts. -/
structure MongoRecord (schema : Schema) where
  doc : Doc
  typed : schema.Typed doc

/-- `SELECT *`, as a dictionary. -/
def selectStar (columns : List String) (r : Row) : Doc :=
  columns.map (fun c => (c, r.columns.get c)) ++ [("doc", .dict r.blob)]

/-- A Postgres row. -/
structure PostgresRecord (columns : List String) (schema : Schema) where
  row : Row
  typed : schema.Typed (selectStar columns row)

/-- A record of the source: the document that the script reads, and the document that the
    source adapter reads. They agree on the keys. -/
structure SourceRecord (schema : Schema) where
  raw : Doc
  read : Doc
  typed : schema.Typed raw
  keys : ∀ c ∈ schema, c.2 = .key → read.get c.1 = raw.get c.1

/-- The names of a schema are distinct, `_id` and `doc` are none of them, and the readers
    parse exactly its dates. -/
structure Schema.Proper (schema : Schema) : Prop where
  nodup : schema.names.Nodup
  id : "_id" ∉ schema.names
  doc : "doc" ∉ schema.names
  dates : ∀ c ∈ schema, c.1 ∈ dateColumns ↔ c.2 = .date

theorem experimentSchema_proper : experimentSchema.Proper := by
  constructor <;> decide

theorem runSchema_proper : runSchema.Proper := by
  constructor <;> decide

theorem resultSchema_proper : resultSchema.Proper := by
  constructor <;> decide

theorem get_dropId (d : Doc) {k : String} (h : k ≠ "_id") :
    (d.dropKeys ["_id"]).get k = d.get k :=
  Doc.get_dropKeys (by simpa using h)

theorem Schema.Typed.dropId {schema : Schema} (hp : schema.Proper) {d : Doc}
    (h : schema.Typed d) : schema.Typed (d.dropKeys ["_id"]) := by
  intro c hc
  have hne : c.1 ≠ "_id" := fun he => hp.id (he ▸ List.mem_map.mpr ⟨c, hc, rfl⟩)
  rw [get_dropId d hne]
  exact h c hc

theorem ColumnType.admits_zoned (ty : ColumnType) (aware : Bool) (v : Value) :
    ty.admits (v.zoned aware) = ty.admits v := by
  cases ty <;> cases v <;> rfl

/-- A key is a string, which every client reads alike. -/
theorem ColumnType.zoned_of_key {v : Value} (h : ColumnType.key.admits v = true) (aware : Bool) :
    v.zoned aware = v := by
  cases v <;> first | rfl | cases h

/-- A document of `_read_mongo`, `find({}, {"_id": 0})` through the script's client, and what
    the adapter reads through its own, which is `tz_aware`. -/
def MongoRecord.source {schema : Schema} (hp : schema.Proper) (m : MongoRecord schema) :
    SourceRecord schema where
  raw := (m.doc.zoned false).dropKeys ["_id"]
  read := m.doc.zoned true
  typed := by
    refine Schema.Typed.dropId hp fun c hc => ?_
    rw [Doc.get_zoned, ColumnType.admits_zoned]
    exact m.typed c hc
  keys c hc hk := by
    have hne : c.1 ≠ "_id" := fun he => hp.id (he ▸ List.mem_map.mpr ⟨c, hc, rfl⟩)
    have ht := m.typed c hc
    rw [hk] at ht
    rw [get_dropId _ hne, Doc.get_zoned, Doc.get_zoned, ColumnType.zoned_of_key ht false,
      ColumnType.zoned_of_key ht true]

theorem item_selectStar (columns : List String) (r : Row) (k : String) :
    (selectStar columns r).item k =
      if k ∈ columns then some (r.columns.get k)
      else if k = "doc" then some (.dict r.blob) else none := by
  have hmap := Doc.item_map_columns (fun c => r.columns.get c) columns k
  unfold Doc.item at hmap
  unfold selectStar Doc.item
  rw [List.lookup_append, hmap]
  split
  · rfl
  · split
    · rename_i hk
      subst hk
      exact Doc.item_cons_self [] "doc" _
    · rename_i hk
      exact Doc.item_cons_of_ne [] (Ne.symm hk) _

/-- A row of `_read_postgres`: `SELECT *`, with `columns` the columns of the table beside
    `doc`, and `names` those that the adapter reads. -/
def PostgresRecord.source {columns : List String} {schema : Schema} (names : List String)
    (hn : names.Nodup) (hsub : ∀ k ∈ names, k ∈ columns)
    (hkeys : ∀ c ∈ schema, c.2 = .key → c.1 ∈ names)
    (p : PostgresRecord columns schema) : SourceRecord schema where
  raw := selectStar columns p.row
  read := postgresRowToDoc names p.row
  typed := p.typed
  keys c hc hk := by
    have hname := hkeys c hc hk
    rw [Doc.get_eq_item, Doc.get_eq_item, item_postgresRowToDoc hn, item_selectStar,
      if_pos hname, if_pos (hsub c.1 hname)]

/-- The content of the source store. `results` of Postgres has the column `result_id`. -/
inductive SourceStore where
  | mongo (experiments : List (MongoRecord experimentSchema))
      (runStatus : List (MongoRecord runSchema)) (results : List (MongoRecord resultSchema))
  | postgres (experiments : List (PostgresRecord postgresExperimentColumns experimentSchema))
      (runStatus : List (PostgresRecord postgresRunColumns runSchema))
      (results : List (PostgresRecord ("result_id" :: resultColumns) resultSchema))

/-- What `_read_mongo` and `_read_postgres` return. -/
structure SourceRecords where
  experiments : List (SourceRecord experimentSchema)
  runStatus : List (SourceRecord runSchema)
  results : List (SourceRecord resultSchema)

def postgresExperiment (p : PostgresRecord postgresExperimentColumns experimentSchema) :
    SourceRecord experimentSchema :=
  p.source postgresExperimentColumns (by decide) (by decide) (by decide)

def postgresRun (p : PostgresRecord postgresRunColumns runSchema) : SourceRecord runSchema :=
  p.source postgresRunColumns (by decide) (by decide) (by decide)

def postgresResult (p : PostgresRecord ("result_id" :: resultColumns) resultSchema) :
    SourceRecord resultSchema :=
  p.source resultColumns (by decide) (by decide) (by decide)

def SourceStore.read : SourceStore → SourceRecords
  | .mongo experiments runStatus results =>
      { experiments := experiments.map (MongoRecord.source experimentSchema_proper)
        runStatus := runStatus.map (MongoRecord.source runSchema_proper)
        results := results.map (MongoRecord.source resultSchema_proper) }
  | .postgres experiments runStatus results =>
      { experiments := experiments.map postgresExperiment
        runStatus := runStatus.map postgresRun
        results := results.map postgresResult }

/-! ## The write step -/

structure RunStateDb where
  experiments : List Row
  runStatus : List Row
  results : List Row

def RunStateDb.empty : RunStateDb := ⟨[], [], []⟩

/-- `_serialize`. -/
def serialize : Value → Value
  | .time t => .timeText 'T' t
  | v => v

/-- `_doc_blob`, read back: what is not a top-level date-time goes through `default=str`. -/
def docBlob (record : Doc) (promoted : List String) : Doc :=
  (record.dropKeys promoted).map fun kv => (kv.1, (serialize kv.2).dump ' ')

/-- `_vss`, on `None` or a dictionary; `none` where `json.dumps` raises. -/
def vss (v : Value) : Option Value := if v.hasTime then none else some v

/-- `result.get("query_text", "")`, into a `NOT NULL` column of a plain `INSERT`. -/
def queryText (v : Option Value) : Option Value :=
  match v.getD (.str "") with
  | .null => none
  | w => some w

/-- The value bound to a column; `none` where it raises. -/
def ColumnType.bind : ColumnType → Option Value → Option Value
  | .filled, v => queryText v
  | .date, v => some (serialize (v.getD .null))
  | .json, v => vss (v.getD .null)
  | _, v => some (v.getD .null)

def bindColumns (schema : Schema) (record : Doc) : Option Doc :=
  schema.mapM fun c => (c.2.bind (record.item c.1)).map fun v => (c.1, v)

/-- The values of an insert: the promoted keys go to their columns, the rest to `doc`. -/
def insertValues (schema : Schema) (record : Doc) : Option Row :=
  (bindColumns schema record).map fun columns =>
    { columns := columns, blob := docBlob record schema.names }

def experimentValues (exp : Doc) : Option Row := insertValues experimentSchema exp

def runValues (run : Doc) : Option Row := insertValues runSchema run

def resultValues (result : Doc) : Option Row := insertValues resultSchema result

/-- The text of a key; keys are strings. -/
def boundKey : Value → String
  | .str s => s
  | _ => ""

def resultKey (d : Doc) : String × String × String :=
  (boundKey (d.get "experiment_id"), boundKey (d.get "run_id"), boundKey (d.get "query_id"))

/-- A row that the `NOT NULL` columns take. -/
def acceptsNotNull (notNull : List String) (r : Row) : Bool :=
  notNull.all fun c => (r.columns.item c).any fun v => !(v matches .null)

/-- A turn of the loops over experiments and over run status: a record whose key the target
    held is skipped, the others go through `INSERT OR IGNORE`. -/
def insertTurn (key : String) (notNull : List String) (values : Doc → Option Row)
    (existing : List String) (t : List Row) (record : Doc) : Option (List Row) :=
  if boundKey (record.get key) ∈ existing then some t
  else (values record).map fun row =>
    if acceptsNotNull notNull row = false ∨
        boundKey (row.columns.get key) ∈ t.map (fun r => boundKey (r.columns.get key)) then t
    else t ++ [row]

def insertLoop (key : String) (notNull : List String) (values : Doc → Option Row)
    (t : List Row) (records : List Doc) : Option (List Row) :=
  records.foldlM
    (insertTurn key notNull values (t.map fun r => boundKey (r.columns.get key))) t

def writeExperiments : List Row → List Doc → Option (List Row) :=
  insertLoop "experiment_id" ["experiment_name", "status"] experimentValues

def writeRunStatus : List Row → List Doc → Option (List Row) :=
  insertLoop "run_id" ["experiment_id", "phase"] runValues

/-- A turn of the loop over results, which skips by `(experiment_id, run_id, query_id)`. -/
def resultTurn (t : List Row) (result : Doc) : Option (List Row) :=
  if resultKey result ∈ t.map (fun r => resultKey r.columns) then some t
  else (resultValues result).map fun row => t ++ [row]

def writeResults (t : List Row) (results : List Doc) : Option (List Row) :=
  results.foldlM resultTurn t

/-- `_write_sqlite`, not a dry run. -/
def writeSqlite (db : RunStateDb) (source : SourceRecords) : Option RunStateDb := do
  let experiments ← writeExperiments db.experiments (source.experiments.map (·.raw))
  let runStatus ← writeRunStatus db.runStatus (source.runStatus.map (·.raw))
  let results ← writeResults db.results (source.results.map (·.raw))
  return { experiments, runStatus, results }

/-- `_verify_parity`. -/
def verifyParity (source : SourceRecords) (target : RunStateDb) : Bool :=
  source.experiments.length ≤ target.experiments.length &&
    source.runStatus.length ≤ target.runStatus.length &&
    source.results.length ≤ target.results.length

/-- `result_row_to_doc` of the SQLite adapter. -/
def resultRowToDoc (r : Row) : Doc := readRow resultColumns r

/-- The same record, up to `_id`. -/
def SameRecord (d d' : Doc) : Prop := ∀ k, k ≠ "_id" → d.item k = d'.item k

/-! ## The row of a record -/

theorem bindColumns_cons (c : String × ColumnType) (schema : Schema) (record : Doc) :
    bindColumns (c :: schema) record =
      (c.2.bind (record.item c.1)).bind fun v =>
        (bindColumns schema record).map ((c.1, v) :: ·) := by
  unfold bindColumns
  rw [List.mapM_cons]
  cases c.2.bind (record.item c.1) with
  | none => rfl
  | some v => exact Option.map_eq_bind.symm

theorem bindColumns_spec {schema : Schema} {record columns : Doc}
    (h : bindColumns schema record = some columns) :
    columns.keys = schema.names ∧
      (schema.names.Nodup → ∀ c ∈ schema, columns.item c.1 = c.2.bind (record.item c.1)) := by
  induction schema generalizing columns with
  | nil =>
      obtain rfl := Option.some.inj h
      exact ⟨rfl, fun _ c hc => nomatch hc⟩
  | cons c₀ schema ih =>
      rw [bindColumns_cons, Option.bind_eq_some_iff] at h
      obtain ⟨v, hv, h⟩ := h
      obtain ⟨rest, hrest, rfl⟩ := Option.map_eq_some_iff.mp h
      obtain ⟨hkeys, hitems⟩ := ih hrest
      refine ⟨congrArg (c₀.1 :: ·) hkeys, fun hn c hc => ?_⟩
      obtain ⟨hfresh, hn⟩ := List.nodup_cons.mp hn
      rcases List.mem_cons.mp hc with rfl | hc
      · rw [Doc.item_cons_self, hv]
      · have hne : c₀.1 ≠ c.1 := fun he =>
          hfresh (List.mem_map.mpr ⟨c, hc, he.symm⟩)
        rw [Doc.item_cons_of_ne _ hne]
        exact hitems hn c hc

theorem isSome_bindColumns (schema : Schema) (record : Doc) :
    (bindColumns schema record).isSome = true ↔
      ∀ c ∈ schema, (c.2.bind (record.item c.1)).isSome = true := by
  induction schema with
  | nil => simp [bindColumns]
  | cons c₀ schema ih =>
      rw [List.forall_mem_cons, ← ih, bindColumns_cons]
      cases c₀.2.bind (record.item c₀.1) with
      | none => simp
      | some v => simp

section Row

variable {schema : Schema} {record : Doc} {row : Row}

/-- Each column of a row holds what was bound to it. -/
theorem item_column (hp : schema.Proper) (h : insertValues schema record = some row)
    {c : String × ColumnType} (hc : c ∈ schema) :
    row.columns.item c.1 = c.2.bind (record.item c.1) := by
  obtain ⟨columns, hcolumns, rfl⟩ := Option.map_eq_some_iff.mp h
  exact (bindColumns_spec hcolumns).2 hp.nodup c hc

theorem blob_of_insertValues (h : insertValues schema record = some row) :
    row.blob = docBlob record schema.names := by
  obtain ⟨columns, -, rfl⟩ := Option.map_eq_some_iff.mp h
  rfl

/-- A row is made when every column can be bound. -/
theorem isSome_insertValues :
    (insertValues schema record).isSome = true ↔
      ∀ c ∈ schema, (c.2.bind (record.item c.1)).isSome = true := by
  rw [← isSome_bindColumns, insertValues, Option.isSome_map]

theorem item_docBlob (record : Doc) (promoted : List String) (k : String) :
    (docBlob record promoted).item k =
      if k ∈ promoted then none
      else (record.item k).map fun v => (serialize v).dump ' ' := by
  unfold docBlob
  rw [Doc.item_map_values fun v => (serialize v).dump ' ', Doc.item_dropKeys]
  split <;> rfl

/-- What is read back under a promoted key. -/
theorem item_readBack_promoted (hp : schema.Proper) (h : insertValues schema record = some row)
    {c : String × ColumnType} (hc : c ∈ schema) :
    (readRow schema.names row).item c.1 =
      (c.2.bind (record.item c.1)).map (decodeColumn c.1) := by
  have hname : c.1 ∈ schema.names := List.mem_map.mpr ⟨c, hc, rfl⟩
  have hbound := isSome_insertValues.mp (Option.isSome_iff_exists.mpr ⟨row, h⟩) c hc
  obtain ⟨w, hw⟩ := Option.isSome_iff_exists.mp hbound
  rw [item_readRow hp.nodup, if_pos hname, Doc.get_eq_item, item_column hp h hc, hw]
  rfl

/-- What is read back under another key. -/
theorem item_readBack_rest (hp : schema.Proper) (h : insertValues schema record = some row)
    {k : String} (hk : k ∉ schema.names) :
    (readRow schema.names row).item k =
      (record.item k).map fun v => (serialize v).dump ' ' := by
  rw [item_readRow hp.nodup, if_neg hk, blob_of_insertValues h, item_docBlob, if_neg hk]

end Row

/-! ## What is bound to a column, and read from it -/

theorem parseDatetime_serialize {v : Value} (h : isDate v = true) :
    parseDatetime (serialize v) = v := by
  cases v <;> first | rfl | cases h

/-- A value of a column's type is bound, and then read back as it was, unless it is a
    snapshot with a date-time or a missing text of a filled column. -/
theorem bind_present {c : String × ColumnType} (hdate : c.1 ∈ dateColumns ↔ c.2 = .date)
    {v : Value} (ht : c.2.admits v = true) :
    (∃ w, c.2.bind (some v) = some w ∧ decodeColumn c.1 w = v ∧
        (w = .null ↔ v = .null) ∧ (c.2 ≠ .date → v.hasTime = false) ∧
        (c.2 = .filled → v ≠ .null)) ∨
      (c.2.bind (some v) = none ∧
        (c.2 ≠ .date ∧ v.hasTime = true ∨ c.2 = .filled ∧ v = .null)) := by
  obtain ⟨name, ty⟩ := c
  have hplain : ty ≠ .date → decodeColumn name v = v := fun hne =>
    if_neg fun hm => hne (hdate.mp hm)
  cases ty with
  | key =>
      refine Or.inl ⟨v, rfl, hplain nofun, Iff.rfl, fun _ => ?_, nofun⟩
      cases v <;> first | rfl | cases ht
  | text =>
      refine Or.inl ⟨v, rfl, hplain nofun, Iff.rfl, fun _ => ?_, nofun⟩
      cases v <;> first | rfl | cases ht
  | integer =>
      refine Or.inl ⟨v, rfl, hplain nofun, Iff.rfl, fun _ => ?_, nofun⟩
      cases v <;> first | rfl | cases ht
  | filled =>
      by_cases hnull : v = .null
      · exact Or.inr ⟨by rw [hnull]; rfl, Or.inr ⟨rfl, hnull⟩⟩
      · refine Or.inl ⟨v, ?_, hplain nofun, Iff.rfl, fun _ => ?_, fun _ => hnull⟩
        · cases v <;> first | rfl | exact absurd rfl hnull
        · cases v <;> first | rfl | cases ht
  | date =>
      refine Or.inl ⟨serialize v, rfl, ?_, ?_, fun h => absurd rfl h, nofun⟩
      · change (if name ∈ dateColumns then _ else _) = v
        rw [if_pos (hdate.mpr rfl)]
        exact parseDatetime_serialize ht
      · cases v <;> simp [serialize]
  | json =>
      by_cases htime : v.hasTime = true
      · exact Or.inr ⟨if_pos htime, Or.inl ⟨nofun, htime⟩⟩
      · refine Or.inl ⟨v, if_neg htime, hplain nofun, Iff.rfl, fun _ => ?_, nofun⟩
        exact Bool.eq_false_iff.mpr htime

/-- A value outside the columns comes back as it was when it holds no date-time. -/
theorem dump_serialize_eq_iff {v : Value} :
    (serialize v).dump ' ' = v ↔ v.hasTime = false := by
  constructor
  · intro h
    rw [← h]
    exact Value.hasTime_dump ' ' _
  · intro h
    cases v with
    | time t => cases h
    | _ => exact Value.dump_of_not_hasTime ' ' _ h

end RagParamsFinder
