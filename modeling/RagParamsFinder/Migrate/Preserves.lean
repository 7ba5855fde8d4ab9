/-
  What the migration of run state keeps of the source records.

  The loops of the write step insert records under keys (`insertLoop_eq`,
  `writeResults_eq`). The row of a record reads back as a given document when what the script
  reads of the record stands for it (`StandsFor`, `exists_row_iff_standsFor`). A record is kept
  when that document is the one that the source adapter reads: of MongoDB those of
  `MongoRecord.Survives`, of Postgres none, since the script takes the column `doc` for a key
  of the record.

  Proved: `migration_preserves_iff`: into an empty database the migration keeps every record,
  one to one, exactly when the source is `Migratable`.
-/
import RagParamsFinder.Migrate.ToSqlite

namespace RagParamsFinder

open Documents KeyedInsert

/-! ## The loops insert under keys -/

/-- The row that a loop inserts for a record. -/
def acceptedRow (schema : Schema) (notNull : List String) (record : Doc) : Option Row :=
  (insertValues schema record).filter (acceptsNotNull notNull)

theorem acceptedRow_eq_some {schema : Schema} {notNull : List String} {record : Doc} {row : Row} :
    acceptedRow schema notNull record = some row ↔
      insertValues schema record = some row ∧ acceptsNotNull notNull row = true :=
  Option.filter_eq_some_iff

/-- A key column of a row holds the key of the record. -/
theorem get_key {schema : Schema} (hp : schema.Proper) {record : Doc} {row : Row}
    (h : insertValues schema record = some row) {c : String × ColumnType} (hc : c ∈ schema)
    (hk : c.2 = .key) : row.columns.get c.1 = record.get c.1 := by
  rw [Doc.get_eq_item, item_column hp h hc, hk, Doc.get_eq_item]
  rfl

section Loop

variable {schema : Schema} {notNull : List String} {key : String}

/-- The key of a row of a table with the primary key `key`. -/
def rowKey (key : String) (r : Row) : String := boundKey (r.columns.get key)

theorem insertTurn_eq (hp : schema.Proper) (hkey : (key, ColumnType.key) ∈ schema)
    {existing : List String} {t t' : List Row}
    (hexisting : ∀ k ∈ existing, k ∈ t.map (rowKey key)) {record : Doc}
    (h : insertTurn key notNull (insertValues schema) existing t record = some t') :
    t' = insertRecord (rowKey key) (acceptedRow schema notNull) t record := by
  unfold insertTurn at h
  unfold insertRecord
  split at h
  · rename_i htaken
    obtain rfl := Option.some.inj h
    cases hrow : acceptedRow schema notNull record with
    | none => rfl
    | some row =>
        have hsame : rowKey key row = boundKey (record.get key) :=
          congrArg boundKey (get_key hp (acceptedRow_eq_some.mp hrow).1 hkey rfl)
        exact (if_pos (hsame ▸ hexisting _ htaken)).symm
  · obtain ⟨row, hrow, rfl⟩ := Option.map_eq_some_iff.mp h
    cases haccepts : acceptsNotNull notNull row with
    | false =>
        have hnone : acceptedRow schema notNull record = none := by
          rw [acceptedRow, hrow, Option.filter_some, haccepts]
          rfl
        rw [hnone, if_pos (Or.inl rfl)]
    | true =>
        rw [acceptedRow_eq_some.mpr ⟨hrow, haccepts⟩]
        simp only [Bool.true_eq_false, false_or]
        rfl

theorem foldlM_insertTurn_eq (hp : schema.Proper) (hkey : (key, ColumnType.key) ∈ schema)
    {existing : List String} {t t' : List Row}
    (hexisting : ∀ k ∈ existing, k ∈ t.map (rowKey key)) {records : List Doc}
    (h : records.foldlM (insertTurn key notNull (insertValues schema) existing) t = some t') :
    t' = insertNew (rowKey key) (acceptedRow schema notNull) t records :=
  foldlM_eq_insertNew (fun t => ∀ k ∈ existing, k ∈ t.map (rowKey key))
    (fun _ _ _ ht hturn => insertTurn_eq hp hkey ht hturn)
    (fun _ _ ht k hk => mem_keys_insertRecord.mpr (Or.inl (ht k hk))) hexisting h

/-- A loop that returns has inserted the records under their keys. -/
theorem insertLoop_eq (hp : schema.Proper) (hkey : (key, ColumnType.key) ∈ schema)
    {t t' : List Row} {records : List Doc}
    (h : insertLoop key notNull (insertValues schema) t records = some t') :
    t' = insertNew (rowKey key) (acceptedRow schema notNull) t records :=
  foldlM_insertTurn_eq hp hkey (fun _ hk => hk) h

/-- A loop returns when every record has its values. -/
theorem isSome_insertLoop (key : String) (notNull : List String) (t : List Row)
    {records : List Doc} (h : ∀ record ∈ records, (insertValues schema record).isSome = true) :
    (insertLoop key notNull (insertValues schema) t records).isSome = true := by
  refine isSome_foldlM (fun t record hr => ?_) t
  obtain ⟨row, hrow⟩ := Option.isSome_iff_exists.mp (h record hr)
  unfold insertTurn
  rw [hrow]
  split <;> rfl

end Loop

/-- The key of a row of `results`. -/
def rowResultKey (r : Row) : String × String × String := resultKey r.columns

theorem rowResultKey_eq {record : Doc} {row : Row}
    (h : insertValues resultSchema record = some row) : rowResultKey row = resultKey record := by
  unfold rowResultKey resultKey
  rw [get_key resultSchema_proper h (c := ("experiment_id", .key)) (by decide) rfl,
    get_key resultSchema_proper h (c := ("run_id", .key)) (by decide) rfl,
    get_key resultSchema_proper h (c := ("query_id", .key)) (by decide) rfl]

theorem resultTurn_eq {t t' : List Row} {record : Doc} (h : resultTurn t record = some t') :
    t' = insertRecord rowResultKey resultValues t record := by
  unfold resultTurn at h
  unfold insertRecord
  split at h
  · rename_i htaken
    obtain rfl := Option.some.inj h
    cases hrow : resultValues record with
    | none => rfl
    | some row => exact (if_pos ((rowResultKey_eq hrow).symm ▸ htaken)).symm
  · rename_i hfresh
    obtain ⟨row, hrow, rfl⟩ := Option.map_eq_some_iff.mp h
    rw [hrow]
    exact (if_neg ((rowResultKey_eq hrow).symm ▸ hfresh)).symm

theorem writeResults_eq {t t' : List Row} {records : List Doc}
    (h : writeResults t records = some t') :
    t' = insertNew rowResultKey resultValues t records :=
  foldlM_eq_insertNew (fun _ => True) (fun _ _ _ _ hturn => resultTurn_eq hturn)
    (fun _ _ _ => trivial) trivial h

theorem isSome_writeResults {t : List Row} {records : List Doc}
    (h : ∀ record ∈ records, (resultValues record).isSome = true) :
    (writeResults t records).isSome = true := by
  refine isSome_foldlM (fun t record hr => ?_) t
  obtain ⟨row, hrow⟩ := Option.isSome_iff_exists.mp (h record hr)
  unfold resultTurn
  rw [hrow]
  split <;> rfl

/-! ## Which records are kept -/

/-- The `NOT NULL` columns that a record may leave without a value. -/
def experimentNotNull : List String := ["experiment_name", "status"]

def runNotNull : List String := ["experiment_id", "phase"]

def resultNotNull : List String := ["query_text"]

/-- The record is read back from its own row as the source adapter reads it. -/
def SourceRecord.Kept {schema : Schema} (notNull : List String) (s : SourceRecord schema) :
    Prop :=
  ReadsBack SameRecord (fun s : SourceRecord schema => acceptedRow schema notNull s.raw)
    (readRow schema.names) (·.read) s

theorem item_of_accepts {notNull : List String} {row : Row}
    (h : acceptsNotNull notNull row = true) {k : String} (hk : k ∈ notNull) {w : Value}
    (hw : row.columns.item k = some w) : w ≠ .null := by
  have hall := List.all_eq_true.mp h k hk
  rw [hw, Option.any_some] at hall
  rintro rfl
  cases hall

/-- The value that is bound under a promoted key: of a missing key `None`, or the default. -/
def ColumnType.effective (ty : ColumnType) (v : Option Value) : Value :=
  v.getD (match ty with
    | .filled => .str ""
    | _ => .null)

/-- The insert takes the record: no date-time in a snapshot, and a value in the `NOT NULL`
    columns. -/
def Inserts (schema : Schema) (notNull : List String) (raw : Doc) : Bool :=
  schema.all fun c =>
    let v := c.2.effective (raw.item c.1)
    !(decide (c.2 = .json) && v.hasTime) && !(decide (c.1 ∈ notNull) && isNone v)

/-- What the script reads of a record, `raw`, stands for the document `d`: the insert takes it;
    `d` has every promoted key, with the value that is bound; and the other keys of `d` are
    those of `raw`, with the texts of date-times. -/
structure StandsFor (schema : Schema) (notNull : List String) (raw d : Doc) : Prop where
  inserts : Inserts schema notNull raw = true
  promoted : ∀ c ∈ schema, d.item c.1 = some (c.2.effective (raw.item c.1))
  rest : ∀ k, k ∉ schema.names → k ≠ "_id" →
    d.item k = (raw.item k).map fun v => (serialize v).dump ' '

/-- A MongoDB record that has every promoted key, a value in the `NOT NULL` columns, and no
    date-time: the script reads it without the time zone that the adapter reads. -/
structure MongoRecord.Survives {schema : Schema} (m : MongoRecord schema)
    (notNull : List String) : Prop where
  present : ∀ k ∈ schema.names, m.doc.item k ≠ none
  filled : ∀ k ∈ notNull, m.doc.get k ≠ .null
  noTime : ∀ k v, k ≠ "_id" → m.doc.item k = some v → v.hasTime = false

theorem item_dropId (d : Doc) {k : String} (h : k ≠ "_id") :
    (d.dropKeys ["_id"]).item k = d.item k := by
  rw [Doc.item_dropKeys, if_neg (by simpa using h)]

theorem ColumnType.bind_effective (ty : ColumnType) (v : Option Value) :
    ty.bind v = ty.bind (some (ty.effective v)) := by
  cases ty <;> cases v <;> rfl

theorem ColumnType.admits_effective {ty : ColumnType} {v : Option Value}
    (h : ty.admits (v.getD .null) = true) : ty.admits (ty.effective v) = true := by
  cases v with
  | none => cases ty <;> first | rfl | cases h
  | some v => exact h

theorem ColumnType.hasTime_of_admits {ty : ColumnType} {v : Value} (h : ty.admits v = true)
    (hdate : ty ≠ .date) (hjson : ty ≠ .json) : v.hasTime = false := by
  cases v with
  | time t => cases ty <;> first | exact absurd rfl hdate | cases h
  | list vs => cases ty <;> cases h
  | dict kvs => cases ty <;> first | exact absurd rfl hjson | cases h
  | _ => rfl

/-- A value of a column's type, but no snapshot, that both clients read alike. -/
theorem ColumnType.hasTime_of_zoned_eq {ty : ColumnType} {v : Value} (ht : ty.admits v = true)
    (hjson : ty ≠ .json) (h : v.zoned true = v.zoned false) : v.hasTime = false := by
  cases v with
  | time t => cases h
  | null => rfl
  | _ => exact ColumnType.hasTime_of_admits ht (by rintro rfl; cases ht) hjson

theorem isNone_iff {v : Value} : isNone v = true ↔ v = .null := by
  cases v <;> simp [isNone]

theorem inserts_iff {schema : Schema} {notNull : List String} {raw : Doc} :
    Inserts schema notNull raw = true ↔
      ∀ c ∈ schema, (c.2 = .json → (c.2.effective (raw.item c.1)).hasTime = false) ∧
        (c.1 ∈ notNull → c.2.effective (raw.item c.1) ≠ .null) := by
  unfold Inserts
  rw [List.all_eq_true]
  refine forall₂_congr fun c _ => ?_
  simp [← isNone_iff, imp_iff_not_or]

section Row

variable {schema : Schema} (hp : schema.Proper) {notNull : List String} {raw : Doc}
  (ht : schema.Typed raw)

include hp ht

/-- What is bound under a promoted key, unless the insert refuses it. -/
theorem bind_of_inserts (hfilled : ∀ c ∈ schema, c.2 = .filled → c.1 ∈ notNull)
    (h : Inserts schema notNull raw = true) {c : String × ColumnType} (hc : c ∈ schema) :
    ∃ w, c.2.bind (raw.item c.1) = some w ∧
      decodeColumn c.1 w = c.2.effective (raw.item c.1) ∧
      (w = .null ↔ c.2.effective (raw.item c.1) = .null) := by
  obtain ⟨hjson, hnull⟩ := inserts_iff.mp h c hc
  rw [ColumnType.bind_effective]
  have hv : c.2.admits (c.2.effective (raw.item c.1)) = true :=
    ColumnType.admits_effective (ht c hc)
  rcases bind_present (hp.dates c hc) hv with ⟨w, hw, hdecode, hnull', -⟩ | ⟨hnone, hbad⟩
  · exact ⟨w, hw, hdecode, hnull'⟩
  · rcases hbad with ⟨hdate, htime⟩ | ⟨hty, hempty⟩
    · have hty : c.2 = .json := by
        by_contra hne
        rw [ColumnType.hasTime_of_admits hv hdate hne] at htime
        cases htime
      rw [hjson hty] at htime
      cases htime
    · exact absurd hempty (hnull (hfilled c hc hty))

/-- A row is inserted for exactly the records that the insert takes. -/
theorem isSome_acceptedRow (hfilled : ∀ c ∈ schema, c.2 = .filled → c.1 ∈ notNull)
    (hnames : ∀ k ∈ notNull, k ∈ schema.names) :
    (acceptedRow schema notNull raw).isSome = Inserts schema notNull raw := by
  rw [Bool.eq_iff_iff]
  constructor
  · intro h
    obtain ⟨row, hrow⟩ := Option.isSome_iff_exists.mp h
    obtain ⟨hvalues, haccepts⟩ := acceptedRow_eq_some.mp hrow
    rw [inserts_iff]
    intro c hc
    have hbound := isSome_insertValues.mp (Option.isSome_iff_exists.mpr ⟨row, hvalues⟩) c hc
    rw [ColumnType.bind_effective] at hbound
    have hadmits := ColumnType.admits_effective (v := raw.item c.1) (ht c hc)
    rcases bind_present (hp.dates c hc) hadmits with ⟨w, hw, -, hnull, htime, -⟩ | ⟨hnone, -⟩
    · refine ⟨fun hty => htime (by rw [hty]; simp), fun hk hempty => ?_⟩
      have hcolumn := item_column hp hvalues hc
      rw [ColumnType.bind_effective, hw] at hcolumn
      exact item_of_accepts haccepts hk hcolumn (hnull.mpr hempty)
    · rw [hnone] at hbound
      cases hbound
  · intro h
    have hsome : (insertValues schema raw).isSome = true := by
      rw [isSome_insertValues]
      intro c hc
      obtain ⟨w, hw, -⟩ := bind_of_inserts hp ht hfilled h hc
      rw [hw]
      rfl
    obtain ⟨row, hrow⟩ := Option.isSome_iff_exists.mp hsome
    refine Option.isSome_iff_exists.mpr ⟨row, acceptedRow_eq_some.mpr ⟨hrow, ?_⟩⟩
    refine List.all_eq_true.mpr fun k hk => ?_
    obtain ⟨c, hc, rfl⟩ := List.mem_map.mp (hnames k hk)
    obtain ⟨w, hw, -, hnull⟩ := bind_of_inserts hp ht hfilled h hc
    have hw' : w ≠ .null := fun he => (inserts_iff.mp h c hc).2 hk (hnull.mp he)
    rw [item_column hp hrow hc, hw, Option.any_some]
    cases w <;> first | rfl | exact absurd rfl hw'

/-- The row of a record reads back as `d` exactly when the record stands for it. -/
theorem exists_row_iff_standsFor (hfilled : ∀ c ∈ schema, c.2 = .filled → c.1 ∈ notNull)
    (hnames : ∀ k ∈ notNull, k ∈ schema.names) {d : Doc} :
    (∃ row, acceptedRow schema notNull raw = some row ∧
        SameRecord d (readRow schema.names row)) ↔ StandsFor schema notNull raw d := by
  have hsome := isSome_acceptedRow hp ht hfilled hnames
  have hne : ∀ {k}, k ∈ schema.names → k ≠ "_id" := fun hk he => hp.id (he ▸ hk)
  constructor
  · rintro ⟨row, hrow, hsame⟩
    have hinserts : Inserts schema notNull raw = true := by rw [← hsome, hrow]; rfl
    have hvalues := (acceptedRow_eq_some.mp hrow).1
    refine ⟨hinserts, fun c hc => ?_, fun k hk hid => ?_⟩
    · obtain ⟨w, hw, hdecode, -⟩ := bind_of_inserts hp ht hfilled hinserts hc
      rw [hsame c.1 (hne (List.mem_map.mpr ⟨c, hc, rfl⟩)),
        item_readBack_promoted hp hvalues hc, hw, Option.map_some, hdecode]
    · rw [hsame k hid, item_readBack_rest hp hvalues hk]
  · rintro ⟨hinserts, hpromoted, hrest⟩
    obtain ⟨row, hrow⟩ := Option.isSome_iff_exists.mp (hsome.trans hinserts)
    have hvalues := (acceptedRow_eq_some.mp hrow).1
    refine ⟨row, hrow, fun k hid => ?_⟩
    by_cases hk : k ∈ schema.names
    · obtain ⟨c, hc, rfl⟩ := List.mem_map.mp hk
      obtain ⟨w, hw, hdecode, -⟩ := bind_of_inserts hp ht hfilled hinserts hc
      rw [hpromoted c hc, item_readBack_promoted hp hvalues hc, hw, Option.map_some, hdecode]
    · rw [hrest k hk hid, item_readBack_rest hp hvalues hk]

end Row

section Kept

variable {schema : Schema} (hp : schema.Proper) {notNull : List String}

include hp

/-- The script reads every date without its time zone. -/
theorem MongoRecord.item_raw (m : MongoRecord schema) {k : String} (hid : k ≠ "_id") :
    (m.source hp).raw.item k = (m.doc.item k).map (Value.zoned false) := by
  change ((m.doc.zoned false).dropKeys ["_id"]).item _ = _
  rw [item_dropId _ hid, Doc.item_zoned]

/-- The adapter reads it with one. -/
theorem MongoRecord.item_read (m : MongoRecord schema) (k : String) :
    (m.source hp).read.item k = (m.doc.item k).map (Value.zoned true) :=
  Doc.item_zoned true m.doc k

/-- A value without dates is read alike. -/
theorem MongoRecord.item_timeless (m : MongoRecord schema) {k : String} {v : Value}
    (hid : k ≠ "_id") (hv : m.doc.item k = some v) (htime : v.hasTime = false) :
    (m.source hp).raw.item k = some v ∧ (m.source hp).read.item k = some v := by
  rw [m.item_raw hp hid, m.item_read hp, hv, Option.map_some, Option.map_some,
    Value.zoned_of_not_hasTime false htime, Value.zoned_of_not_hasTime true htime]
  exact ⟨rfl, rfl⟩

/-- What is read alike, or as the text that the blob stores, has no date. -/
theorem MongoRecord.timeless_of_standsFor {m : MongoRecord schema}
    (h : StandsFor schema notNull (m.source hp).raw (m.source hp).read) {k : String} {v : Value}
    (hid : k ≠ "_id") (hv : m.doc.item k = some v) : v.hasTime = false := by
  obtain ⟨hinserts, hpromoted, hrest⟩ := h
  by_cases hk : k ∈ schema.names
  · obtain ⟨c, hc, rfl⟩ := List.mem_map.mp hk
    have hsame := hpromoted c hc
    rw [m.item_read hp, m.item_raw hp hid, hv, Option.map_some, Option.map_some,
      Option.some.injEq] at hsame
    by_cases hty : c.2 = .json
    · have htime := (inserts_iff.mp hinserts c hc).1 hty
      rw [m.item_raw hp hid, hv] at htime
      exact (Value.hasTime_zoned false v).symm.trans htime
    · have htyped := m.typed c hc
      rw [Doc.get_eq_item, hv, Option.getD_some] at htyped
      exact ColumnType.hasTime_of_zoned_eq htyped hty hsame
  · have hsame := hrest k hk hid
    rw [m.item_read hp, m.item_raw hp hid, hv, Option.map_some, Option.map_some, Option.map_some,
      Option.some.injEq] at hsame
    rw [← Value.hasTime_zoned true v, hsame]
    exact Value.hasTime_dump ' ' _

/-- A MongoDB record stands for what the adapter reads of it when it survives. -/
theorem MongoRecord.standsFor_iff (hnames : ∀ k ∈ notNull, k ∈ schema.names)
    (m : MongoRecord schema) :
    StandsFor schema notNull (m.source hp).raw (m.source hp).read ↔ m.Survives notNull := by
  have hne : ∀ {k}, k ∈ schema.names → k ≠ "_id" := fun hk he => hp.id (he ▸ hk)
  constructor
  · intro h
    have hpresent : ∀ k ∈ schema.names, m.doc.item k ≠ none := by
      intro k hk hnone
      obtain ⟨c, hc, rfl⟩ := List.mem_map.mp hk
      have := h.promoted c hc
      rw [m.item_read hp, hnone] at this
      cases this
    refine ⟨hpresent, fun k hk => ?_, fun k v hid hv => m.timeless_of_standsFor hp h hid hv⟩
    obtain ⟨c, hc, rfl⟩ := List.mem_map.mp (hnames k hk)
    have hname : c.1 ∈ schema.names := List.mem_map.mpr ⟨c, hc, rfl⟩
    obtain ⟨v, hv⟩ := Option.ne_none_iff_exists'.mp (hpresent c.1 hname)
    have hnull := (inserts_iff.mp h.inserts c hc).2 hk
    rw [m.item_raw hp (hne hname), hv] at hnull
    rw [Doc.get_eq_item, hv, Option.getD_some]
    exact fun he => hnull (Value.zoned_eq_null_iff.mpr he)
  · rintro ⟨hpresent, hfilled, htime⟩
    have hcolumn : ∀ c ∈ schema, ∃ v, m.doc.item c.1 = some v ∧
        (m.source hp).raw.item c.1 = some v ∧ (m.source hp).read.item c.1 = some v := by
      intro c hc
      have hid := hne (List.mem_map.mpr ⟨c, hc, rfl⟩)
      obtain ⟨v, hv⟩ := Option.ne_none_iff_exists'.mp
        (hpresent c.1 (List.mem_map.mpr ⟨c, hc, rfl⟩))
      exact ⟨v, hv, m.item_timeless hp hid hv (htime c.1 v hid hv)⟩
    refine ⟨inserts_iff.mpr fun c hc => ?_, fun c hc => ?_, fun k hk hid => ?_⟩
    · obtain ⟨v, hv, hr, -⟩ := hcolumn c hc
      rw [hr]
      refine ⟨fun _ => htime c.1 v (hne (List.mem_map.mpr ⟨c, hc, rfl⟩)) hv, fun hk he => ?_⟩
      exact hfilled c.1 hk (by rw [Doc.get_eq_item, hv]; exact he)
    · obtain ⟨v, -, hr, hd⟩ := hcolumn c hc
      rw [hr, hd]
      rfl
    · cases hv : m.doc.item k with
      | none => rw [m.item_read hp, m.item_raw hp hid, hv]; rfl
      | some v =>
          have hnone := htime k v hid hv
          obtain ⟨hr, hd⟩ := m.item_timeless hp hid hv hnone
          rw [hr, hd, Option.map_some, dump_serialize_eq_iff.mpr hnone]

theorem MongoRecord.kept_iff (hfilled : ∀ c ∈ schema, c.2 = .filled → c.1 ∈ notNull)
    (hnames : ∀ k ∈ notNull, k ∈ schema.names) (m : MongoRecord schema) :
    (m.source hp).Kept notNull ↔ m.Survives notNull :=
  (exists_row_iff_standsFor hp (m.source hp).typed hfilled hnames).trans
    (m.standsFor_iff hp hnames)

/-- No Postgres record is kept: its column `doc` becomes a key of the record. -/
theorem not_kept_of_doc (columns names : List String) (hcolumns : "doc" ∉ columns)
    (hn : names.Nodup) (hnames : "doc" ∉ names) {s : SourceRecord schema} {r : Row}
    (hraw : s.raw = selectStar columns r) (hread : s.read = postgresRowToDoc names r) :
    ¬ s.Kept notNull := by
  rintro ⟨row, hrow, hsame⟩
  have hvalues := (acceptedRow_eq_some.mp hrow).1
  have hdoc : s.read.item "doc" = (readRow schema.names row).item "doc" :=
    hsame "doc" (by decide)
  rw [hread, item_postgresRowToDoc hn, if_neg hnames, item_readBack_rest hp hvalues hp.doc,
    hraw, item_selectStar, if_neg hcolumns, if_pos rfl, Option.map_some] at hdoc
  change r.blob.item "doc" = some ((Value.dict r.blob).dump ' ') at hdoc
  refine Doc.item_ne_self (r.blob.dump ' ') "doc" ?_
  rw [Doc.item_dump, hdoc, Option.map_some, Value.dump_dump, Value.dump_dict]

end Kept

/-! ## The migration into an empty database -/

theorem insertNew_map {α β ρ κ : Type} [DecidableEq κ] (rowKey : ρ → κ) (toRow : β → Option ρ)
    (f : α → β) (t : List ρ) (as : List α) :
    insertNew rowKey toRow t (as.map f) = insertNew rowKey (toRow ∘ f) t as :=
  List.foldl_map

theorem SameRecord.get_eq {d d' : Doc} (h : SameRecord d d') {k : String} (hk : k ≠ "_id") :
    d.get k = d'.get k := by
  rw [Doc.get_eq_item, Doc.get_eq_item, h k hk]

theorem get_readRow_key {schema : Schema} (hp : schema.Proper) (r : Row)
    {c : String × ColumnType} (hc : c ∈ schema) (hk : c.2 = .key) :
    (readRow schema.names r).get c.1 = r.columns.get c.1 := by
  have hdate : c.1 ∉ dateColumns := fun hm => by
    rw [(hp.dates c hc).mp hm] at hk
    cases hk
  have hname : c.1 ∈ schema.names := List.mem_map.mpr ⟨c, hc, rfl⟩
  rw [Doc.get_eq_item, item_readRow hp.nodup, if_pos hname, Option.getD_some, decodeColumn,
    if_neg hdate]

/-- A function of the key columns. -/
def KeyFunction {κ : Type} (schema : Schema) (keyOf : Doc → κ) : Prop :=
  ∀ d d', (∀ c ∈ schema, c.2 = .key → d.get c.1 = d'.get c.1) → keyOf d = keyOf d'

theorem KeyFunction.of_same {κ : Type} {schema : Schema} {keyOf : Doc → κ}
    (hkey : KeyFunction schema keyOf) (hp : schema.Proper) (d d' : Doc) (h : SameRecord d d') :
    keyOf d = keyOf d' :=
  hkey d d' fun c hc _ => h.get_eq fun he => hp.id (he ▸ List.mem_map.mpr ⟨c, hc, rfl⟩)

theorem KeyFunction.readRow {κ : Type} {schema : Schema} {keyOf : Doc → κ}
    (hkey : KeyFunction schema keyOf) (hp : schema.Proper) (r : Row) :
    keyOf (readRow schema.names r) = keyOf r.columns :=
  hkey _ _ fun _ hc hk => get_readRow_key hp r hc hk

section Table

variable {schema : Schema} {notNull : List String} {κ : Type} [DecidableEq κ] {keyOf : Doc → κ}

/-- One table of the migration: its rows match the records one to one exactly when every
    record is kept and no two share a key. -/
theorem table_matches_iff (hp : schema.Proper) (hkey : KeyFunction schema keyOf)
    (records : List (SourceRecord schema)) :
    Matches SameRecord (records.map (·.read))
        ((insertNew (fun r : Row => keyOf r.columns) (acceptedRow schema notNull) []
          (records.map (·.raw))).map (readRow schema.names)) ↔
      (∀ s ∈ records, s.Kept notNull) ∧ (records.map fun s => keyOf s.raw).Nodup := by
  rw [insertNew_map]
  exact reads_back_iff (hkey.of_same hp) (fun _ r _ => hkey.readRow hp r)
    (fun _ _ h => hkey _ _ fun c hc hk => get_key hp (acceptedRow_eq_some.mp h).1 hc hk)
    (fun s => hkey _ _ fun c hc hk => s.keys c hc hk) records

end Table

theorem experimentKey_function :
    KeyFunction experimentSchema fun d => boundKey (d.get "experiment_id") := fun _ _ h =>
  congrArg boundKey (h ("experiment_id", .key) (by decide) rfl)

theorem runKey_function : KeyFunction runSchema fun d => boundKey (d.get "run_id") := fun _ _ h =>
  congrArg boundKey (h ("run_id", .key) (by decide) rfl)

theorem resultKey_function : KeyFunction resultSchema resultKey := by
  intro d d' h
  unfold resultKey
  rw [h ("experiment_id", .key) (by decide) rfl, h ("run_id", .key) (by decide) rfl,
    h ("query_id", .key) (by decide) rfl]

theorem queryText_ne_null {v : Option Value} {w : Value} (h : queryText v = some w) :
    w ≠ .null := by
  rintro rfl
  unfold queryText at h
  split at h
  · cases h
  · rename_i hne
    exact hne (Option.some.inj h)

/-- The plain `INSERT` of a result refuses what the `NOT NULL` column would. -/
theorem resultValues_eq (record : Doc) :
    resultValues record = acceptedRow resultSchema resultNotNull record := by
  unfold resultValues acceptedRow
  cases hrow : insertValues resultSchema record with
  | none => rfl
  | some row =>
      have hcolumn := item_column resultSchema_proper hrow (c := ("query_text", .filled))
        (by decide)
      have hbound := isSome_insertValues.mp (Option.isSome_iff_exists.mpr ⟨row, hrow⟩)
        ("query_text", .filled) (by decide)
      obtain ⟨w, hw⟩ := Option.isSome_iff_exists.mp hbound
      have hne : w ≠ .null := queryText_ne_null hw
      have haccepts : acceptsNotNull resultNotNull row = true := by
        unfold acceptsNotNull resultNotNull
        rw [List.all_cons, List.all_nil, hcolumn, hw, Option.any_some]
        cases w <;> first | rfl | exact absurd rfl hne
      rw [Option.filter_some, haccepts]
      rfl

/-- The tables after a write that returns. -/
theorem writeSqlite_eq {db db' : RunStateDb} {source : SourceRecords}
    (h : writeSqlite db source = some db') :
    db'.experiments = insertNew (rowKey "experiment_id")
        (acceptedRow experimentSchema experimentNotNull) db.experiments
        (source.experiments.map (·.raw)) ∧
      db'.runStatus = insertNew (rowKey "run_id") (acceptedRow runSchema runNotNull)
        db.runStatus (source.runStatus.map (·.raw)) ∧
      db'.results = insertNew rowResultKey (acceptedRow resultSchema resultNotNull)
        db.results (source.results.map (·.raw)) := by
  unfold writeSqlite at h
  simp only [Option.bind_eq_bind, Option.bind_eq_some_iff, Option.pure_def,
    Option.some.injEq] at h
  obtain ⟨experiments, he, runStatus, hr, results, hs, rfl⟩ := h
  refine ⟨insertLoop_eq experimentSchema_proper (by decide) he,
    insertLoop_eq runSchema_proper (by decide) hr, ?_⟩
  rw [← funext resultValues_eq]
  exact writeResults_eq hs

theorem SourceRecord.Kept.isSome {schema : Schema} {notNull : List String}
    {s : SourceRecord schema} (h : s.Kept notNull) :
    (insertValues schema s.raw).isSome = true := by
  obtain ⟨row, hrow, -⟩ := h
  exact Option.isSome_iff_exists.mpr ⟨row, (acceptedRow_eq_some.mp hrow).1⟩

/-- A write of kept records returns. -/
theorem isSome_writeSqlite (db : RunStateDb) {source : SourceRecords}
    (he : ∀ s ∈ source.experiments, s.Kept experimentNotNull)
    (hr : ∀ s ∈ source.runStatus, s.Kept runNotNull)
    (hs : ∀ s ∈ source.results, s.Kept resultNotNull) :
    (writeSqlite db source).isSome = true := by
  have hvalues : ∀ {schema : Schema} {notNull : List String}
      {records : List (SourceRecord schema)}, (∀ s ∈ records, s.Kept notNull) →
      ∀ record ∈ records.map (·.raw), (insertValues schema record).isSome = true := by
    intro schema notNull records h record hm
    obtain ⟨s, hs, rfl⟩ := List.mem_map.mp hm
    exact (h s hs).isSome
  obtain ⟨experiments, hexperiments⟩ := Option.isSome_iff_exists.mp
    (isSome_insertLoop "experiment_id" experimentNotNull db.experiments (hvalues he))
  obtain ⟨runStatus, hrunStatus⟩ := Option.isSome_iff_exists.mp
    (isSome_insertLoop "run_id" runNotNull db.runStatus (hvalues hr))
  obtain ⟨results, hresults⟩ := Option.isSome_iff_exists.mp
    (isSome_writeResults (t := db.results) (hvalues hs))
  change writeExperiments _ _ = _ at hexperiments
  change writeRunStatus _ _ = _ at hrunStatus
  unfold writeSqlite
  rw [hexperiments, Option.bind_eq_bind, Option.bind_some, hrunStatus]
  change ((writeResults db.results _).bind _).isSome = true
  rw [hresults]
  rfl

/-- The documents that both adapters read are the same, one to one. -/
def MigrationPreserves (source : SourceStore) : Prop :=
  ∃ db, writeSqlite .empty source.read = some db ∧
    Matches SameRecord (source.read.experiments.map (·.read))
      (db.experiments.map (experimentRowToDoc · false)) ∧
    Matches SameRecord (source.read.runStatus.map (·.read)) (db.runStatus.map runRowToDoc) ∧
    Matches SameRecord (source.read.results.map (·.read)) (db.results.map resultRowToDoc)

/-- The migration keeps the source when it keeps each record and no two share a key. -/
theorem migrationPreserves_iff_kept (source : SourceStore) :
    MigrationPreserves source ↔
      ((∀ s ∈ source.read.experiments, s.Kept experimentNotNull) ∧
        (source.read.experiments.map fun s => boundKey (s.raw.get "experiment_id")).Nodup) ∧
      ((∀ s ∈ source.read.runStatus, s.Kept runNotNull) ∧
        (source.read.runStatus.map fun s => boundKey (s.raw.get "run_id")).Nodup) ∧
      ((∀ s ∈ source.read.results, s.Kept resultNotNull) ∧
        (source.read.results.map fun s => resultKey s.raw).Nodup) := by
  rw [← table_matches_iff experimentSchema_proper experimentKey_function,
    ← table_matches_iff runSchema_proper runKey_function,
    ← table_matches_iff resultSchema_proper resultKey_function]
  constructor
  · rintro ⟨db, hdb, hexperiments, hrunStatus, hresults⟩
    obtain ⟨he, hr, hs⟩ := writeSqlite_eq hdb
    rw [he] at hexperiments
    rw [hr] at hrunStatus
    rw [hs] at hresults
    exact ⟨hexperiments, hrunStatus, hresults⟩
  · intro h
    obtain ⟨db, hdb⟩ := Option.isSome_iff_exists.mp (isSome_writeSqlite .empty
      ((table_matches_iff experimentSchema_proper experimentKey_function _).mp h.1).1
      ((table_matches_iff runSchema_proper runKey_function _).mp h.2.1).1
      ((table_matches_iff resultSchema_proper resultKey_function _).mp h.2.2).1)
    obtain ⟨he, hr, hs⟩ := writeSqlite_eq hdb
    refine ⟨db, hdb, ?_, ?_, ?_⟩
    · rw [he]
      exact h.1
    · rw [hr]
      exact h.2.1
    · rw [hs]
      exact h.2.2

/-- A MongoDB source whose records survive, with distinct ids and distinct result keys; or an
    empty Postgres source. -/
def SourceStore.Migratable : SourceStore → Prop
  | .mongo experiments runStatus results =>
      ((∀ m ∈ experiments, m.Survives experimentNotNull) ∧
        (experiments.map fun m => boundKey (m.doc.get "experiment_id")).Nodup) ∧
      ((∀ m ∈ runStatus, m.Survives runNotNull) ∧
        (runStatus.map fun m => boundKey (m.doc.get "run_id")).Nodup) ∧
      ((∀ m ∈ results, m.Survives resultNotNull) ∧
        (results.map fun m => resultKey m.doc).Nodup)
  | .postgres experiments runStatus results =>
      experiments = [] ∧ runStatus = [] ∧ results = []

theorem mongo_table_iff {schema : Schema} {notNull : List String} {κ : Type} {keyOf : Doc → κ}
    (hp : schema.Proper) (hkey : KeyFunction schema keyOf)
    (hfilled : ∀ c ∈ schema, c.2 = .filled → c.1 ∈ notNull)
    (hnames : ∀ k ∈ notNull, k ∈ schema.names) (records : List (MongoRecord schema)) :
    ((∀ s ∈ records.map (MongoRecord.source hp), s.Kept notNull) ∧
        ((records.map (MongoRecord.source hp)).map fun s => keyOf s.raw).Nodup) ↔
      (∀ m ∈ records, m.Survives notNull) ∧ (records.map fun m => keyOf m.doc).Nodup := by
  have hkeys : (records.map (MongoRecord.source hp)).map (fun s => keyOf s.raw) =
      records.map fun m => keyOf m.doc := by
    rw [List.map_map]
    refine List.map_congr_left fun m _ => hkey _ _ fun c hc hk => ?_
    have ht := m.typed c hc
    rw [hk] at ht
    change (m.source hp).raw.get c.1 = _
    rw [← (m.source hp).keys c hc hk]
    exact (Doc.get_zoned true m.doc c.1).trans (ColumnType.zoned_of_key ht true)
  rw [hkeys, List.forall_mem_map]
  exact and_congr_left' (forall₂_congr fun m _ => m.kept_iff hp hfilled hnames)

theorem postgres_table_iff {α : Type} {schema : Schema} {notNull : List String} {κ : Type}
    (keyOf : Doc → κ) {source : α → SourceRecord schema}
    (h : ∀ p, ¬ (source p).Kept notNull) (records : List α) :
    ((∀ s ∈ records.map source, s.Kept notNull) ∧
        ((records.map source).map fun s => keyOf s.raw).Nodup) ↔ records = [] := by
  constructor
  · rintro ⟨hkept, -⟩
    refine List.eq_nil_iff_forall_not_mem.mpr fun p hp => ?_
    exact h p (hkept _ (List.mem_map.mpr ⟨p, hp, rfl⟩))
  · rintro rfl
    exact ⟨fun s hs => (nomatch hs), List.nodup_nil⟩

theorem not_kept_postgresExperiment
    (p : PostgresRecord postgresExperimentColumns experimentSchema) :
    ¬ (postgresExperiment p).Kept experimentNotNull :=
  not_kept_of_doc experimentSchema_proper postgresExperimentColumns postgresExperimentColumns
    (by decide) (by decide) (by decide) rfl rfl

theorem not_kept_postgresRun (p : PostgresRecord postgresRunColumns runSchema) :
    ¬ (postgresRun p).Kept runNotNull :=
  not_kept_of_doc runSchema_proper postgresRunColumns postgresRunColumns
    (by decide) (by decide) (by decide) rfl rfl

theorem not_kept_postgresResult
    (p : PostgresRecord ("result_id" :: resultColumns) resultSchema) :
    ¬ (postgresResult p).Kept resultNotNull :=
  not_kept_of_doc resultSchema_proper ("result_id" :: resultColumns) resultColumns
    (by decide) (by decide) (by decide) rfl rfl

/-- Into an empty database, the migration keeps every record of the source, one to one,
    exactly when the source is migratable. -/
theorem migration_preserves_iff (source : SourceStore) :
    MigrationPreserves source ↔ source.Migratable := by
  rw [migrationPreserves_iff_kept]
  cases source with
  | mongo experiments runStatus results =>
      exact and_congr
        (mongo_table_iff experimentSchema_proper experimentKey_function (by decide) (by decide)
          experiments)
        (and_congr
          (mongo_table_iff runSchema_proper runKey_function (by decide) (by decide) runStatus)
          (mongo_table_iff resultSchema_proper resultKey_function (by decide) (by decide)
            results))
  | postgres experiments runStatus results =>
      exact and_congr
        (postgres_table_iff (fun d => boundKey (d.get "experiment_id"))
          not_kept_postgresExperiment experiments)
        (and_congr
          (postgres_table_iff (fun d => boundKey (d.get "run_id"))
            not_kept_postgresRun runStatus)
          (postgres_table_iff resultKey not_kept_postgresResult results))

/-- A Postgres row of a finished sweep. -/
def finishedRow : Row where
  columns := [("experiment_id", .str "e1"), ("experiment_name", .str "sweep"),
    ("status", .str "complete"), ("created_at", .time 1), ("started_at", .time 2),
    ("completed_at", .time 3)]
  blob := [("run_count", .int 4)]

theorem finishedRow_typed :
    experimentSchema.Typed (selectStar postgresExperimentColumns finishedRow) := by
  unfold Schema.Typed
  decide

def postgresSource : SourceStore := .postgres [⟨finishedRow, finishedRow_typed⟩] [] []

/-- The migrated experiment has its `run_count` nested under `doc`. -/
theorem postgres_document_nested :
    ¬ MigrationPreserves postgresSource ∧
      (writeSqlite .empty postgresSource.read).map (fun db =>
        db.experiments.map fun r =>
          ((experimentRowToDoc r false).item "run_count",
            (experimentRowToDoc r false).item "doc")) =
      some [(none, some (.dict [("run_count", .int 4)]))] := by
  refine ⟨fun h => ?_, rfl⟩
  have hkept := ((migrationPreserves_iff_kept postgresSource).mp h).1.1
  exact not_kept_postgresExperiment _ (hkept _ (List.mem_cons_self ..))

end RagParamsFinder
