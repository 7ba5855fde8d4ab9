/-
  The SQLite adapter against a plain map of documents.

  The map keeps each document as one dictionary. A run without a phase or without its stored
  experiment, and an update that gives a column without default `None` or a snapshot that
  `json.dumps` refuses, change nothing; an insert fills in the adapter's defaults; an update
  leaves the primary key. Two documents are the same up to the alias `_id`, an absent promoted
  key for a null one, and the ISO text of a date-time.

  Proved: `sqlite_reads_as_map`: after any sequence of calls, with payloads whose promoted
  values have the types of their columns, the documents read back are those of the map, and no
  blob holds a promoted key. Left out are updates that name a snapshot such as `{}`, which
  `update_experiment` stores as `NULL` where `insert_experiment` keeps it.
-/
import RagParamsFinder.Store.SqliteDocs

namespace RagParamsFinder

open Documents Tables

/-! ## Calls -/

/-- One call of the adapter; payloads are dictionaries. -/
inductive StoreCall where
  | insertExperiment (doc : Dict)
  | insertRunStatus (doc : Dict)
  | updateExperiment (id : String) (update : Dict)
  | markExperimentCancelled (id : String) (now : Int)
  | markExperimentPaused (id : String) (now : Int)
  | markExperimentRunning (id : String)
  | updateRunPhase (runId phase : String) (updatedAt elapsedMs : Int)
      (errorMessage : Option String)
  | markRunsInterrupted (runIds : List String) (updatedAt : Int) (errorMessage : String)

def sqliteCall (s : SqliteStore) : StoreCall → SqliteStore
  | .insertExperiment doc => s.insertExperiment doc.items
  | .insertRunStatus doc => s.insertRunStatus doc.items
  | .updateExperiment id update => s.updateExperiment id update.items
  | .markExperimentCancelled id now => s.markExperimentTerminal id .cancelled now
  | .markExperimentPaused id now => s.markExperimentTerminal id .paused now
  | .markExperimentRunning id => s.markExperimentRunning id
  | .updateRunPhase runId phase updatedAt elapsedMs errorMessage =>
      s.updateRunPhase runId phase updatedAt elapsedMs errorMessage
  | .markRunsInterrupted runIds updatedAt errorMessage =>
      s.markRunsInterrupted runIds updatedAt errorMessage

/-! ## The map -/

structure DocMap where
  experiments : Table Doc
  runStatus : Table Doc

/-- The promoted values of the payload have the types of their columns. -/
def StoreCall.Typed : StoreCall → Prop
  | .insertExperiment doc => TypedPayload sqliteExperimentColumns doc.items
  | .insertRunStatus doc => TypedPayload sqliteRunColumns doc.items
  | .updateExperiment _ update => TypedPayload (experimentEncoders.map (·.1)) update.items
  | _ => True

/-- A name or a status is not set to `None`, and a snapshot is serialisable. -/
def acceptsUpdate (update : Doc) : Bool :=
  ["experiment_name", "status"].all (fun c => (update.item c).all fun v => !isNone v) &&
    (update.item "vector_store_snapshot").all fun v => !(v.truthy && v.hasTime)

/-- A missing name, status or snapshot gets its default. -/
def withExperimentDefaults (doc : Doc) : Doc :=
  ((doc.set "experiment_name" ((doc.get "experiment_name").orElse (.str ""))).set
    "status" ((doc.get "status").orElse (.str ExperimentStatus.running.value))).set
    "vector_store_snapshot" (snapshotOnInsert (doc.get "vector_store_snapshot"))

/-- The dimensions are stored as an integer. -/
def withIntDimensions (doc : Doc) : Doc :=
  doc.set "embedding_dimensions"
    ((bindDimensions (doc.get "embedding_dimensions")).getD .null)

def statusUpdate (status : ExperimentStatus) (completedAt : Value) : Doc :=
  [("status", .str status.value), ("completed_at", completedAt)]

def phaseUpdate (phase : String) (updatedAt elapsedMs : Int) (errorMessage : Option String) :
    Doc :=
  [("phase", .str phase), ("updated_at", .time updatedAt), ("elapsed_ms", .int elapsedMs),
   ("error_message", (errorMessage.map Value.str).getD .null)]

def interruptedUpdate (updatedAt : Int) (errorMessage : String) : Doc :=
  [("phase", .str Phase.interrupted.value), ("updated_at", .time updatedAt),
   ("error_message", .str errorMessage)]

namespace DocMap

def empty : DocMap := ⟨[], []⟩

def insertExperiment (m : DocMap) (doc : Doc) : DocMap :=
  match idOf (doc.get "experiment_id") with
  | some id =>
      { m with experiments := m.experiments.insertOrIgnore id (withExperimentDefaults doc) }
  | none => m

def insertRunStatus (m : DocMap) (doc : Doc) : DocMap :=
  match idOf (doc.get "run_id"), idOf (doc.get "experiment_id") with
  | some runId, some id =>
      if isNone (doc.get "phase") = false ∧ (m.experiments.find id).isSome then
        { m with runStatus := m.runStatus.insertOrIgnore runId (withIntDimensions doc) }
      else m
  | _, _ => m

/-- `d.update(update)` on one experiment. -/
def updateDoc (m : DocMap) (id : String) (update : Doc) : DocMap :=
  { m with experiments := m.experiments.modify id (·.update update) }

def updateRun (m : DocMap) (runId : String) (update : Doc) : DocMap :=
  { m with runStatus := m.runStatus.modify runId (·.update update) }

/-- The primary key is not assigned. -/
def updateExperiment (m : DocMap) (id : String) (update : Doc) : DocMap :=
  if acceptsUpdate update then m.updateDoc id (update.dropKeys ["experiment_id"]) else m

def call (m : DocMap) : StoreCall → DocMap
  | .insertExperiment doc => m.insertExperiment doc.items
  | .insertRunStatus doc => m.insertRunStatus doc.items
  | .updateExperiment id update => m.updateExperiment id update.items
  | .markExperimentCancelled id now => m.updateDoc id (statusUpdate .cancelled (.time now))
  | .markExperimentPaused id now => m.updateDoc id (statusUpdate .paused (.time now))
  | .markExperimentRunning id => m.updateDoc id (statusUpdate .running .null)
  | .updateRunPhase runId phase updatedAt elapsedMs errorMessage =>
      m.updateRun runId (phaseUpdate phase updatedAt elapsedMs errorMessage)
  | .markRunsInterrupted runIds updatedAt errorMessage =>
      runIds.foldl (fun m runId => m.updateRun runId
        (interruptedUpdate updatedAt errorMessage)) m

end DocMap

/-! ## Sameness -/

/-- The same value, date-times in ISO form. -/
def SameValue (v w : Value) : Prop := v.dump 'T' = w.dump 'T'

/-- The same document, up to `_id` and to absent promoted keys. -/
def SameDoc (columns : List String) (d d' : Doc) : Prop :=
  ∀ k, k ≠ "_id" →
    if k ∈ columns then SameValue (d.get k) (d'.get k)
    else (d.item k).map (Value.dump 'T') = (d'.item k).map (Value.dump 'T')

theorem SameValue.rfl {v : Value} : SameValue v v := Eq.refl _

theorem SameValue.trans {u v w : Value} (h : SameValue u v) (h' : SameValue v w) :
    SameValue u w := Eq.trans h h'

/-- A row reads as a document: column by column, and the blob for the rest. -/
theorem sameDoc_readRow_iff {columns : List String} (hn : columns.Nodup) (r : Row) (d : Doc) :
    SameDoc columns (readRow columns r) d ↔
      ∀ k, k ≠ "_id" →
        if k ∈ columns then SameValue (decodeColumn k (r.columns.get k)) (d.get k)
        else (r.blob.item k).map (Value.dump 'T') = (d.item k).map (Value.dump 'T') := by
  refine forall₂_congr fun k _ => ?_
  rw [Doc.get_eq_item (readRow columns r), item_readRow hn]
  by_cases hk : k ∈ columns <;> simp [hk]

theorem parseDatetime_of_serialize {v w : Value} (h : serializeDatetime v = some w) :
    parseDatetime w = v := by
  unfold serializeDatetime at h
  split at h
  · obtain rfl := Option.some.inj h
    rfl
  · obtain rfl := Option.some.inj h
    rfl
  · cases h

theorem bindText_eq_some {v w : Value} (h : bindText v = some w) : w = v := by
  unfold bindText at h
  split at h
  · exact (Option.some.inj h).symm
  · cases h

theorem isSome_bindText (v : Value) : (bindText v).isSome = isText v := by
  unfold bindText
  cases h : isText v <;> rfl

theorem isSome_serializeDatetime (v : Value) : (serializeDatetime v).isSome = isDate v := by
  cases v <;> rfl

theorem any_const {α : Type} (o : Option α) (b : Bool) :
    (o.any fun _ => b) = (o.isSome && b) := by
  cases o <;> rfl

theorem isText_of_idOf {v : Value} (h : (idOf v).isSome = true) : isText v = true := by
  cases v <;> first | rfl | cases h

theorem isText_eq {v : Value} (h : (isNone v || isText v) = true) : isText v = !isNone v := by
  cases v <;> first | rfl | cases h

theorem isText_orElse {v : Value} (h : (isNone v || isText v) = true) (s : String) :
    isText (v.orElse (.str s)) = true := by
  unfold Value.orElse
  split
  · rename_i hv
    rw [isText_eq h]
    cases v <;> first | rfl | cases hv
  · rfl

theorem isSome_bindDimensions {v : Value} (h : isDimensions v = true) :
    (bindDimensions v).isSome = true := by
  unfold isDimensions at h
  split at h
  · rename_i hb; rw [hb]; rfl
  · rename_i hb; rw [hb]; rfl
  · cases h

/-- A payload of the right types is a row. -/
theorem isSome_experimentRow {doc : Doc} (h : TypedPayload sqliteExperimentColumns doc) :
    (experimentRow doc).isSome = true := by
  have hid := h "experiment_id" (by decide)
  have hname := h "experiment_name" (by decide)
  have hstatus := h "status" (by decide)
  have hcreated := h "created_at" (by decide)
  have hstarted := h "started_at" (by decide)
  have hcompleted := h "completed_at" (by decide)
  simp only [fitsColumn, dateColumns, List.mem_cons, List.not_mem_nil, String.reduceEq,
    or_false, or_true, if_true, if_false] at hid hname hstatus hcreated hstarted hcompleted
  unfold experimentRow
  simp only [Option.bind_eq_bind, Option.isSome_bind, Option.pure_def, Option.isSome_some,
    any_const, isSome_bindText, isSome_serializeDatetime, Bool.and_true, Bool.and_eq_true]
  exact ⟨isText_of_idOf hid, isText_orElse hname _, isText_orElse hstatus _, hcreated, hstarted,
    hcompleted⟩

/-- A run of the right types is a row if it has a phase. -/
theorem isSome_runRow {doc : Doc} (h : TypedPayload sqliteRunColumns doc) :
    (runRow doc).isSome = !isNone (doc.get "phase") := by
  have hrun := h "run_id" (by decide)
  have hid := h "experiment_id" (by decide)
  have hphase := h "phase" (by decide)
  have hcreated := h "created_at" (by decide)
  have hupdated := h "updated_at" (by decide)
  have hdims := h "embedding_dimensions" (by decide)
  simp only [fitsColumn, dateColumns, List.mem_cons, List.not_mem_nil, String.reduceEq,
    or_false, or_true, if_true, if_false] at hrun hid hphase hcreated hupdated hdims
  unfold runRow
  simp only [Option.bind_eq_bind, Option.isSome_bind, Option.pure_def, Option.isSome_some,
    any_const, isSome_bindText, isSome_serializeDatetime, Bool.and_true]
  rw [isText_of_idOf hrun, isText_of_idOf hid, isText_eq hphase, hcreated, hupdated,
    isSome_bindDimensions hdims]
  simp

/-! ## Inserts -/

/-- Away from the promoted keys the JSON text holds the document. -/
theorem map_dump_toJson (doc : Doc) {promoted : List String} {k : String} (hk : k ∉ promoted)
    (hid : k ≠ "_id") :
    ((toJson doc promoted).item k).map (Value.dump 'T') =
      (doc.item k).map (Value.dump 'T') := by
  have hdrop : k ∉ promoted ++ derivedKeys := by simp [derivedKeys, hk, hid]
  rw [toJson, Doc.item_dump, Doc.item_dropKeys, if_neg hdrop, Option.map_map]
  congr 1
  funext v
  exact Value.dump_dump 'T' 'T' v

/-- What the defaults leave under each key. -/
theorem item_withExperimentDefaults (doc : Doc) (k : String) :
    (withExperimentDefaults doc).item k =
      if "vector_store_snapshot" = k then
        some (snapshotOnInsert (doc.get "vector_store_snapshot"))
      else if "status" = k then
        some ((doc.get "status").orElse (.str ExperimentStatus.running.value))
      else if "experiment_name" = k then
        some ((doc.get "experiment_name").orElse (.str ""))
      else doc.item k := by
  unfold withExperimentDefaults
  rw [Doc.item_set, Doc.item_set, Doc.item_set]

theorem sameDoc_experimentRow {doc : Doc} {row : Row} (h : experimentRow doc = some row) :
    SameDoc sqliteExperimentColumns (readRow sqliteExperimentColumns row)
      (withExperimentDefaults doc) := by
  unfold experimentRow at h
  simp only [Option.bind_eq_bind, Option.bind_eq_some_iff, Option.pure_def,
    Option.some.injEq] at h
  obtain ⟨id, hid, name, hname, status, hstatus, created, hcreated, started, hstarted,
    completed, hcompleted, rfl⟩ := h
  obtain rfl := bindText_eq_some hid
  obtain rfl := bindText_eq_some hname
  obtain rfl := bindText_eq_some hstatus
  rw [sameDoc_readRow_iff (by decide)]
  intro k hk
  by_cases hc : k ∈ sqliteExperimentColumns
  · rw [if_pos hc, Doc.get_eq_item (withExperimentDefaults doc), item_withExperimentDefaults]
    simp only [sqliteExperimentColumns, List.mem_cons, List.not_mem_nil, or_false] at hc
    rcases hc with rfl | rfl | rfl | rfl | rfl | rfl | rfl
    · exact SameValue.rfl
    · exact SameValue.rfl
    · exact SameValue.rfl
    · exact congrArg (Value.dump 'T') (parseDatetime_of_serialize hcreated)
    · exact congrArg (Value.dump 'T') (parseDatetime_of_serialize hstarted)
    · exact congrArg (Value.dump 'T') (parseDatetime_of_serialize hcompleted)
    · exact SameValue.rfl
  · have hdefaults : (withExperimentDefaults doc).item k = doc.item k := by
      simp only [sqliteExperimentColumns, List.mem_cons, not_or] at hc
      rw [item_withExperimentDefaults, if_neg (Ne.symm hc.2.2.2.2.2.2.1),
        if_neg (Ne.symm hc.2.2.1), if_neg (Ne.symm hc.2.1)]
    rw [if_neg hc, hdefaults]
    exact map_dump_toJson doc hc hk

theorem sameDoc_runRow {doc : Doc} {row : Row} (h : runRow doc = some row) :
    SameDoc sqliteRunColumns (readRow sqliteRunColumns row) (withIntDimensions doc) := by
  unfold runRow at h
  simp only [Option.bind_eq_bind, Option.bind_eq_some_iff, Option.pure_def,
    Option.some.injEq] at h
  obtain ⟨runId, hrun, id, hid, phase, hphase, created, hcreated, updated, hupdated, dims,
    hdims, rfl⟩ := h
  obtain rfl := bindText_eq_some hrun
  obtain rfl := bindText_eq_some hid
  obtain rfl := bindText_eq_some hphase
  rw [sameDoc_readRow_iff (by decide)]
  intro k hk
  by_cases hc : k ∈ sqliteRunColumns
  · rw [if_pos hc, Doc.get_eq_item (withIntDimensions doc), withIntDimensions, Doc.item_set,
      hdims]
    simp only [sqliteRunColumns, List.mem_cons, List.not_mem_nil, or_false] at hc
    rcases hc with rfl | rfl | rfl | rfl | rfl | rfl
    · exact SameValue.rfl
    · exact SameValue.rfl
    · exact SameValue.rfl
    · exact congrArg (Value.dump 'T') (parseDatetime_of_serialize hcreated)
    · exact congrArg (Value.dump 'T') (parseDatetime_of_serialize hupdated)
    · exact SameValue.rfl
  · have hdims' : (withIntDimensions doc).item k = doc.item k := by
      simp only [sqliteRunColumns, List.mem_cons, not_or] at hc
      rw [withIntDimensions, Doc.item_set, if_neg (Ne.symm hc.2.2.2.2.2.1)]
    rw [if_neg hc, hdims']
    exact map_dump_toJson doc hc hk

/-! ## Updates -/

/-- A row that takes on the columns and the remaining keys of an update reads as the updated
    document. `fields` holds the encoded columns. -/
theorem sameDoc_update {columns : List String} (hn : columns.Nodup) {r : Row} {d : Doc}
    (h : SameDoc columns (readRow columns r) d) {fields u blob : Doc}
    (hf : fields.keys.Nodup) (hu : u.keys.Nodup)
    (hcol : ∀ k ∈ columns, match u.item k with
      | none => fields.item k = none
      | some v => ∃ w, fields.item k = some w ∧ SameValue (decodeColumn k w) v)
    (hblob : ∀ k, k ∉ columns → k ≠ "_id" →
      (blob.item k).map (Value.dump 'T') =
        ((u.item k).or (r.blob.item k)).map (Value.dump 'T')) :
    SameDoc columns (readRow columns ⟨r.columns.update fields, blob⟩) (d.update u) := by
  rw [sameDoc_readRow_iff hn] at h ⊢
  intro k hk
  have hbefore := h k hk
  by_cases hc : k ∈ columns
  · rw [if_pos hc] at hbefore ⊢
    rw [Doc.get_update hf, Doc.get_update hu]
    have hset := hcol k hc
    cases hv : u.item k with
    | none =>
        rw [hv] at hset
        rw [hset]
        exact hbefore
    | some v =>
        rw [hv] at hset
        obtain ⟨w, hw, hsame⟩ := hset
        rw [hw]
        exact hsame
  · rw [if_neg hc] at hbefore ⊢
    rw [hblob k hc hk, Doc.item_update hu]
    cases u.item k with
    | none => exact hbefore
    | some v => rfl

/-- A blob that was not touched. -/
theorem blob_untouched {u blob : Doc} {k : String} (h : u.item k = none) :
    (blob.item k).map (Value.dump 'T') =
      ((u.item k).or (blob.item k)).map (Value.dump 'T') := by
  rw [h, Option.none_or]

/-- The keys of the blob are merged by `_update_doc_json`. -/
theorem blob_merged {update : Doc} (hn : update.keys.Nodup) (existing : Doc)
    {promoted : List String} {k : String} (hk : k ∉ promoted) :
    ((updateDocJson existing update promoted).item k).map (Value.dump 'T') =
      ((update.item k).or (existing.item k)).map (Value.dump 'T') := by
  rw [item_updateDocJson hn, if_neg hk, Option.map_map]
  congr 1
  funext v
  exact Value.dump_dump 'T' 'T' v

/-- The snapshot of an update is `None` or has a truth value of true. -/
def keepsSnapshot (update : Doc) : Prop :=
  ∀ v, update.item "vector_store_snapshot" = some v → v = .null ∨ v.truthy = true

theorem isSome_snapshotOnUpdate (v : Value) :
    (snapshotOnUpdate v).isSome = !(v.truthy && v.hasTime) := by
  unfold snapshotOnUpdate
  cases v.truthy <;> cases v.hasTime <;> rfl

/-- An update of the right types is refused for a `None` or for its snapshot alone. -/
theorem isSome_promotedFields {update : Doc}
    (h : TypedPayload (experimentEncoders.map (·.1)) update) :
    (promotedFields update).isSome = acceptsUpdate update := by
  have htext : ∀ c ∈ ["experiment_name", "status"],
      (update.item c).all isText = (update.item c).all fun v => !isNone v := by
    intro c hc
    have hfits : (update.item c).all (fun v => isNone v || isText v) = true := by
      refine Doc.all_item_of_get ?_
      simp only [List.mem_cons, List.not_mem_nil, or_false] at hc
      rcases hc with rfl | rfl
      · exact h "experiment_name" (by decide)
      · exact h "status" (by decide)
    cases hv : update.item c with
    | none => rfl
    | some v => exact isText_eq (by simpa [hv] using hfits)
  have hdate : ∀ c ∈ ["created_at", "started_at", "completed_at"],
      (update.item c).all isDate = true := by
    intro c hc
    refine Doc.all_item_of_get ?_
    simp only [List.mem_cons, List.not_mem_nil, or_false] at hc
    rcases hc with rfl | rfl | rfl
    · exact h "created_at" (by decide)
    · exact h "started_at" (by decide)
    · exact h "completed_at" (by decide)
  unfold promotedFields acceptsUpdate
  rw [isSome_encodeColumns]
  simp only [experimentEncoders, List.all_cons, List.all_nil, isSome_bindText,
    isSome_serializeDatetime, isSome_snapshotOnUpdate, Bool.and_true, Bool.and_assoc]
  rw [htext "experiment_name" (by decide), htext "status" (by decide),
    hdate "created_at" (by decide), hdate "started_at" (by decide),
    hdate "completed_at" (by decide), Bool.true_and, Bool.true_and, Bool.true_and]

/-- A snapshot is kept if it is `None` or has a truth value of true. -/
theorem sameValue_snapshotOnUpdate {v w : Value} (h : snapshotOnUpdate v = some w) :
    SameValue w v ↔ v = .null ∨ v.truthy = true := by
  unfold snapshotOnUpdate at h
  cases hv : v.truthy with
  | true =>
      rw [if_pos hv] at h
      split at h
      · cases h
      · obtain rfl := Option.some.inj h
        exact iff_of_true SameValue.rfl (Or.inr rfl)
  | false =>
      rw [if_neg (by simp [hv])] at h
      obtain rfl := Option.some.inj h
      unfold SameValue
      rw [eq_comm, show Value.dump 'T' .null = .null from rfl, Value.dump_eq_null_iff]
      simp

theorem experimentEncoders_nodup : (experimentEncoders.map (·.1)).Nodup := by decide

/-- The column that an update assigns for a promoted key decodes to the value that it names,
    unless the value is a snapshot that is not kept. -/
theorem promotedFields_item {update fields : Doc} (h : promotedFields update = some fields)
    {k : String} (hk : k ∈ sqliteExperimentColumns) (hid : k ≠ "experiment_id") {v : Value}
    (hv : update.item k = some v) :
    ∃ w, fields.item k = some w ∧ (SameValue (decodeColumn k w) v ↔
      (k = "vector_store_snapshot" → v = .null ∨ v.truthy = true)) := by
  have encoded := fun encode hm => @encode_of_mem update fields experimentEncoders
    experimentEncoders_nodup h k encode hm v hv
  have hdate : (k, serializeDatetime) ∈ experimentEncoders → k ∈ dateColumns →
      ∃ w, fields.item k = some w ∧ SameValue (decodeColumn k w) v := fun hm hdate => by
    obtain ⟨w, hw, he⟩ := encoded _ hm
    refine ⟨w, hw, ?_⟩
    rw [decodeColumn, if_pos hdate, parseDatetime_of_serialize he]
    exact SameValue.rfl
  have htext : (k, bindText) ∈ experimentEncoders → k ∉ dateColumns →
      ∃ w, fields.item k = some w ∧ SameValue (decodeColumn k w) v := fun hm hdate => by
    obtain ⟨w, hw, he⟩ := encoded _ hm
    refine ⟨w, hw, ?_⟩
    rw [decodeColumn, if_neg hdate, bindText_eq_some he]
    exact SameValue.rfl
  have hother : k ≠ "vector_store_snapshot" →
      (∃ w, fields.item k = some w ∧ SameValue (decodeColumn k w) v) →
      ∃ w, fields.item k = some w ∧ (SameValue (decodeColumn k w) v ↔
        (k = "vector_store_snapshot" → v = .null ∨ v.truthy = true)) := by
    rintro hne ⟨w, hw, hsame⟩
    exact ⟨w, hw, iff_of_true hsame fun he => absurd he hne⟩
  simp only [sqliteExperimentColumns, List.mem_cons, List.not_mem_nil, or_false] at hk
  rcases hk with rfl | rfl | rfl | rfl | rfl | rfl | rfl
  · exact absurd rfl hid
  · exact hother (by decide) (htext (by simp [experimentEncoders]) (by decide))
  · exact hother (by decide) (htext (by simp [experimentEncoders]) (by decide))
  · exact hother (by decide) (hdate (by simp [experimentEncoders]) (by decide))
  · exact hother (by decide) (hdate (by simp [experimentEncoders]) (by decide))
  · exact hother (by decide) (hdate (by simp [experimentEncoders]) (by decide))
  · obtain ⟨w, hw, he⟩ := encoded snapshotOnUpdate (by simp [experimentEncoders])
    exact ⟨w, hw, (sameValue_snapshotOnUpdate he).trans ⟨fun hs _ => hs, fun hs => hs rfl⟩⟩

/-- The columns that an update assigns, for the map that leaves the primary key. -/
theorem promotedFields_decode {update fields : Doc} (h : promotedFields update = some fields)
    (hsnap : keepsSnapshot update) {k : String} (hk : k ∈ sqliteExperimentColumns) :
    match (update.dropKeys ["experiment_id"]).item k with
    | none => fields.item k = none
    | some v => ∃ w, fields.item k = some w ∧ SameValue (decodeColumn k w) v := by
  have hfields := item_encodeColumns experimentEncoders_nodup h k
  rw [Doc.item_dropKeys]
  by_cases hid : k = "experiment_id"
  · subst hid
    rw [if_pos (List.mem_singleton_self _)]
    exact hfields
  · rw [if_neg (by simpa using hid)]
    cases hv : update.item k with
    | none =>
        rw [hv] at hfields
        rw [hfields]
        cases experimentEncoders.lookup k <;> rfl
    | some v =>
        obtain ⟨w, hw, hsame⟩ := promotedFields_item h hk hid hv
        exact ⟨w, hw, hsame.mpr fun he => hsnap v (he ▸ hv)⟩

/-! ## Runs of calls -/

/-- A row reads as the document of the map, and its blob copies no promoted key. -/
structure RowAgrees (columns : List String) (r : Row) (d : Doc) : Prop where
  same : SameDoc columns (readRow columns r) d
  noCopy : ∀ k ∈ columns, r.blob.item k = none

structure StoreAgrees (s : SqliteStore) (m : DocMap) : Prop where
  experiments : Table.Rel (RowAgrees sqliteExperimentColumns) s.experiments m.experiments
  runStatus : Table.Rel (RowAgrees sqliteRunColumns) s.runStatus m.runStatus

theorem blob_experimentRow {doc : Doc} {row : Row} (h : experimentRow doc = some row) :
    row.blob = toJson doc sqliteExperimentColumns := by
  unfold experimentRow at h
  simp only [Option.bind_eq_bind, Option.bind_eq_some_iff, Option.pure_def,
    Option.some.injEq] at h
  obtain ⟨_, -, _, -, _, -, _, -, _, -, _, -, rfl⟩ := h
  rfl

theorem blob_runRow {doc : Doc} {row : Row} (h : runRow doc = some row) :
    row.blob = toJson doc sqliteRunColumns := by
  unfold runRow at h
  simp only [Option.bind_eq_bind, Option.bind_eq_some_iff, Option.pure_def,
    Option.some.injEq] at h
  obtain ⟨_, -, _, -, _, -, _, -, _, -, _, -, rfl⟩ := h
  rfl

theorem item_toJson_promoted (doc : Doc) {promoted : List String} {k : String}
    (hk : k ∈ promoted) : (toJson doc promoted).item k = none := by
  rw [toJson, Doc.item_dump, Doc.item_dropKeys, if_pos (List.mem_append_left _ hk)]
  rfl

theorem item_updateDocJson_promoted {update : Doc} (hn : update.keys.Nodup) {existing : Doc}
    {promoted : List String} {k : String} (hk : k ∈ promoted) (h : existing.item k = none) :
    (updateDocJson existing update promoted).item k = none := by
  rw [item_updateDocJson hn, if_pos hk, h]
  rfl

theorem StoreAgrees.insertExperiment {s : SqliteStore} {m : DocMap} (h : StoreAgrees s m)
    {doc : Doc} (ht : TypedPayload sqliteExperimentColumns doc) :
    StoreAgrees (s.insertExperiment doc) (m.insertExperiment doc) := by
  obtain ⟨row, hrow⟩ := Option.isSome_iff_exists.mp (isSome_experimentRow ht)
  unfold SqliteStore.insertExperiment DocMap.insertExperiment
  rw [hrow]
  cases idOf (doc.get "experiment_id") with
  | none => exact h
  | some id =>
      refine ⟨h.experiments.insertOrIgnore id ⟨sameDoc_experimentRow hrow, ?_⟩, h.runStatus⟩
      intro k hk
      rw [blob_experimentRow hrow]
      exact item_toJson_promoted doc hk

theorem StoreAgrees.insertRunStatus {s : SqliteStore} {m : DocMap} (h : StoreAgrees s m)
    {doc : Doc} (ht : TypedPayload sqliteRunColumns doc) :
    StoreAgrees (s.insertRunStatus doc) (m.insertRunStatus doc) := by
  unfold SqliteStore.insertRunStatus DocMap.insertRunStatus
  cases idOf (doc.get "run_id") with
  | none => exact h
  | some runId =>
      cases idOf (doc.get "experiment_id") with
      | none => exact h
      | some id =>
          have hphase := isSome_runRow ht
          dsimp only
          rw [← h.experiments.isSome_eq id]
          cases hrow : runRow doc with
          | none =>
              rw [hrow] at hphase
              have hnone : isNone (doc.get "phase") = true := by simpa using hphase.symm
              simpa [hnone] using h
          | some row =>
              rw [hrow] at hphase
              have hsome : isNone (doc.get "phase") = false := by simpa using hphase.symm
              simp only [hsome, true_and]
              split
              · refine ⟨h.experiments,
                  h.runStatus.insertOrIgnore runId ⟨sameDoc_runRow hrow, ?_⟩⟩
                intro k hk
                rw [blob_runRow hrow]
                exact item_toJson_promoted doc hk
              · exact h

/-- The update of `update_experiment`, on one row. -/
theorem RowAgrees.update {r : Row} {d : Doc} (h : RowAgrees sqliteExperimentColumns r d)
    {update : Dict} {fields : Doc} (hf : promotedFields update.items = some fields)
    (hsnap : keepsSnapshot update.items) :
    RowAgrees sqliteExperimentColumns
      ⟨r.columns.update fields, updateDocJson r.blob update.items sqliteExperimentColumns⟩
      (d.update (update.items.dropKeys ["experiment_id"])) := by
  refine ⟨?_, fun k hk => item_updateDocJson_promoted update.nodup hk (h.noCopy k hk)⟩
  refine sameDoc_update (by decide) h.same
    (experimentEncoders_nodup.sublist (keys_encodeColumns hf))
    (update.nodup.sublist (Doc.keys_dropKeys_sublist _ _))
    (fun k hk => promotedFields_decode hf hsnap hk) fun k hk _ => ?_
  have hid : k ∉ ["experiment_id"] := fun hm => hk (by
    rw [List.mem_singleton.mp hm]
    exact List.mem_cons_self ..)
  rw [blob_merged update.nodup r.blob hk, Doc.item_dropKeys, if_neg hid]

theorem StoreAgrees.updateExperiment {s : SqliteStore} {m : DocMap} (h : StoreAgrees s m)
    (id : String) {update : Dict} (ht : TypedPayload (experimentEncoders.map (·.1)) update.items)
    (hsnap : keepsSnapshot update.items) :
    StoreAgrees (s.updateExperiment id update.items) (m.updateExperiment id update.items) := by
  unfold SqliteStore.updateExperiment DocMap.updateExperiment
  rw [← isSome_promotedFields ht]
  cases hf : promotedFields update.items with
  | none => exact h
  | some fields =>
      rw [Option.isSome_some, if_pos rfl]
      exact ⟨h.experiments.modify id fun _ _ hr => hr.update hf hsnap, h.runStatus⟩

/-- The columns-only update of `mark_experiment_*`, on one row. -/
theorem RowAgrees.mark {r : Row} {d : Doc} (h : RowAgrees sqliteExperimentColumns r d)
    (status : ExperimentStatus) {v w : Value} (hv : parseDatetime w = v) :
    RowAgrees sqliteExperimentColumns
      ⟨r.columns.update [("status", .str status.value), ("completed_at", w)], r.blob⟩
      (d.update (statusUpdate status v)) := by
  refine ⟨?_, h.noCopy⟩
  refine sameDoc_update (by decide) h.same (by simp [Doc.keys])
    (by simp [Doc.keys, statusUpdate]) (fun k hk => ?_) fun k hk _ => blob_untouched ?_
  · simp only [sqliteExperimentColumns, List.mem_cons, List.not_mem_nil, or_false] at hk
    rcases hk with rfl | rfl | rfl | rfl | rfl | rfl | rfl
    · rfl
    · rfl
    · exact ⟨_, rfl, SameValue.rfl⟩
    · rfl
    · rfl
    · exact ⟨_, rfl, congrArg (Value.dump 'T') hv⟩
    · rfl
  · rw [Doc.item_eq_none_iff]
    intro hm
    simp only [statusUpdate, Doc.keys, List.map_cons, List.map_nil, List.mem_cons,
      List.not_mem_nil, or_false] at hm
    rcases hm with rfl | rfl <;> exact hk (by decide)

theorem StoreAgrees.markTerminal {s : SqliteStore} {m : DocMap} (h : StoreAgrees s m)
    (id : String) (status : ExperimentStatus) (now : Int) :
    StoreAgrees (s.markExperimentTerminal id status now)
      (m.updateDoc id (statusUpdate status (.time now))) :=
  ⟨h.experiments.modify id fun _ _ hr => hr.mark status rfl, h.runStatus⟩

theorem StoreAgrees.markRunning {s : SqliteStore} {m : DocMap} (h : StoreAgrees s m)
    (id : String) :
    StoreAgrees (s.markExperimentRunning id)
      (m.updateDoc id (statusUpdate .running .null)) :=
  ⟨h.experiments.modify id fun _ _ hr => hr.mark .running rfl, h.runStatus⟩

/-- A phase update, on one row: `rest` holds the keys that go to the blob. -/
theorem RowAgrees.phase {r : Row} {d : Doc} (h : RowAgrees sqliteRunColumns r d)
    (phase : Value) (updatedAt : Int) {rest : Doc} (hn : rest.keys.Nodup)
    (hfresh : ∀ k ∈ sqliteRunColumns, k ∉ rest.keys) :
    RowAgrees sqliteRunColumns
      ⟨r.columns.update [("phase", phase), ("updated_at", .timeText 'T' updatedAt)],
        updateDocJson r.blob rest sqliteRunColumns⟩
      (d.update (("phase", phase) :: ("updated_at", .time updatedAt) :: rest)) := by
  refine ⟨?_, fun k hk => item_updateDocJson_promoted hn hk (h.noCopy k hk)⟩
  refine sameDoc_update (by decide) h.same (by simp [Doc.keys]) ?_ (fun k hk => ?_)
    fun k hk _ => ?_
  · simp only [Doc.keys, List.map_cons, List.nodup_cons, List.mem_cons, not_or]
    exact ⟨⟨by decide, hfresh _ (by decide)⟩, hfresh _ (by decide), hn⟩
  · have hitem := Doc.item_eq_none_iff.mpr (hfresh k hk)
    simp only [sqliteRunColumns, List.mem_cons, List.not_mem_nil, or_false] at hk
    rcases hk with rfl | rfl | rfl | rfl | rfl | rfl
    · rw [Doc.item_cons_of_ne _ (by decide), Doc.item_cons_of_ne _ (by decide), hitem]
      rfl
    · rw [Doc.item_cons_of_ne _ (by decide), Doc.item_cons_of_ne _ (by decide), hitem]
      rfl
    · exact ⟨_, rfl, SameValue.rfl⟩
    · rw [Doc.item_cons_of_ne _ (by decide), Doc.item_cons_of_ne _ (by decide), hitem]
      rfl
    · rw [Doc.item_cons_of_ne _ (by decide), Doc.item_cons_self]
      exact ⟨_, rfl, SameValue.rfl⟩
    · rw [Doc.item_cons_of_ne _ (by decide), Doc.item_cons_of_ne _ (by decide), hitem]
      rfl
  · have hphase : "phase" ≠ k := fun he => hk (by rw [← he]; decide)
    have hupdated : "updated_at" ≠ k := fun he => hk (by rw [← he]; decide)
    rw [blob_merged hn r.blob hk, Doc.item_cons_of_ne _ hphase,
      Doc.item_cons_of_ne _ hupdated]

theorem StoreAgrees.updateRunPhase {s : SqliteStore} {m : DocMap} (h : StoreAgrees s m)
    (runId phase : String) (updatedAt elapsedMs : Int) (errorMessage : Option String) :
    StoreAgrees (s.updateRunPhase runId phase updatedAt elapsedMs errorMessage)
      (m.updateRun runId (phaseUpdate phase updatedAt elapsedMs errorMessage)) := by
  have hrow := fun r d hr => @RowAgrees.phase r d hr (.str phase) updatedAt
      [("elapsed_ms", .int elapsedMs),
        ("error_message", (errorMessage.map Value.str).getD .null)]
      (by simp [Doc.keys])
      (show ∀ k ∈ sqliteRunColumns, k ∉ ["elapsed_ms", "error_message"] by decide)
  exact ⟨h.experiments, h.runStatus.modify runId hrow⟩

theorem StoreAgrees.markRunsInterrupted {s : SqliteStore} {m : DocMap} (h : StoreAgrees s m)
    (runIds : List String) (updatedAt : Int) (errorMessage : String) :
    StoreAgrees (s.markRunsInterrupted runIds updatedAt errorMessage)
      (runIds.foldl (fun m runId => m.updateRun runId
        (interruptedUpdate updatedAt errorMessage)) m) := by
  unfold SqliteStore.markRunsInterrupted
  induction runIds generalizing s m with
  | nil => exact h
  | cons runId runIds ih =>
      have hrow := fun r d hr =>
        @RowAgrees.phase r d hr (.str Phase.interrupted.value) updatedAt
          [("error_message", .str errorMessage)] (by simp [Doc.keys])
          (show ∀ k ∈ sqliteRunColumns, k ∉ ["error_message"] by decide)
      exact ih (s := ⟨s.experiments, SqliteStore.markRunInterrupted s.runStatus runId
        updatedAt errorMessage⟩) ⟨h.experiments, h.runStatus.modify runId hrow⟩

/-- The updates that the call makes keep the snapshot they name. -/
def StoreCall.KeepsSnapshot : StoreCall → Prop
  | .updateExperiment _ update => keepsSnapshot update.items
  | _ => True

theorem StoreAgrees.call {s : SqliteStore} {m : DocMap} (h : StoreAgrees s m) (c : StoreCall)
    (ht : c.Typed) (hc : c.KeepsSnapshot) : StoreAgrees (sqliteCall s c) (m.call c) := by
  cases c with
  | insertExperiment doc => exact h.insertExperiment ht
  | insertRunStatus doc => exact h.insertRunStatus ht
  | updateExperiment id update => exact h.updateExperiment id ht hc
  | markExperimentCancelled id now => exact h.markTerminal id .cancelled now
  | markExperimentPaused id now => exact h.markTerminal id .paused now
  | markExperimentRunning id => exact h.markRunning id
  | updateRunPhase runId phase updatedAt elapsedMs errorMessage =>
      exact h.updateRunPhase runId phase updatedAt elapsedMs errorMessage
  | markRunsInterrupted runIds updatedAt errorMessage =>
      exact h.markRunsInterrupted runIds updatedAt errorMessage

theorem StoreAgrees.calls {s : SqliteStore} {m : DocMap} (h : StoreAgrees s m)
    {cs : List StoreCall} (ht : ∀ c ∈ cs, c.Typed) (hcs : ∀ c ∈ cs, c.KeepsSnapshot) :
    StoreAgrees (cs.foldl sqliteCall s) (cs.foldl DocMap.call m) := by
  induction cs generalizing s m with
  | nil => exact h
  | cons c cs ih =>
      rw [List.forall_mem_cons] at ht hcs
      exact ih (h.call c ht.1 hcs.1) ht.2 hcs.2

/-! ## Documents read back -/

/-- The documents read back are those of the map. -/
def ReadsAs (s : SqliteStore) (m : DocMap) : Prop :=
  (∀ id, Option.Rel (SameDoc sqliteExperimentColumns) (s.findExperimentById id)
      (m.experiments.find id)) ∧
    ∀ runId, Option.Rel (SameDoc sqliteRunColumns) (s.findRunStatus runId)
      (m.runStatus.find runId)

/-- No blob holds a copy of a promoted key. -/
def NoCopies (s : SqliteStore) : Prop :=
  (∀ id r, s.experiments.find id = some r → ∀ k ∈ sqliteExperimentColumns,
      r.blob.item k = none) ∧
    ∀ runId r, s.runStatus.find runId = some r → ∀ k ∈ sqliteRunColumns, r.blob.item k = none

theorem sameDoc_experimentRowToDoc {columns : List String} {r : Row} {includeId : Bool}
    {d : Doc} : SameDoc columns (experimentRowToDoc r includeId) d ↔
      SameDoc columns (readRow sqliteExperimentColumns r) d := by
  refine forall₂_congr fun k hk => ?_
  rw [Doc.get_eq_item (experimentRowToDoc r includeId),
    Doc.get_eq_item (readRow sqliteExperimentColumns r), item_experimentRowToDoc r includeId hk]

theorem StoreAgrees.readsAs {s : SqliteStore} {m : DocMap} (h : StoreAgrees s m) :
    ReadsAs s m := by
  refine ⟨fun id => ?_, fun runId => ?_⟩
  · have hrel := h.experiments id
    unfold SqliteStore.findExperimentById
    generalize s.experiments.find id = x, m.experiments.find id = y at hrel
    cases hrel with
    | none => exact Option.Rel.none
    | some hr => exact Option.Rel.some (sameDoc_experimentRowToDoc.mpr hr.same)
  · have hrel := h.runStatus runId
    unfold SqliteStore.findRunStatus
    generalize s.runStatus.find runId = x, m.runStatus.find runId = y at hrel
    cases hrel with
    | none => exact Option.Rel.none
    | some hr => exact Option.Rel.some hr.same

theorem StoreAgrees.noCopies {s : SqliteStore} {m : DocMap} (h : StoreAgrees s m) :
    NoCopies s := by
  refine ⟨fun id r hf => ?_, fun runId r hf => ?_⟩
  · have hrel := h.experiments id
    rw [hf] at hrel
    generalize m.experiments.find id = y at hrel
    cases hrel with
    | some hr => exact hr.noCopy
  · have hrel := h.runStatus runId
    rw [hf] at hrel
    generalize m.runStatus.find runId = y at hrel
    cases hrel with
    | some hr => exact hr.noCopy

theorem storeAgrees_empty : StoreAgrees .empty .empty := ⟨Table.Rel.empty, Table.Rel.empty⟩

/-- Every sequence of calls with payloads of the columns' types leaves the documents of the
    map, unless an update names a snapshot that has a truth value of false and is not `None`. -/
theorem sqlite_reads_as_map {cs : List StoreCall} (ht : ∀ c ∈ cs, c.Typed)
    (h : ∀ c ∈ cs, c.KeepsSnapshot) :
    ReadsAs (cs.foldl sqliteCall .empty) (cs.foldl DocMap.call .empty) ∧
      NoCopies (cs.foldl sqliteCall .empty) :=
  ⟨(storeAgrees_empty.calls ht h).readsAs, (storeAgrees_empty.calls ht h).noCopies⟩

def namedItems : Doc :=
  [("experiment_id", .str "e1"), ("experiment_name", .str "sweep"), ("top_k_final", .int 5),
   ("created_at", .time 1)]

theorem namedItems_nodup : namedItems.keys.Nodup := by decide

def namedDoc : Dict := ⟨namedItems, namedItems_nodup⟩

def phaselessItems : Doc := [("run_id", .str "r1"), ("experiment_id", .str "e1")]

theorem phaselessItems_nodup : phaselessItems.keys.Nodup := by decide

def phaselessRun : Dict := ⟨phaselessItems, phaselessItems_nodup⟩

def queuedItems : Doc := ("phase", .str "queued") :: phaselessItems

theorem queuedItems_nodup : queuedItems.keys.Nodup := by decide

def queuedRun : Dict := ⟨queuedItems, queuedItems_nodup⟩

def startedItems : Doc := [("started_at", .time 2), ("failed_count", .int 0)]

theorem startedItems_nodup : startedItems.keys.Nodup := by decide

def startedUpdate : Dict := ⟨startedItems, startedItems_nodup⟩

/-- An experiment from its creation to a pause, with one interrupted run. -/
def sampleCalls : List StoreCall :=
  [.insertExperiment namedDoc, .insertRunStatus queuedRun,
   .updateExperiment "e1" startedUpdate, .updateRunPhase "r1" "embedding" 3 40 none,
   .markRunsInterrupted ["r1"] 4 "restarted", .markExperimentPaused "e1" 5]

theorem sqlite_reads_as_map_sample :
    ReadsAs (sampleCalls.foldl sqliteCall .empty) (sampleCalls.foldl DocMap.call .empty) ∧
      NoCopies (sampleCalls.foldl sqliteCall .empty) := by
  refine sqlite_reads_as_map (fun c hc => ?_) fun c hc => ?_
  · simp only [sampleCalls, List.mem_cons, List.not_mem_nil, or_false] at hc
    rcases hc with rfl | rfl | rfl | rfl | rfl | rfl
    · exact show TypedPayload sqliteExperimentColumns namedItems by decide
    · exact show TypedPayload sqliteRunColumns queuedItems by decide
    · exact show TypedPayload (experimentEncoders.map (·.1)) startedItems by decide
    · trivial
    · trivial
    · trivial
  · simp only [sampleCalls, List.mem_cons, List.not_mem_nil, or_false] at hc
    rcases hc with rfl | rfl | rfl | rfl | rfl | rfl
    · trivial
    · trivial
    · intro v hv
      cases hv
    · trivial
    · trivial
    · trivial

/-- The map that takes each insert and each update as it is. -/
def DocMap.plainCall (m : DocMap) : StoreCall → DocMap
  | .insertExperiment doc =>
      match idOf (doc.items.get "experiment_id") with
      | some id => { m with experiments := m.experiments.insertOrIgnore id doc.items }
      | none => m
  | .insertRunStatus doc =>
      match idOf (doc.items.get "run_id") with
      | some runId => { m with runStatus := m.runStatus.insertOrIgnore runId doc.items }
      | none => m
  | .updateExperiment id update => m.updateDoc id update.items
  | .markExperimentCancelled id now => m.updateDoc id (statusUpdate .cancelled (.time now))
  | .markExperimentPaused id now => m.updateDoc id (statusUpdate .paused (.time now))
  | .markExperimentRunning id => m.updateDoc id (statusUpdate .running .null)
  | .updateRunPhase runId phase updatedAt elapsedMs errorMessage =>
      m.updateRun runId (phaseUpdate phase updatedAt elapsedMs errorMessage)
  | .markRunsInterrupted runIds updatedAt errorMessage =>
      runIds.foldl (fun m runId => m.updateRun runId
        (interruptedUpdate updatedAt errorMessage)) m

def renamedItems : Doc := [("experiment_id", .str "e2")]

theorem renamedItems_nodup : renamedItems.keys.Nodup := by decide

def renamedUpdate : Dict := ⟨renamedItems, renamedItems_nodup⟩

def emptySnapshotItems : Doc := [("vector_store_snapshot", .dict [])]

theorem emptySnapshotItems_nodup : emptySnapshotItems.keys.Nodup := by decide

def emptySnapshotUpdate : Dict := ⟨emptySnapshotItems, emptySnapshotItems_nodup⟩

theorem ReadsAs.sameValue {s : SqliteStore} {m : DocMap} (h : ReadsAs s m) (id : String)
    {d d' : Doc} (hd : s.findExperimentById id = some d)
    (hd' : m.experiments.find id = some d') {k : String} (hk : k ∈ sqliteExperimentColumns)
    (hid : k ≠ "_id") : SameValue (d.get k) (d'.get k) := by
  have hrel := h.1 id
  rw [hd, hd'] at hrel
  cases hrel with
  | some hsame =>
      have hv := hsame k hid
      rwa [if_pos hk] at hv

/-- Four short sequences: a document without a status, a run without a phase, an update of
    the primary key, and an update with an empty snapshot. -/
theorem plain_map_differs :
    ¬ ReadsAs ([StoreCall.insertExperiment namedDoc].foldl sqliteCall .empty)
        ([StoreCall.insertExperiment namedDoc].foldl DocMap.plainCall .empty) ∧
      ¬ ReadsAs ([.insertExperiment namedDoc, .insertRunStatus phaselessRun].foldl
          sqliteCall .empty)
        ([.insertExperiment namedDoc, .insertRunStatus phaselessRun].foldl
          DocMap.plainCall .empty) ∧
      ¬ ReadsAs ([.insertExperiment namedDoc, .updateExperiment "e1" renamedUpdate].foldl
          sqliteCall .empty)
        ([.insertExperiment namedDoc, .updateExperiment "e1" renamedUpdate].foldl
          DocMap.plainCall .empty) ∧
      ¬ ReadsAs ([.insertExperiment namedDoc, .updateExperiment "e1" emptySnapshotUpdate].foldl
          sqliteCall .empty)
        ([.insertExperiment namedDoc, .updateExperiment "e1" emptySnapshotUpdate].foldl
          DocMap.plainCall .empty) := by
  refine ⟨fun h => ?_, fun h => ?_, fun h => ?_, fun h => ?_⟩
  · have hstatus : Value.str "running" = .null :=
      h.sameValue "e1" rfl rfl (k := "status") (by decide) (by decide)
    cases hstatus
  · cases h.2 "r1"
  · have hid : Value.str "e1" = .str "e2" :=
      h.sameValue "e1" rfl rfl (k := "experiment_id") (by decide) (by decide)
    exact absurd (Value.str.inj hid) (by decide)
  · have hsnap : Value.null = .dict [] :=
      h.sameValue "e1" rfl rfl (k := "vector_store_snapshot") (by decide) (by decide)
    cases hsnap

end RagParamsFinder
