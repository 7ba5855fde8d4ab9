/-
  The Postgres run-state adapter: rows and documents (`server/db/postgres/postgres_docs.py`)
  and `_update_statement` of `server/db/postgres/postgres_store.py`.

  Columns hold values of their own types. The rest of a document is a JSONB value, in which
  a date-time is its ISO text; an update is one statement that merges into it.

  Proved: `item_postgresRowToDoc`: a key is read from its column when it is promoted and from
  the JSONB value otherwise. `item_updateStatement`: an update leaves each key that it does
  not name.
-/
import RagParamsFinder.Store.RunDocs

namespace RagParamsFinder

open Documents

/-- `EXPERIMENT_COLUMNS`. -/
def postgresExperimentColumns : List String :=
  ["experiment_id", "experiment_name", "status", "created_at", "started_at", "completed_at"]

/-- `RESULT_COLUMNS`, of both SQL adapters. -/
def resultColumns : List String := ["experiment_id", "run_id", "query_id", "query_text"]

/-- `to_jsonb`. -/
def toJsonb (doc : Doc) (promoted : List String) : Doc :=
  (doc.dropKeys (promoted ++ derivedKeys)).dump 'T'

/-- `experiment_row_to_doc`, `run_row_to_doc` and `result_row_to_doc`, by their columns. -/
def postgresRowToDoc (columns : List String) (r : Row) : Doc :=
  r.blob.update (columns.map fun c => (c, r.columns.get c))

/-- `_update_statement`: the promoted columns that are named, and `doc = doc || …`. -/
def updateStatement (promoted : List String) (key : String) (r : Row) (update : Doc) : Row :=
  r.assign (update.project (promoted.filter (· ≠ key))) (toJsonb update promoted)

theorem item_postgresRowToDoc {columns : List String} (hn : columns.Nodup) (r : Row)
    (k : String) :
    (postgresRowToDoc columns r).item k =
      if k ∈ columns then some (r.columns.get k) else r.blob.item k :=
  Doc.item_overlay hn (fun c => r.columns.get c) r.blob k

theorem item_project (d : Doc) (ks : List String) (k : String) :
    (d.project ks).item k = if k ∈ ks then d.item k else none := by
  have h := Doc.item_filter (d := d) (p := fun k => decide (k ∈ ks)) k
  simpa [Doc.project] using h

theorem keys_project_nodup {d : Doc} (h : d.keys.Nodup) (ks : List String) :
    (d.project ks).keys.Nodup :=
  h.sublist (List.filter_sublist.map _)

theorem keys_toJsonb_nodup {d : Doc} (h : d.keys.Nodup) (promoted : List String) :
    (toJsonb d promoted).keys.Nodup := by
  unfold toJsonb Doc.dump
  rw [Doc.keys_map_values]
  exact h.sublist (Doc.keys_dropKeys_sublist _ _)

/-- What an update leaves under each key but the primary key and `_id`. -/
theorem item_updateStatement {promoted : List String} (hn : promoted.Nodup) {key k : String}
    {update : Doc} (hu : update.keys.Nodup) (r : Row) (hkey : k ≠ key) (hid : k ≠ "_id") :
    ((postgresRowToDoc promoted (updateStatement promoted key r update)).item k).map
        (Value.dump 'T') =
      ((update.item k).or ((postgresRowToDoc promoted r).item k)).map (Value.dump 'T') := by
  rw [item_postgresRowToDoc hn, item_postgresRowToDoc hn]
  unfold updateStatement Row.assign
  dsimp only
  by_cases hk : k ∈ promoted
  · rw [if_pos hk, if_pos hk, Doc.get_update (keys_project_nodup hu _), item_project,
      if_pos (by simp [hk, hkey])]
    cases update.item k <;> rfl
  · have hdrop : k ∉ promoted ++ derivedKeys := by simp [derivedKeys, hk, hid]
    rw [if_neg hk, if_neg hk, Doc.item_update (keys_toJsonb_nodup hu _), toJsonb,
      Doc.item_dump, Doc.item_dropKeys, if_neg hdrop]
    cases hv : update.item k with
    | none => rfl
    | some v => exact congrArg some (Value.dump_dump 'T' 'T' v)

end RagParamsFinder
