/-
  Concurrent updates of one experiment document in the SQLite adapter.

  `update_experiment` reads the JSON text of the row in one statement and writes the merged
  text in another; `mark_experiment_*` is one statement on columns. Any number of calls are
  in progress, and a schedule lists whose statement runs next. A call that raises never
  returns.

  `Merged` follows a schedule without the values: which updates the text of the row holds,
  and which it held when each call read it.

  Proved: `updates_hold_iff`: the document read after all calls have returned holds what they
  wrote exactly when every update that adds to the text is among those merged. A schedule can
  leave one out (`summary_lost`). `mongo_updates_hold`, `postgres_updates_hold`: with one
  statement for an update, every order leaves what each call wrote.
-/
import RagParamsFinder.Lib.StepMachine
import RagParamsFinder.Store.PostgresDocs
import RagParamsFinder.Store.SqliteRefines

namespace RagParamsFinder

open Documents StepMachine

/-! ## Calls in progress -/

inductive ExperimentCall where
  | update (u : Dict)
  | mark (status : ExperimentStatus) (completedAt : Option Int)

/-- The keys that a call writes, with their values. -/
def ExperimentCall.payload : ExperimentCall → Doc
  | .update u => u.items
  | .mark status completedAt =>
      statusUpdate status ((completedAt.map fun t : Int => Value.time t).getD .null)

/-- The columns that a call assigns; `none` if it raises. -/
def ExperimentCall.fields : ExperimentCall → Option Doc
  | .update u => promotedFields u.items
  | .mark status completedAt =>
      some [("status", .str status.value),
        ("completed_at", (completedAt.map fun t : Int => Value.timeText 'T' t).getD .null)]

inductive CallState where
  | idle
  | read (blob : Doc)
  | returned

/-- The row, and how far each call is. -/
structure SharedRow (ι : Type) where
  row : Row
  calls : ι → CallState

variable {ι : Type}

/-- The next statement of call `i`. -/
def callStep [DecidableEq ι] (calls : ι → ExperimentCall) (s : SharedRow ι) (i : ι) :
    Option (SharedRow ι) :=
  match calls i, s.calls i with
  | .update _, .idle => some { s with calls := Function.update s.calls i (.read s.row.blob) }
  | .update u, .read blob =>
      (promotedFields u.items).map fun fields =>
        { row := ⟨s.row.columns.update fields,
            updateDocJson blob u.items sqliteExperimentColumns⟩
          calls := Function.update s.calls i .returned }
  | .mark status completedAt, .idle =>
      (ExperimentCall.mark status completedAt).fields.map fun fields =>
        { row := { s.row with columns := s.row.columns.update fields }
          calls := Function.update s.calls i .returned }
  | _, _ => none

def SharedRow.start (row : Row) : SharedRow ι := ⟨row, fun _ => .idle⟩

/-- The document read back holds what each call wrote under each of its keys. -/
def HoldsAll (calls : ι → ExperimentCall) (row : Row) : Prop :=
  ∀ i k v, (calls i).payload.item k = some v → k ≠ "_id" →
    ((experimentRowToDoc row true).item k).map (Value.dump 'T') = some (v.dump 'T')

/-! ## What a schedule merges -/

structure Merged (ι : Type) where
  current : List ι
  seen : ι → Option (List ι)

def mergeStep [DecidableEq ι] (calls : ι → ExperimentCall) (m : Merged ι) (i : ι) : Merged ι :=
  match calls i, m.seen i with
  | .update _, none => { m with seen := Function.update m.seen i (some m.current) }
  | .update _, some l => { m with current := l ++ [i] }
  | .mark _ _, _ => m

/-- The updates whose keys reach the text that the schedule leaves: the last to write, the
    one whose text that one had read, and so on. -/
def merged [DecidableEq ι] (calls : ι → ExperimentCall) (schedule : List ι) : List ι :=
  (schedule.foldl (mergeStep calls) ⟨[], fun _ => none⟩).current

/-- The text after the updates of `l`, each merged into the one before. -/
def mergeAll (calls : ι → ExperimentCall) (l : List ι) (blob : Doc) : Doc :=
  l.foldl (fun b i => updateDocJson b (calls i).payload sqliteExperimentColumns) blob

theorem ExperimentCall.payload_nodup (c : ExperimentCall) : c.payload.keys.Nodup := by
  cases c with
  | update u => exact u.nodup
  | mark status completedAt => simp [ExperimentCall.payload, statusUpdate, Doc.keys]

/-- No two calls name one key. -/
def KeysDisjoint (calls : ι → ExperimentCall) : Prop :=
  ∀ i j, i ≠ j → ∀ k ∈ (calls i).payload.keys, k ∉ (calls j).payload.keys

section Merge

variable {calls : ι → ExperimentCall}

theorem mergeAll_append_singleton (l : List ι) (i : ι) (blob : Doc) :
    mergeAll calls (l ++ [i]) blob =
      updateDocJson (mergeAll calls l blob) (calls i).payload sqliteExperimentColumns := by
  unfold mergeAll
  rw [List.foldl_append]
  rfl

/-- What one of the writes of a fold sets, and no other changes, is there at the end. -/
theorem read_foldl_of_mem {σ β : Type} (read : σ → β) {write : σ → ι → σ} {b : β} {i : ι}
    (hi : ∀ s, read (write s i) = b) (hj : ∀ s j, j ≠ i → read (write s j) = read s)
    {l : List ι} (h : i ∈ l) (s : σ) : read (l.foldl write s) = b := by
  induction l using List.reverseRecOn with
  | nil => cases h
  | append_singleton l j ih =>
      rw [List.foldl_append]
      change read (write (l.foldl write s) j) = b
      by_cases hij : j = i
      · subst hij
        exact hi _
      · rw [hj _ j hij]
        exact ih ((List.mem_append.mp h).resolve_right fun hm =>
          hij (List.mem_singleton.mp hm).symm)

theorem mem_keys_of_item {d : Doc} {k : String} {v : Value} (h : d.item k = some v) :
    k ∈ d.keys := by
  by_contra hn
  rw [Doc.item_eq_none_iff.mpr hn] at h
  cases h

theorem KeysDisjoint.item_eq_none (hd : KeysDisjoint calls) {i : ι} {k : String} {v : Value}
    (hv : (calls i).payload.item k = some v) {j : ι} (hj : j ≠ i) :
    (calls j).payload.item k = none :=
  Doc.item_eq_none_iff.mpr (hd i j (Ne.symm hj) k (mem_keys_of_item hv))

theorem map_dump_updateDocJson (c : ExperimentCall) (blob : Doc) {k : String}
    (hk : k ∉ sqliteExperimentColumns) :
    ((updateDocJson blob c.payload sqliteExperimentColumns).item k).map (Value.dump 'T') =
      ((c.payload.item k).or (blob.item k)).map (Value.dump 'T') :=
  blob_merged c.payload_nodup blob hk

/-- A key that no merged update names keeps its value. -/
theorem item_mergeAll_of_not_named {k : String} (hk : k ∉ sqliteExperimentColumns)
    {l : List ι} (h : ∀ j ∈ l, (calls j).payload.item k = none) (blob : Doc) :
    ((mergeAll calls l blob).item k).map (Value.dump 'T') =
      (blob.item k).map (Value.dump 'T') := by
  induction l generalizing blob with
  | nil => rfl
  | cons j l ih =>
      rw [List.forall_mem_cons] at h
      change ((mergeAll calls l _).item k).map _ = _
      rw [ih h.2, map_dump_updateDocJson _ _ hk, h.1, Option.none_or]

/-- A key of a merged update has the value of that update. -/
theorem item_mergeAll_of_mem (hd : KeysDisjoint calls) {k : String} {v : Value} {i : ι}
    (hk : k ∉ sqliteExperimentColumns) (hv : (calls i).payload.item k = some v) {l : List ι}
    (hi : i ∈ l) (blob : Doc) :
    ((mergeAll calls l blob).item k).map (Value.dump 'T') = some (v.dump 'T') := by
  refine read_foldl_of_mem (fun b : Doc => (b.item k).map (Value.dump 'T'))
    (fun b => ?_) (fun b j hj => ?_) hi blob
  · rw [map_dump_updateDocJson _ _ hk, hv]
    rfl
  · rw [map_dump_updateDocJson _ _ hk, hd.item_eq_none hv hj, Option.none_or]

end Merge

/-! ## Columns -/

theorem ExperimentCall.fields_nodup {c : ExperimentCall} {fields : Doc}
    (h : c.fields = some fields) : fields.keys.Nodup := by
  cases c with
  | update u => exact experimentEncoders_nodup.sublist (keys_encodeColumns h)
  | mark status completedAt =>
      obtain rfl := Option.some.inj h
      simp [Doc.keys]

/-- A call assigns columns of its own keys, and never the primary key. -/
theorem ExperimentCall.mem_payload_of_field {c : ExperimentCall} {fields : Doc}
    (h : c.fields = some fields) {k : String} (hk : fields.item k ≠ none) :
    k ∈ c.payload.keys ∧ k ≠ "experiment_id" := by
  cases c with
  | update u =>
      have hitem := item_encodeColumns experimentEncoders_nodup h k
      refine ⟨?_, fun he => ?_⟩
      · by_contra hn
        have hnone : u.items.item k = none := Doc.item_eq_none_iff.mpr hn
        rw [hnone] at hitem
        rw [hitem] at hk
        cases hl : experimentEncoders.lookup k with
        | none => simp [hl] at hk
        | some encode => simp [hl] at hk
      · subst he
        exact hk hitem
  | mark status completedAt =>
      obtain rfl := Option.some.inj h
      rw [ne_eq, Doc.item_eq_none_iff, not_not] at hk
      refine ⟨hk, fun he => ?_⟩
      subst he
      revert hk
      simp [Doc.keys]

/-- The value is one that the column of its key keeps: not another id, and not a snapshot
    with a truth value of false. -/
def ColumnKeeps (row : Row) (k : String) (v : Value) : Prop :=
  if k = "experiment_id" then SameValue (row.columns.get k) v
  else k = "vector_store_snapshot" → v = .null ∨ v.truthy = true

theorem ExperimentCall.field_of_payload {c : ExperimentCall} {fields : Doc}
    (h : c.fields = some fields) {k : String} (hk : k ∈ sqliteExperimentColumns)
    (hid : k ≠ "experiment_id") {v : Value} (hv : c.payload.item k = some v) (row : Row) :
    ∃ w, fields.item k = some w ∧ (SameValue (decodeColumn k w) v ↔ ColumnKeeps row k v) := by
  unfold ColumnKeeps
  rw [if_neg hid]
  cases c with
  | update u => exact promotedFields_item h hk hid hv
  | mark status completedAt =>
      obtain rfl := Option.some.inj h
      have hmem : k ∈ (ExperimentCall.mark status completedAt).payload.keys := by
        by_contra hn
        rw [Doc.item_eq_none_iff.mpr hn] at hv
        cases hv
      simp only [ExperimentCall.payload, statusUpdate, Doc.keys, List.map_cons, List.map_nil,
        List.mem_cons, List.not_mem_nil, or_false] at hmem
      rcases hmem with rfl | rfl
      · obtain rfl := Option.some.inj hv
        exact ⟨_, rfl, iff_of_true SameValue.rfl fun he => absurd he (by decide)⟩
      · obtain rfl := Option.some.inj hv
        refine ⟨_, rfl, iff_of_true ?_ fun he => absurd he (by decide)⟩
        cases completedAt <;> exact SameValue.rfl

/-! ## The invariant of a schedule -/

section Schedule

variable {calls : ι → ExperimentCall}

/-- What the row and the calls hold after a schedule, in terms of what it merged. -/
structure MergeInv (calls : ι → ExperimentCall) (start : Row) (s : SharedRow ι)
    (m : Merged ι) : Prop where
  blob : s.row.blob = mergeAll calls m.current start.blob
  idle : ∀ i, s.calls i = .idle → m.seen i = none
  read : ∀ i blob, s.calls i = .read blob →
    ∃ l, m.seen i = some l ∧ blob = mergeAll calls l start.blob
  returned : ∀ i, s.calls i = .returned → ∃ fields, (calls i).fields = some fields ∧
    ∀ k w, fields.item k = some w → s.row.columns.item k = some w
  key : s.row.columns.get "experiment_id" = start.columns.get "experiment_id"

theorem mergeInv_start (start : Row) :
    MergeInv calls start (SharedRow.start start) ⟨[], fun _ => none⟩ where
  blob := rfl
  idle := fun _ _ => rfl
  read := fun i blob h => by cases h
  returned := fun i h => by cases h
  key := rfl

theorem get_update_fields {c : ExperimentCall} {fields : Doc} (hf : c.fields = some fields)
    (columns : Doc) :
    (columns.update fields).get "experiment_id" = columns.get "experiment_id" := by
  have hnone : fields.item "experiment_id" = none := by
    by_contra hne
    exact (ExperimentCall.mem_payload_of_field hf hne).2 rfl
  rw [Doc.get_update (ExperimentCall.fields_nodup hf), hnone]
  rfl

variable [DecidableEq ι]

theorem of_update_returned {f : ι → CallState} {i j : ι} {c : CallState}
    (hc : c ≠ .returned) (h : Function.update f i .returned j = c) : f j = c := by
  by_cases hij : j = i
  · subst hij
    rw [Function.update_self] at h
    exact absurd h.symm hc
  · rwa [Function.update_of_ne hij] at h

/-- What call `i` assigns leaves the columns of the other calls and the primary key. -/
theorem MergeInv.assign (hd : KeysDisjoint calls) {start : Row} {s : SharedRow ι}
    {m : Merged ι} (h : MergeInv calls start s m) {i : ι} {fields : Doc}
    (hf : (calls i).fields = some fields) {j : ι}
    (hj : (Function.update s.calls i .returned) j = .returned) :
    ∃ fs, (calls j).fields = some fs ∧
      ∀ k w, fs.item k = some w → (s.row.columns.update fields).item k = some w := by
  have hn := ExperimentCall.fields_nodup hf
  by_cases hij : j = i
  · subst hij
    refine ⟨fields, hf, fun k w hw => ?_⟩
    rw [Doc.item_update hn, hw, Option.some_or]
  · rw [Function.update_of_ne hij] at hj
    obtain ⟨fs, hfs, hcols⟩ := h.returned j hj
    refine ⟨fs, hfs, fun k w hw => ?_⟩
    have hkj := (ExperimentCall.mem_payload_of_field hfs (k := k) (by simp [hw])).1
    -- `k` is a key of call `j`, so call `i` does not assign it
    have hnone : fields.item k = none := by
      by_contra hne
      exact hd j i hij k hkj (ExperimentCall.mem_payload_of_field hf hne).1
    rw [Doc.item_update hn, hnone, Option.none_or, hcols k w hw]

theorem MergeInv.step (hd : KeysDisjoint calls) {start : Row} {s s' : SharedRow ι}
    {m : Merged ι} (h : MergeInv calls start s m) {i : ι} (hs : callStep calls s i = some s') :
    MergeInv calls start s' (mergeStep calls m i) := by
  unfold callStep at hs
  unfold mergeStep
  split at hs
  · -- the call reads the text
    rename_i u hc hidle
    obtain rfl := Option.some.inj hs
    rw [hc, h.idle i hidle]
    refine ⟨h.blob, fun j hj => ?_, fun j blob hj => ?_, fun j hj => ?_, h.key⟩
    · by_cases hij : j = i
      · subst hij
        simp at hj
      · simp only [Function.update_of_ne hij] at hj ⊢
        exact h.idle j hj
    · by_cases hij : j = i
      · subst hij
        simp only [Function.update_self, CallState.read.injEq] at hj ⊢
        exact ⟨m.current, rfl, hj ▸ h.blob⟩
      · simp only [Function.update_of_ne hij] at hj ⊢
        exact h.read j blob hj
    · by_cases hij : j = i
      · subst hij
        simp at hj
      · simp only [Function.update_of_ne hij] at hj
        exact h.returned j hj
  · -- the call writes the text that it merged into what it had read
    rename_i u blob hc hread
    obtain ⟨fields, hf, rfl⟩ := Option.map_eq_some_iff.mp hs
    obtain ⟨l, hseen, hblob⟩ := h.read i blob hread
    have hfields : (calls i).fields = some fields := by rw [hc]; exact hf
    rw [hc, hseen]
    refine ⟨?_, fun j hj => h.idle j (of_update_returned nofun hj),
      fun j b hj => h.read j b (of_update_returned nofun hj),
      fun j hj => h.assign hd hfields hj, (get_update_fields hfields _).trans h.key⟩
    change updateDocJson blob u.items _ = _
    rw [mergeAll_append_singleton, hc, ← hblob]
    rfl
  · -- a mark assigns columns only
    rename_i status completedAt hc hidle
    obtain ⟨fields, hf, rfl⟩ := Option.map_eq_some_iff.mp hs
    have hfields : (calls i).fields = some fields := by rw [hc]; exact hf
    rw [hc]
    exact ⟨h.blob, fun j hj => h.idle j (of_update_returned nofun hj),
      fun j b hj => h.read j b (of_update_returned nofun hj),
      fun j hj => h.assign hd hfields hj, (get_update_fields hfields _).trans h.key⟩
  · cases hs

theorem MergeInv.exec (hd : KeysDisjoint calls) {start : Row} {s s' : SharedRow ι}
    {m : Merged ι} (h : MergeInv calls start s m) {schedule : List ι}
    (hs : StepMachine.exec (callStep calls) s schedule = some s') :
    MergeInv calls start s' (schedule.foldl (mergeStep calls) m) := by
  induction schedule generalizing s m with
  | nil =>
      obtain rfl := Option.some.inj hs
      exact h
  | cons i schedule ih =>
      obtain ⟨t, ht, hrest⟩ := Option.bind_eq_some_iff.mp hs
      exact ih (h.step hd ht) hrest

/-! ## The document after the last return -/

/-- One key of one call, after all calls have returned. -/
theorem MergeInv.holds_iff (hd : KeysDisjoint calls) {start : Row} {s : SharedRow ι}
    {m : Merged ι} (h : MergeInv calls start s m) {i : ι} (hi : s.calls i = .returned)
    {k : String} {v : Value} (hv : (calls i).payload.item k = some v) (hk : k ≠ "_id") :
    ((experimentRowToDoc s.row true).item k).map (Value.dump 'T') = some (v.dump 'T') ↔
      if k ∈ sqliteExperimentColumns then ColumnKeeps start k v
      else i ∈ m.current ∨
        (start.blob.item k).map (Value.dump 'T') = some (v.dump 'T') := by
  rw [item_experimentRowToDoc _ _ hk, item_readRow (by decide)]
  by_cases hc : k ∈ sqliteExperimentColumns
  · rw [if_pos hc, if_pos hc, Option.map_some, Option.some.injEq]
    by_cases hid : k = "experiment_id"
    · subst hid
      rw [h.key, ColumnKeeps, if_pos rfl]
      exact Iff.rfl
    · obtain ⟨fields, hf, hcols⟩ := h.returned i hi
      obtain ⟨w, hw, hsame⟩ := ExperimentCall.field_of_payload hf hc hid hv start
      rw [Doc.get_eq_item, hcols k w hw]
      exact hsame
  · rw [if_neg hc, if_neg hc, h.blob]
    by_cases hmem : i ∈ m.current
    · exact iff_of_true (item_mergeAll_of_mem hd hc hv hmem start.blob) (Or.inl hmem)
    · have hnot : ∀ j ∈ m.current, (calls j).payload.item k = none := fun j hj =>
        hd.item_eq_none hv fun he => hmem (he ▸ hj)
      rw [item_mergeAll_of_not_named hc hnot]
      exact ⟨Or.inr, fun hor => hor.resolve_left hmem⟩

/-- After all calls have returned, the document holds what they wrote exactly when each
    update that adds to the text is among the merged ones (or the text held its values
    before), and each column keeps the value that it is given. -/
theorem updates_hold_iff (hd : KeysDisjoint calls) {start : Row} {schedule : List ι}
    {s : SharedRow ι} (hs : exec (callStep calls) (SharedRow.start start) schedule = some s)
    (hall : ∀ i, s.calls i = .returned) :
    HoldsAll calls s.row ↔
      ∀ i k v, (calls i).payload.item k = some v → k ≠ "_id" →
        if k ∈ sqliteExperimentColumns then ColumnKeeps start k v
        else i ∈ merged calls schedule ∨
          (start.blob.item k).map (Value.dump 'T') = some (v.dump 'T') := by
  have hinv := (mergeInv_start start).exec hd hs
  unfold HoldsAll
  refine forall_congr' fun i => forall_congr' fun k => forall_congr' fun v => ?_
  refine imp_congr_right fun hv => imp_congr_right fun hk => ?_
  exact hinv.holds_iff hd (hall i) hv hk

end Schedule

/-- The document that `insert_experiment` stored. -/
def createdRow : Row where
  columns := [("experiment_id", .str "e1"), ("experiment_name", .str "sweep"),
    ("status", .str "running"), ("created_at", .timeText 'T' 1), ("started_at", .null),
    ("completed_at", .null), ("vector_store_snapshot", .null)]
  blob := [("run_count", .int 4)]

def summaryItems : Doc := [("sweep_summary", .dict [("golden_queries", .int 9)])]

theorem summaryItems_nodup : summaryItems.keys.Nodup := by decide

def startItems : Doc := [("started_at", .time 2)]

theorem startItems_nodup : startItems.keys.Nodup := by decide

/-- A worker thread stores the number of golden queries, the sweep thread its start. -/
def twoUpdates : Bool → ExperimentCall
  | false => .update ⟨summaryItems, summaryItems_nodup⟩
  | true => .update ⟨startItems, startItems_nodup⟩

theorem twoUpdates_disjoint : KeysDisjoint twoUpdates := by
  unfold KeysDisjoint
  decide

/-- The row after the two updates, one after the other. -/
theorem updates_hold_in_turn :
    ∃ s, exec (callStep twoUpdates) (SharedRow.start createdRow) [false, false, true, true] =
        some s ∧
      (HoldsAll twoUpdates s.row ↔
        ∀ i k v, (twoUpdates i).payload.item k = some v → k ≠ "_id" →
          if k ∈ sqliteExperimentColumns then ColumnKeeps createdRow k v
          else i ∈ merged twoUpdates [false, false, true, true] ∨
            (createdRow.blob.item k).map (Value.dump 'T') = some (v.dump 'T')) :=
  ⟨_, rfl, updates_hold_iff twoUpdates_disjoint rfl fun i => by cases i <;> rfl⟩

/-- The sweep thread reads before the worker writes and writes after it: the number of golden
    queries is lost, although the sweep thread names only a column. -/
theorem summary_lost :
    ∃ s, exec (callStep twoUpdates) (SharedRow.start createdRow) [true, false, false, true] =
        some s ∧
      (∀ i, s.calls i = .returned) ∧ KeysDisjoint twoUpdates ∧ ¬ HoldsAll twoUpdates s.row := by
  refine ⟨_, rfl, fun i => by cases i <;> rfl, twoUpdates_disjoint, fun h => ?_⟩
  have hsummary := h false "sweep_summary" _ rfl (by decide)
  cases hsummary

/-! ## One statement an update -/

/-- The MongoDB `$set` of each call, in the order in which the server takes them. -/
def mongoUpdates (calls : ι → ExperimentCall) (order : List ι) (doc : Doc) : Doc :=
  order.foldl (fun d i => d.update (calls i).payload) doc

/-- The Postgres statement of each call, in the order in which the server takes them. -/
def postgresUpdates (calls : ι → ExperimentCall) (order : List ι) (r : Row) : Row :=
  order.foldl (fun r i => updateStatement postgresExperimentColumns "experiment_id" r
    (calls i).payload) r

/-- In any order, `$set` leaves what each call wrote. -/
theorem mongo_updates_hold {calls : ι → ExperimentCall} (hd : KeysDisjoint calls)
    {order : List ι} {i : ι} (hi : i ∈ order) {k : String} {v : Value}
    (hv : (calls i).payload.item k = some v) (doc : Doc) :
    (mongoUpdates calls order doc).item k = some v := by
  refine read_foldl_of_mem (fun d : Doc => d.item k) (fun d => ?_) (fun d j hj => ?_)
    hi doc
  · rw [Doc.item_update (calls i).payload_nodup, hv, Option.some_or]
  · rw [Doc.item_update (calls j).payload_nodup, hd.item_eq_none hv hj, Option.none_or]

/-- In any order, `doc || …` and the column assignments leave what each call wrote. -/
theorem postgres_updates_hold {calls : ι → ExperimentCall} (hd : KeysDisjoint calls)
    {order : List ι} {i : ι} (hi : i ∈ order) {k : String} {v : Value}
    (hv : (calls i).payload.item k = some v) (hkey : k ≠ "experiment_id") (hid : k ≠ "_id")
    (r : Row) :
    ((postgresRowToDoc postgresExperimentColumns (postgresUpdates calls order r)).item k).map
      (Value.dump 'T') = some (v.dump 'T') := by
  refine read_foldl_of_mem
    (fun r => ((postgresRowToDoc postgresExperimentColumns r).item k).map
      (Value.dump 'T')) (fun r => ?_) (fun r j hj => ?_) hi r
  · rw [item_updateStatement (by decide) (calls i).payload_nodup r hkey hid, hv]
    rfl
  · rw [item_updateStatement (by decide) (calls j).payload_nodup r hkey hid,
      hd.item_eq_none hv hj, Option.none_or]

end RagParamsFinder
