/-
  `completed_at` and the status of an experiment document, over every writer and every
  run-state store, and how the dashboard reads the two
  (`frontend/src/utils/experimentStatus.ts`).

  Each writer is taken at its store write. The checks that come before it may have been
  overtaken by another writer, so the writes of a document come in any order.

  Proved: in every store, `completed_at` is set only on finished experiments and the
  dashboard agrees with the status, exactly when no writer stores PAUSED.
-/
import RagParamsFinder.Pipeline.StartupReconciliation
import RagParamsFinder.Store.LostUpdates

namespace RagParamsFinder

open Documents

/-! ## The writers -/

/-- The keys of an update beside those of `ExperimentUpdate`. -/
structure OtherKeys where
  preEmbed : Option Value := none
  sweepSummary : Option Value := none
  gridEquivalentCount : Option Value := none
  bayesianSummary : Option Value := none

/-- A write of an experiment document: an `update_experiment`, or a `mark_experiment_*`. -/
inductive StoreWrite where
  | update (u : ExperimentUpdate) (others : OtherKeys)
  | mark (status : ExperimentStatus) (completedAt : Option Nat)

/-- The writers of an experiment document, with what each takes from its surroundings. -/
inductive ExperimentWrite where
  | sweepStarted (now : Nat)
  | gridEnded (wasCancelled wasPaused : Bool) (runs summaries : List Phase) (total : Nat)
      (infrastructureError : Option String) (now : Nat)
  | bayesianEnded (wasCancelled wasPaused : Bool) (runs : List Phase) (planned attempted : Nat)
      (gridEquivalentCount bayesianSummary : Value) (infrastructureError : Option String)
      (now : Nat)
  | preflightFailed (runs : Nat) (message : String) (now : Nat)
  | cancelled (now : Nat)
  | paused (now : Nat)
  | resumed
  | readReconciled (runs : List Phase) (expected now : Nat)
  | startupReconciled (runs : List Phase) (expected now : Nat)
  | startupPreEmbedFailed (reason : String) (now : Nat)
  | watcherFailed (reason : String)
  | watcherReady
  | preEmbedWaiting (batches : Value)
  | goldenQueriesCounted (sweepSummary : Value)

/-- The store write of a writer; `none` when it finds nothing to resolve. -/
def ExperimentWrite.storeWrite : ExperimentWrite → Option StoreWrite
  | .sweepStarted now => some (.update { startedAt := some now } {})
  | .gridEnded wasCancelled wasPaused runs summaries total infra now =>
      some (.update (finalUpdate (gridOutcome wasCancelled wasPaused runs summaries total)
        total infra now) {})
  | .bayesianEnded wasCancelled wasPaused runs planned attempted grid summary infra now =>
      some (.update (finalUpdate
        (bayesianOutcome wasCancelled wasPaused runs planned attempted) planned infra now)
        { gridEquivalentCount := some grid, bayesianSummary := some summary })
  | .preflightFailed runs message now => some (.update (preflightFailure runs message now) {})
  | .cancelled now => some (.mark .cancelled (some now))
  | .paused now => some (.mark .paused (some now))
  | .resumed => some (.mark .running none)
  | .readReconciled runs expected now =>
      (normalizeStaleRunning runs expected).map fun (status, failed, reason) =>
        .update { status := some status, failedCount := some failed,
                  completionReason := some reason, completedAt := some now } {}
  | .startupReconciled runs expected now => some (.update (orphanUpdate expected runs now) {})
  | .startupPreEmbedFailed reason now => some (.update (preEmbedFailure reason now) {})
  | .watcherFailed reason =>
      some (.update { status := some .failed }
        { preEmbed := some (.dict [("state", .str "failed"), ("reason", .str reason)]) })
  | .watcherReady =>
      some (.update {} { preEmbed := some (.dict [("state", .str "ready")]) })
  | .preEmbedWaiting batches =>
      some (.update {}
        { preEmbed := some (.dict [("state", .str "waiting"), ("batches", batches)]) })
  | .goldenQueriesCounted summary => some (.update {} { sweepSummary := some summary })

/-- The items of an update. -/
def updateItems (u : ExperimentUpdate) (o : OtherKeys) : List (String × Option Value) :=
  [("status", u.status.map fun s => .str s.value),
   ("run_count", u.runCount.map fun n => .int n),
   ("failed_count", u.failedCount.map fun n => .int n),
   ("completion_reason", u.completionReason.map .str),
   ("started_at", u.startedAt.map fun t : Nat => .time (t : Int)),
   ("completed_at", u.completedAt.map fun t : Nat => .time (t : Int)),
   ("error_message", u.errorMessage.map .str),
   ("pre_embed", o.preEmbed),
   ("sweep_summary", o.sweepSummary),
   ("grid_equivalent_count", o.gridEquivalentCount),
   ("bayesian_summary", o.bayesianSummary)]

def updateKeys : List String :=
  ["status", "run_count", "failed_count", "completion_reason", "started_at", "completed_at",
   "error_message", "pre_embed", "sweep_summary", "grid_equivalent_count", "bayesian_summary"]

theorem updateKeys_nodup : updateKeys.Nodup := by decide

theorem updateDoc_nodup (u : ExperimentUpdate) (o : OtherKeys) :
    (Doc.ofOptions (updateItems u o)).keys.Nodup :=
  updateKeys_nodup.sublist (Doc.keys_ofOptions_sublist (updateItems u o))

/-- The call of the adapter. -/
def StoreWrite.call : StoreWrite → ExperimentCall
  | .update u o => .update ⟨Doc.ofOptions (updateItems u o), updateDoc_nodup u o⟩
  | .mark status completedAt => .mark status (completedAt.map fun t => (t : Int))

/-! ## The stored document -/

inductive StoredExperimentDoc where
  | mongo (d : Doc)
  | postgres (r : Row)
  | sqlite (r : Row)

namespace StoredExperimentDoc

/-- The document as the API returns it. -/
def read : StoredExperimentDoc → Doc
  | .mongo d => d
  | .postgres r => postgresRowToDoc postgresExperimentColumns r
  | .sqlite r => experimentRowToDoc r false

/-- `update_experiment` and `mark_experiment_*`, in each store. -/
def apply : StoredExperimentDoc → ExperimentCall → StoredExperimentDoc
  | .mongo d, c => .mongo (d.update c.payload)
  | .postgres r, .update u =>
      .postgres (updateStatement postgresExperimentColumns "experiment_id" r u.items)
  | .postgres r, .mark status completedAt =>
      .postgres { r with
        columns := r.columns.update (ExperimentCall.mark status completedAt).payload }
  | .sqlite r, .update u =>
      match promotedFields u.items with
      | none => .sqlite r
      | some fields =>
          .sqlite ⟨r.columns.update fields,
            updateDocJson r.blob u.items sqliteExperimentColumns⟩
  | .sqlite r, .mark status completedAt =>
      match (ExperimentCall.mark status completedAt).fields with
      | none => .sqlite r
      | some fields => .sqlite { r with columns := r.columns.update fields }

def write (s : StoredExperimentDoc) (w : ExperimentWrite) : StoredExperimentDoc :=
  match w.storeWrite with
  | none => s
  | some sw => s.apply sw.call

/-- The keys of the document that `create_experiment` inserts that are read here. -/
def createdItems (id name : String) (now : Int) : Doc :=
  [("_id", .str id), ("experiment_id", .str id), ("experiment_name", .str name),
   ("created_at", .time now), ("started_at", .null), ("completed_at", .null),
   ("status", .str ExperimentStatus.running.value)]

/-- `create_experiment`. -/
def create (st : RunStateStore) (id name : String) (now : Int) : StoredExperimentDoc :=
  match st with
  | .mongo => .mongo (createdItems id name now)
  | .postgres =>
      .postgres (Row.ofDoc postgresExperimentColumns derivedKeys (createdItems id name now))
  | .sqlite =>
      match experimentRow (createdItems id name now) with
      | some row => .sqlite row
      | none => .sqlite ⟨[], []⟩

end StoredExperimentDoc

/-! ## The dashboard -/

/-- `TERMINAL_STATUSES`. -/
def terminalStatuses : List String := ["complete", "failed", "partial", "cancelled"]

def isCompletedByTimestamp (completedAt : Value) : Bool := completedAt.truthy

def isTerminalExperimentStatus (status completedAt : Value) : Bool :=
  if isCompletedByTimestamp completedAt then true
  else if !status.truthy then false
  else terminalStatuses.any status.isStr

def isRunningExperimentStatus (status completedAt : Value) : Bool :=
  if isCompletedByTimestamp completedAt then false else status.isStr "running"

def isPausedExperimentStatus (status completedAt : Value) : Bool :=
  if isCompletedByTimestamp completedAt then false else status.isStr "paused"

/-- `completed_at` is set only on a finished experiment. -/
def CompletedMarksFinished (d : Doc) : Prop :=
  d.get "completed_at" ≠ .null → terminalStatuses.any (d.get "status").isStr = true

/-- The dashboard classifies the experiment as its stored status does. -/
def DashboardAgrees (d : Doc) : Prop :=
  isTerminalExperimentStatus (d.get "status") (d.get "completed_at") =
      terminalStatuses.any (d.get "status").isStr ∧
    isRunningExperimentStatus (d.get "status") (d.get "completed_at") =
      (d.get "status").isStr "running" ∧
    isPausedExperimentStatus (d.get "status") (d.get "completed_at") =
      (d.get "status").isStr "paused"

/-- The writer stores PAUSED. -/
def ExperimentWrite.StoresPaused : ExperimentWrite → Prop
  | .gridEnded wasCancelled wasPaused .. => wasCancelled = false ∧ wasPaused = true
  | .bayesianEnded wasCancelled wasPaused .. => wasCancelled = false ∧ wasPaused = true
  | .paused _ => True
  | _ => False

/-! ## What a write leaves under the two keys -/

theorem item_updateDoc {u : ExperimentUpdate} {o : OtherKeys} {k : String} {v : Option Value}
    (h : (k, v) ∈ updateItems u o) : (Doc.ofOptions (updateItems u o)).item k = v :=
  @Doc.item_ofOptions (updateItems u o) updateKeys_nodup k v h

theorem item_updateDoc_absent (u : ExperimentUpdate) (o : OtherKeys) {k : String}
    (h : k ∉ updateKeys) : (Doc.ofOptions (updateItems u o)).item k = none :=
  Doc.item_eq_none_iff.mpr fun hm =>
    h ((Doc.keys_ofOptions_sublist (updateItems u o)).subset hm)

/-- No writer gives a column a value of another type. -/
theorem StoreWrite.fields_isSome (sw : StoreWrite) : ∃ fields, sw.call.fields = some fields := by
  cases sw with
  | mark status completedAt => exact ⟨_, rfl⟩
  | update u o =>
      refine Option.isSome_iff_exists.mp ?_
      change (promotedFields (Doc.ofOptions (updateItems u o))).isSome = true
      rw [promotedFields, isSome_encodeColumns]
      simp only [experimentEncoders, List.all_cons, List.all_nil, Bool.and_true]
      rw [item_updateDoc_absent u o (k := "experiment_name") (by decide),
        item_updateDoc_absent u o (k := "created_at") (by decide),
        item_updateDoc_absent u o (k := "vector_store_snapshot") (by decide),
        item_updateDoc (k := "status") (v := u.status.map fun s => .str s.value)
          (by simp [updateItems]),
        item_updateDoc (k := "started_at") (v := u.startedAt.map fun t : Nat => .time (t : Int))
          (by simp [updateItems]),
        item_updateDoc (k := "completed_at") (v := u.completedAt.map fun t : Nat => .time (t : Int))
          (by simp [updateItems])]
      cases u.status <;> cases u.startedAt <;> cases u.completedAt <;> rfl

theorem sameValue_of_map_dump {a b : Option Value}
    (h : a.map (Value.dump 'T') = b.map (Value.dump 'T')) :
    SameValue (a.getD .null) (b.getD .null) := by
  cases a with
  | none =>
      cases b with
      | none => exact SameValue.rfl
      | some w => cases h
  | some v =>
      cases b with
      | none => cases h
      | some w => exact Option.some.inj h

theorem getD_or_getD (a b : Option Value) (v : Value) :
    (a.or b).getD v = a.getD (b.getD v) := by
  cases a <;> rfl

/-- The two keys that the dashboard reads. -/
def statusKeys : List String := ["status", "completed_at"]

namespace StoredExperimentDoc

theorem sqlite_get (r : Row) {k : String} (hk : k ∈ sqliteExperimentColumns)
    (hid : k ≠ "_id") : (read (.sqlite r)).get k = decodeColumn k (r.columns.get k) := by
  rw [read, Doc.get_eq_item, item_experimentRowToDoc _ _ hid, item_readRow (by decide),
    if_pos hk]
  rfl

theorem sqlite_get_update {c : ExperimentCall} {fields : Doc} (hf : c.fields = some fields)
    (r : Row) (blob : Doc) {k : String} (hk : k ∈ statusKeys) :
    SameValue ((read (.sqlite ⟨r.columns.update fields, blob⟩)).get k)
      ((c.payload.item k).getD ((read (.sqlite r)).get k)) := by
  have hcol : k ∈ sqliteExperimentColumns := by revert k; decide
  have hid : k ≠ "_id" := by revert k; decide
  have hkey : k ≠ "experiment_id" := by revert k; decide
  have hsnap : k ≠ "vector_store_snapshot" := by revert k; decide
  rw [sqlite_get _ hcol hid, sqlite_get _ hcol hid,
    Doc.get_update (ExperimentCall.fields_nodup hf)]
  cases hv : c.payload.item k with
  | none =>
      have hnone : fields.item k = none := by
        by_contra hne
        exact Doc.item_eq_none_iff.mp hv (ExperimentCall.mem_payload_of_field hf hne).1
      rw [hnone]
      exact SameValue.rfl
  | some v =>
      obtain ⟨w, hw, hsame⟩ := ExperimentCall.field_of_payload hf hcol hkey hv r
      rw [hw]
      refine hsame.mpr ?_
      rw [ColumnKeeps, if_neg hkey]
      exact fun he => absurd he hsnap

theorem postgres_get (r : Row) {k : String} (hk : k ∈ postgresExperimentColumns) :
    (read (.postgres r)).get k = r.columns.get k := by
  rw [read, Doc.get_eq_item, item_postgresRowToDoc (by decide), if_pos hk]
  rfl

/-- A call leaves the value it names, else the one that was there, in every store. -/
theorem read_apply (s : StoredExperimentDoc) {c : ExperimentCall} {fields : Doc}
    (hf : c.fields = some fields) {k : String} (hk : k ∈ statusKeys) :
    SameValue ((s.apply c).read.get k) ((c.payload.item k).getD (s.read.get k)) := by
  have hcol : k ∈ postgresExperimentColumns := by revert k; decide
  have hid : k ≠ "_id" := by revert k; decide
  have hkey : k ≠ "experiment_id" := by revert k; decide
  cases s with
  | mongo d =>
      change SameValue ((d.update c.payload).get k) _
      rw [Doc.get_update c.payload_nodup]
      exact SameValue.rfl
  | postgres r =>
      cases c with
      | update u =>
          have hitem := @item_updateStatement postgresExperimentColumns (by decide) _ _ _
            u.nodup r hkey hid
          have hsame := sameValue_of_map_dump hitem
          rw [getD_or_getD] at hsame
          exact hsame
      | mark status completedAt =>
          rw [apply, postgres_get _ hcol, postgres_get _ hcol,
            Doc.get_update (ExperimentCall.payload_nodup _)]
          exact SameValue.rfl
  | sqlite r =>
      cases c with
      | update u =>
          have hu : promotedFields u.items = some fields := hf
          rw [apply, hu]
          exact sqlite_get_update hf r _ hk
      | mark status completedAt =>
          rw [apply, hf]
          exact sqlite_get_update hf r r.blob hk

end StoredExperimentDoc

/-! ## The two fields over a run of writes -/

/-- A finished status. -/
def ExperimentStatus.terminal : ExperimentStatus → Bool
  | .complete => true
  | .partialStatus => true
  | .failed => true
  | .cancelled => true
  | _ => false

/-- What a write makes of the status and of `completed_at`. -/
def StoreWrite.effect : StoreWrite → ExperimentStatus × Option Nat →
    ExperimentStatus × Option Nat
  | .update u _, p => (u.status.getD p.1, u.completedAt <|> p.2)
  | .mark status completedAt, _ => (status, completedAt)

theorem StoreWrite.effect_update (u : ExperimentUpdate) (o : OtherKeys)
    (p : ExperimentStatus × Option Nat) :
    (StoreWrite.update u o).effect p = (u.status.getD p.1, u.completedAt <|> p.2) :=
  rfl

def ExperimentWrite.effect (w : ExperimentWrite) (p : ExperimentStatus × Option Nat) :
    ExperimentStatus × Option Nat :=
  match w.storeWrite with
  | none => p
  | some sw => sw.effect p

/-- The document shows this status and this `completed_at`. -/
structure Shows (d : Doc) (p : ExperimentStatus × Option Nat) : Prop where
  status : SameValue (d.get "status") (.str p.1.value)
  completedAt : SameValue (d.get "completed_at")
    ((p.2.map fun t : Nat => Value.time (t : Int)).getD .null)

theorem Shows.write {s : StoredExperimentDoc} {p : ExperimentStatus × Option Nat}
    (h : Shows s.read p) (w : ExperimentWrite) : Shows (s.write w).read (w.effect p) := by
  unfold StoredExperimentDoc.write ExperimentWrite.effect
  cases w.storeWrite with
  | none => exact h
  | some sw =>
      obtain ⟨fields, hf⟩ := sw.fields_isSome
      have hstatus := s.read_apply hf (k := "status") (by decide)
      have hcompleted := s.read_apply hf (k := "completed_at") (by decide)
      cases sw with
      | mark status completedAt =>
          refine ⟨hstatus, ?_⟩
          cases completedAt <;> exact hcompleted
      | update u o =>
          change SameValue _ (((Doc.ofOptions (updateItems u o)).item _).getD _) at hstatus
          change SameValue _ (((Doc.ofOptions (updateItems u o)).item _).getD _) at hcompleted
          rw [item_updateDoc (v := u.status.map fun s => .str s.value)
            (by simp [updateItems])] at hstatus
          rw [item_updateDoc (v := u.completedAt.map fun t : Nat => .time (t : Int))
            (by simp [updateItems])] at hcompleted
          constructor
          · change SameValue _ (.str (u.status.getD p.1).value)
            cases hs : u.status with
            | none =>
                rw [hs] at hstatus
                exact hstatus.trans h.status
            | some status =>
                rw [hs] at hstatus
                exact hstatus
          · change SameValue _
              (((u.completedAt <|> p.2).map fun t : Nat => Value.time (t : Int)).getD .null)
            cases hc : u.completedAt with
            | none =>
                rw [hc] at hcompleted
                exact hcompleted.trans h.completedAt
            | some t =>
                rw [hc] at hcompleted
                exact hcompleted

theorem shows_create (st : RunStateStore) (id name : String) (now : Int) :
    Shows (StoredExperimentDoc.create st id name now).read (.running, none) := by
  cases st with
  | mongo => exact ⟨rfl, rfl⟩
  | postgres =>
      have hcolumn : ∀ k ∈ postgresExperimentColumns,
          (StoredExperimentDoc.create .postgres id name now).read.get k =
            (StoredExperimentDoc.createdItems id name now).get k := fun k hk =>
        (StoredExperimentDoc.postgres_get _ hk).trans (Doc.get_map_columns _ hk)
      constructor
      · rw [hcolumn "status" (by decide)]
        rfl
      · rw [hcolumn "completed_at" (by decide)]
        rfl
  | sqlite =>
      have hpayload : TypedPayload sqliteExperimentColumns
          (StoredExperimentDoc.createdItems id name now) := by
        intro c hc
        simp only [sqliteExperimentColumns, List.mem_cons, List.not_mem_nil, or_false] at hc
        rcases hc with rfl | rfl | rfl | rfl | rfl | rfl | rfl <;> rfl
      obtain ⟨row, hrow⟩ := Option.isSome_iff_exists.mp (isSome_experimentRow hpayload)
      have hsame := sameDoc_experimentRow hrow
      rw [StoredExperimentDoc.create, hrow]
      exact ⟨hsame "status" (by decide), hsame "completed_at" (by decide)⟩

/-! ## What each writer stores -/

theorem computeFinalStatus_terminal (runs : List Phase) (n : Nat) :
    (computeFinalStatus runs n).1.terminal = true := by
  unfold computeFinalStatus
  dsimp only
  split
  · rfl
  · split <;> rfl

theorem deriveExperimentStatus_terminal (runs : List Phase) (n : Nat) :
    (deriveExperimentStatus runs n).1.terminal = true := by
  unfold deriveExperimentStatus
  dsimp only
  split
  · rfl
  · split <;> rfl

theorem normalizeStaleRunning_terminal {runs : List Phase} {n failed : Nat}
    {status : ExperimentStatus} {reason : String}
    (h : normalizeStaleRunning runs n = some (status, failed, reason)) :
    status.terminal = true := by
  unfold normalizeStaleRunning at h
  dsimp only at h
  repeat' split at h
  all_goals
    first
    | cases h; done
    | simp only [Option.some.injEq, Prod.mk.injEq] at h
      obtain ⟨rfl, -, -⟩ := h
      rfl

/-- A grid sweep that was not paused ends in a terminal status. -/
theorem gridOutcome_terminal {wasCancelled wasPaused : Bool}
    (h : ¬ (wasCancelled = false ∧ wasPaused = true)) (runs summaries : List Phase) (n : Nat) :
    (gridOutcome wasCancelled wasPaused runs summaries n).1.terminal = true := by
  unfold gridOutcome
  cases wasCancelled with
  | true => rfl
  | false =>
      cases wasPaused with
      | true => exact absurd ⟨rfl, rfl⟩ h
      | false => exact computeFinalStatus_terminal runs n

theorem bayesianOutcome_terminal {wasCancelled wasPaused : Bool}
    (h : ¬ (wasCancelled = false ∧ wasPaused = true)) (runs : List Phase)
    (planned attempted : Nat) :
    (bayesianOutcome wasCancelled wasPaused runs planned attempted).1.terminal = true := by
  have hcomputed := computeFinalStatus_terminal runs planned
  unfold bayesianOutcome
  cases wasCancelled with
  | true => rfl
  | false =>
      cases wasPaused with
      | true => exact absurd ⟨rfl, rfl⟩ h
      | false =>
          simp only [Bool.false_eq_true, if_false]
          split
          · split
            · split <;> rfl
            · split
              · rfl
              · exact hcomputed
          · rfl

/-- The final update stores the outcome, or FAILED in its place. -/
theorem finalUpdate_status (outcome : ExperimentStatus × Nat × String) (n : Nat)
    (infra : Option String) (now : Nat) :
    ((finalUpdate outcome n infra now).status = some outcome.1 ∨
        (finalUpdate outcome n infra now).status = some .failed ∧ outcome.1 ≠ .paused) ∧
      (finalUpdate outcome n infra now).completedAt = some now := by
  obtain ⟨status, failed, reason⟩ := outcome
  cases infra with
  | none => exact ⟨Or.inl rfl, rfl⟩
  | some message =>
      simp only [finalUpdate]
      split
      · exact ⟨Or.inl rfl, rfl⟩
      · split
        · exact ⟨Or.inl rfl, rfl⟩
        · rename_i hnot
          exact ⟨Or.inr ⟨rfl, fun hp => hnot (Or.inr hp)⟩, rfl⟩

/-- A final update with a terminal outcome stores a terminal status. -/
theorem finalUpdate_terminal {outcome : ExperimentStatus × Nat × String}
    (h : outcome.1.terminal = true) (n : Nat) (infra : Option String) (now : Nat)
    (o : OtherKeys) (p : ExperimentStatus × Option Nat) :
    ((StoreWrite.update (finalUpdate outcome n infra now) o).effect p).1.terminal = true := by
  have hstatus := (finalUpdate_status outcome n infra now).1
  rw [StoreWrite.effect_update]
  rcases hstatus with hs | ⟨hs, -⟩
  · rw [hs]
    exact h
  · rw [hs]
    rfl

/-- A final update with the outcome PAUSED stores PAUSED and a time. -/
theorem finalUpdate_paused {outcome : ExperimentStatus × Nat × String}
    (h : outcome.1 = .paused) (n : Nat) (infra : Option String) (now : Nat) (o : OtherKeys)
    (p : ExperimentStatus × Option Nat) :
    (StoreWrite.update (finalUpdate outcome n infra now) o).effect p =
      (.paused, some now) := by
  obtain ⟨hstatus, hcompleted⟩ := finalUpdate_status outcome n infra now
  rw [StoreWrite.effect_update, hcompleted]
  rcases hstatus with hs | ⟨-, hne⟩
  · rw [hs, h]
    rfl
  · exact absurd h hne

/-- A writer that does not store PAUSED leaves both fields, settles the experiment, or sets
    it RUNNING without a time. -/
theorem ExperimentWrite.effect_cases {w : ExperimentWrite} (h : ¬ w.StoresPaused)
    (p : ExperimentStatus × Option Nat) :
    w.effect p = p ∨ (w.effect p).1.terminal = true ∨ w.effect p = (.running, none) := by
  cases w with
  | sweepStarted now => exact Or.inl rfl
  | gridEnded wasCancelled wasPaused runs summaries total infra now =>
      exact Or.inr (Or.inl (finalUpdate_terminal (gridOutcome_terminal h _ _ _) _ _ _ {} _))
  | bayesianEnded wasCancelled wasPaused runs planned attempted grid summary infra now =>
      exact Or.inr (Or.inl
        (finalUpdate_terminal (bayesianOutcome_terminal h _ _ _) _ _ _
          { gridEquivalentCount := some grid, bayesianSummary := some summary } _))
  | preflightFailed runs message now => exact Or.inr (Or.inl rfl)
  | cancelled now => exact Or.inr (Or.inl rfl)
  | paused now => exact absurd trivial h
  | resumed => exact Or.inr (Or.inr rfl)
  | readReconciled runs expected now =>
      cases hn : normalizeStaleRunning runs expected with
      | none =>
          left
          rw [effect, storeWrite, hn]
          rfl
      | some outcome =>
          have hterminal := normalizeStaleRunning_terminal hn
          right
          left
          rw [effect, storeWrite, hn]
          exact hterminal
  | startupReconciled runs expected now =>
      exact Or.inr (Or.inl (deriveExperimentStatus_terminal runs expected))
  | startupPreEmbedFailed reason now => exact Or.inr (Or.inl rfl)
  | watcherFailed reason => exact Or.inr (Or.inl rfl)
  | watcherReady => exact Or.inl rfl
  | preEmbedWaiting batches => exact Or.inl rfl
  | goldenQueriesCounted summary => exact Or.inl rfl

/-- A writer that stores PAUSED stores a time with it. -/
theorem ExperimentWrite.effect_paused {w : ExperimentWrite} (h : w.StoresPaused)
    (p : ExperimentStatus × Option Nat) : ∃ t, w.effect p = (.paused, some t) := by
  cases w with
  | gridEnded wasCancelled wasPaused runs summaries total infra now =>
      obtain ⟨rfl, rfl⟩ := h
      exact ⟨now, finalUpdate_paused rfl _ _ _ {} _⟩
  | bayesianEnded wasCancelled wasPaused runs planned attempted grid summary infra now =>
      obtain ⟨rfl, rfl⟩ := h
      exact ⟨now, finalUpdate_paused rfl _ _ _
        { gridEquivalentCount := some grid, bayesianSummary := some summary } _⟩
  | paused now => exact ⟨now, rfl⟩
  | _ => exact h.elim

/-! ## The law, over every run of writes -/

theorem isStr_of_sameValue {v : Value} {s t : String} (h : SameValue v (.str s)) :
    v.isStr t = (s == t) := by
  obtain rfl := Value.dump_eq_str_iff.mp h
  rfl

theorem any_terminalStatuses {v : Value} {status : ExperimentStatus}
    (h : SameValue v (.str status.value)) :
    terminalStatuses.any v.isStr = status.terminal := by
  have hany : terminalStatuses.any v.isStr = terminalStatuses.any (status.value == ·) := by
    congr 1
    funext t
    exact isStr_of_sameValue h
  rw [hany]
  cases status <;> rfl

theorem truthy_of_sameValue {v w : Value} (h : SameValue v w) : v.truthy = w.truthy := by
  rw [← Value.truthy_dump 'T' v, ← Value.truthy_dump 'T' w]
  exact congrArg Value.truthy h

theorem truthy_time (t : Option Nat) :
    ((t.map fun t : Nat => Value.time (t : Int)).getD .null).truthy = t.isSome := by
  cases t <;> rfl

/-- `completed_at` marks finished experiments in a document that shows `p`. -/
theorem Shows.completedMarksFinished_iff {d : Doc} {p : ExperimentStatus × Option Nat}
    (h : Shows d p) : CompletedMarksFinished d ↔ (p.2.isSome = true → p.1.terminal = true) := by
  unfold CompletedMarksFinished
  rw [any_terminalStatuses h.status]
  refine imp_congr_left ?_
  have hcompleted := h.completedAt
  rw [ne_eq, ← @Value.dump_eq_null_iff 'T', hcompleted]
  cases p.2 <;> simp [Value.dump, Value.mapTimes]

/-- The dashboard agrees with the status under the same condition. -/
theorem Shows.dashboardAgrees_iff {d : Doc} {p : ExperimentStatus × Option Nat}
    (h : Shows d p) : DashboardAgrees d ↔ (p.2.isSome = true → p.1.terminal = true) := by
  obtain ⟨status, completedAt⟩ := p
  have hstamp : (d.get "completed_at").truthy = completedAt.isSome :=
    (truthy_of_sameValue h.completedAt).trans (truthy_time completedAt)
  have hstatus : (d.get "status").truthy = true :=
    (truthy_of_sameValue h.status).trans (by cases status <;> rfl)
  have hrunning := isStr_of_sameValue (t := "running") h.status
  have hpaused := isStr_of_sameValue (t := "paused") h.status
  unfold DashboardAgrees isTerminalExperimentStatus isRunningExperimentStatus
    isPausedExperimentStatus isCompletedByTimestamp
  rw [hstamp, hstatus, any_terminalStatuses h.status, hrunning, hpaused]
  cases completedAt with
  | none => cases status <;> decide
  | some t => cases status <;> simp [ExperimentStatus.terminal, ExperimentStatus.value]

/-- Both fields after the writes of a run. -/
def runEffect (ws : List ExperimentWrite) : ExperimentStatus × Option Nat :=
  ws.foldl (fun p w => w.effect p) (.running, none)

theorem shows_run (st : RunStateStore) (id name : String) (now : Int)
    (ws : List ExperimentWrite) :
    Shows (ws.foldl StoredExperimentDoc.write
      (StoredExperimentDoc.create st id name now)).read (runEffect ws) := by
  induction ws using List.reverseRecOn with
  | nil => exact shows_create st id name now
  | append_singleton ws w ih =>
      unfold runEffect
      rw [List.foldl_append, List.foldl_append]
      exact ih.write w

/-- Writers that do not store PAUSED keep the two fields in agreement. -/
theorem runEffect_agrees {ws : List ExperimentWrite} (h : ∀ w ∈ ws, ¬ w.StoresPaused) :
    (runEffect ws).2.isSome = true → (runEffect ws).1.terminal = true := by
  induction ws using List.reverseRecOn with
  | nil => simp [runEffect]
  | append_singleton ws w ih =>
      have hws := ih fun w' hw' => h w' (List.mem_append_left _ hw')
      have hw := h w (List.mem_append_right _ (List.mem_singleton_self w))
      have hlast : runEffect (ws ++ [w]) = w.effect (runEffect ws) := by
        unfold runEffect
        rw [List.foldl_append]
        rfl
      rw [hlast]
      rcases ExperimentWrite.effect_cases hw (runEffect ws) with he | ht | he
      · rw [he]
        exact hws
      · exact fun _ => ht
      · rw [he]
        simp

/-- In every state of a run, `completed_at` is set only on a finished experiment and the
    dashboard classifies it as stored, exactly when no writer of the run stores PAUSED. -/
theorem completed_at_marks_finished_iff (st : RunStateStore) (id name : String) (now : Int)
    (ws : List ExperimentWrite) :
    (∀ ws', ws' <+: ws →
        CompletedMarksFinished (ws'.foldl StoredExperimentDoc.write
          (StoredExperimentDoc.create st id name now)).read ∧
        DashboardAgrees (ws'.foldl StoredExperimentDoc.write
          (StoredExperimentDoc.create st id name now)).read) ↔
      ∀ w ∈ ws, ¬ w.StoresPaused := by
  constructor
  · intro h w hw hpaused
    obtain ⟨before, rest, rfl⟩ := List.append_of_mem hw
    have hstate := (h (before ++ [w]) ⟨rest, by simp⟩).1
    rw [(shows_run st id name now _).completedMarksFinished_iff] at hstate
    obtain ⟨t, ht⟩ := ExperimentWrite.effect_paused hpaused (runEffect before)
    have hlast : runEffect (before ++ [w]) = (.paused, some t) := by
      unfold runEffect at ht ⊢
      rw [List.foldl_append]
      exact ht
    rw [hlast] at hstate
    exact absurd (hstate rfl) Bool.false_ne_true
  · intro h ws' hahead
    have hagrees := runEffect_agrees fun w hw => h w (hahead.subset hw)
    have hshows := shows_run st id name now ws'
    exact ⟨hshows.completedMarksFinished_iff.mpr hagrees,
      hshows.dashboardAgrees_iff.mpr hagrees⟩

/-- A paused experiment in SQLite: its `completed_at` is set, and the dashboard takes it as
    finished and not as paused. -/
theorem paused_reads_as_finished :
    ¬ CompletedMarksFinished ((StoredExperimentDoc.create .sqlite "e1" "sweep" 1).write
        (.paused 2)).read ∧
      ¬ DashboardAgrees ((StoredExperimentDoc.create .sqlite "e1" "sweep" 1).write
        (.paused 2)).read := by
  have hshows :
      Shows ((StoredExperimentDoc.create .sqlite "e1" "sweep" 1).write (.paused 2)).read
        (.paused, some 2) :=
    (shows_create .sqlite "e1" "sweep" 1).write (.paused 2)
  rw [hshows.completedMarksFinished_iff, hshows.dashboardAgrees_iff]
  decide

end RagParamsFinder
