/-
  What `insert_chunks` of the vector-only stores leaves: every chunk, or none of the run.

  Proved: `insertChunks_allOrNothing_iff`: exactly when. Elasticsearch cleans up only after a
  batch that went through, so what the first request stores of its batch before it fails stays;
  Redis never cleans up, logs the commands that fail and skips the documents without an
  embedding.
-/
import RagParamsFinder.VectorStores.InsertChunks

namespace RagParamsFinder

open BatchWrites Slices Traversals

/-! ## What is claimed, and when -/

/-- Returned with every chunk stored, or raised with none of them left. -/
def AllOrNothing {σ δ : Type} (stored : σ → δ → Prop) (left : σ → Prop) (docs : List δ)
    (r : σ × Except InsertError Unit) : Prop :=
  match r.2 with
  | .ok () => ∀ doc ∈ docs, stored r.1 doc
  | .error _ => ¬left r.1

section Batches

variable {δ : Type} (passes storesNothing : Nat → List δ → Prop) (docs : List δ)

def AllPass : Prop := ∀ i batch, (batchesOf docs)[i]? = some batch → passes i batch

def FirstPasses : Prop := ∃ batch, (batchesOf docs)[0]? = some batch ∧ passes 0 batch

/-- No batch stores anything, up to the first that does not pass. -/
def NothingStored : Prop := ∀ i batch, (batchesOf docs)[i]? = some batch →
  (∀ j < i, ∀ b, (batchesOf docs)[j]? = some b → passes j b) → storesNothing i batch

end Batches

namespace Elasticsearch

variable {φ : Type}

def Index.Stores (index : Index φ) (doc : ChunkDoc φ) : Prop :=
  ∃ source, chunkSource doc = .ok source ∧ index source.chunkId = some source

def OfRun (run : String) (w : String × ChunkSource φ) : Prop := w.2.runId = run

def Index.HoldsRun (run : String) (index : Index φ) : Prop := index.Has (OfRun run)

/-- The batch is well formed, and all of its items are stored. -/
def Passes (bulk : Nat → RequestOutcome) (i : Nat) (batch : List (ChunkDoc φ)) : Prop :=
  ∃ operations failure, bulkOperations batch = .ok operations ∧ bulk i = .answered failure ∧
    ∀ j < operations.length, failure j = none

/-- The batch is not well formed, so that none is sent, or none of its items is stored. -/
def StoresNothing (bulk : Nat → RequestOutcome) (i : Nat) (batch : List (ChunkDoc φ)) : Prop :=
  ∀ operations, bulkOperations batch = .ok operations →
    ∀ j < operations.length, (bulk i).stored j = false

/-- Documents of one id are one chunk. -/
def OneSourceEach (docs : List (ChunkDoc φ)) : Prop :=
  ∀ doc ∈ docs, ∀ doc' ∈ docs, doc.chunkId = doc'.chunkId → chunkSource doc = chunkSource doc'

/-- Every item of every request is stored; or one is not, and either the first request went
    through, or nothing has been stored by then. -/
def InsertSafe (bulk : Nat → RequestOutcome) (run : String) (docs : List (ChunkDoc φ))
    (index : Index φ) : Prop :=
  AllPass (Passes bulk) docs ∧ OneSourceEach docs ∨
    ¬AllPass (Passes bulk) docs ∧
      (run ≠ "" ∧ FirstPasses (Passes bulk) docs ∨
        NothingStored (Passes bulk) (StoresNothing bulk) docs ∧ ¬index.HoldsRun run)

end Elasticsearch

namespace Redis

def OfRun (run : String) (w : (String × String) × HashValue) : Prop :=
  w.1.2 = "run_id" ∧ w.2 = .str run

def Database.HoldsRun (run : String) (db : Database) : Prop := db.Has (OfRun run)

section

variable {φ : Type} (pack : φ → Option (List UInt8))

def Database.Stores (db : Database) (doc : ChunkDoc φ) : Prop :=
  ∃ command, addToPipeline pack doc = .ok (some command) ∧
    ∀ cell ∈ command.cells, db cell.1 = some cell.2

/-- The fields that a document is to be stored in. -/
def cellsOf (doc : ChunkDoc φ) : List ((String × String) × HashValue) :=
  match addToPipeline pack doc with
  | .ok (some command) => command.cells
  | _ => []

/-- The batch is well formed, and its request is answered, if one is made. -/
def Passes (client : Nat → RequestOutcome) (i : Nat) (batch : List (ChunkDoc φ)) : Prop :=
  ∃ commands, pipelineOf pack batch = .ok commands ∧
    (commands = [] ∨ ∃ failure, client i = .answered failure)

def StoresNothing (client : Nat → RequestOutcome) (i : Nat) (batch : List (ChunkDoc φ)) : Prop :=
  ∀ commands, pipelineOf pack batch = .ok commands →
    ∀ j < commands.length, (client i).stored j = false

/-- A command that was carried out sets the field. -/
def Wrote (client : Nat → RequestOutcome) (docs : List (ChunkDoc φ))
    (cell : (String × String) × HashValue) : Prop :=
  ∃ i batch commands j command, (batchesOf docs)[i]? = some batch ∧
    pipelineOf pack batch = .ok commands ∧ commands[j]? = some command ∧
      (client i).stored j = true ∧ cell ∈ command.cells

/-- Every request is answered, no document is skipped, and every field is set and stays; or one
    raises, and nothing has been stored by then. -/
def InsertSafe (client : Nat → RequestOutcome) (run : String) (docs : List (ChunkDoc φ))
    (db : Database) : Prop :=
  AllPass (Passes pack client) docs ∧ (∀ doc ∈ docs, doc.embedding.getD [] ≠ []) ∧
      Agree (docs.flatMap (cellsOf pack)) ∧
      (∀ cell ∈ docs.flatMap (cellsOf pack), Wrote pack client docs cell ∨
        db cell.1 = some cell.2) ∨
    ¬AllPass (Passes pack client) docs ∧
      NothingStored (Passes pack client) (StoresNothing pack client) docs ∧ ¬db.HoldsRun run

end

end Redis

/-! ## Batches as turns -/

section Turns

variable {δ γ ν ε : Type} {turnOf : Nat → List δ → Turn γ ν ε}
  {passes storesNothing : Nat → List δ → Prop} (docs : List δ)

theorem mem_iff_mem_batch {δ : Type} {docs : List δ} {doc : δ} :
    doc ∈ docs ↔
      ∃ (i : Nat) (batch : List δ), (batchesOf docs)[i]? = some batch ∧ doc ∈ batch := by
  have hflat : (batchesOf docs).flatten = docs := flatten_windows docs (by decide)
  constructor
  · intro h
    have hmem : doc ∈ (batchesOf docs).flatten := by rw [hflat]; exact h
    obtain ⟨batch, hbatch, hdoc⟩ := List.mem_flatten.mp hmem
    obtain ⟨i, hi⟩ := List.mem_iff_getElem?.mp hbatch
    exact ⟨i, batch, hi, hdoc⟩
  · rintro ⟨i, batch, hi, hdoc⟩
    rw [← hflat]
    exact List.mem_flatten.mpr ⟨batch, List.mem_of_getElem? hi, hdoc⟩

theorem getElem?_turns {i : Nat} {t : Turn γ ν ε} :
    ((batchesOf docs).mapIdx turnOf)[i]? = some t ↔
      ∃ batch, (batchesOf docs)[i]? = some batch ∧ turnOf i batch = t := by
  rw [List.getElem?_mapIdx, Option.map_eq_some_iff]

theorem completes_turns_iff (hpass : ∀ i batch, (turnOf i batch).stop = none ↔ passes i batch) :
    Completes ((batchesOf docs).mapIdx turnOf) ↔ AllPass passes docs := by
  constructor
  · intro h i batch hi
    exact (hpass i batch).mp (h _ (List.mem_of_getElem? ((getElem?_turns docs).mpr ⟨_, hi, rfl⟩)))
  · intro h t ht
    obtain ⟨i, hi⟩ := List.mem_iff_getElem?.mp ht
    obtain ⟨batch, hbatch, rfl⟩ := (getElem?_turns docs).mp hi
    exact (hpass i batch).mpr (h i batch hbatch)

theorem allPass_of_ok [DecidableEq γ]
    (hpass : ∀ i batch, (turnOf i batch).stop = none ↔ passes i batch)
    {s : Cells γ ν} {u : Unit} (h : (run s ((batchesOf docs).mapIdx turnOf)).2.2 = .ok u) :
    AllPass passes docs :=
  (completes_turns_iff docs hpass).mp ((run_ok_iff s _).mp h)

theorem not_allPass_of_error [DecidableEq γ]
    (hpass : ∀ i batch, (turnOf i batch).stop = none ↔ passes i batch)
    {s : Cells γ ν} {e : ε} (h : (run s ((batchesOf docs).mapIdx turnOf)).2.2 = .error e) :
    ¬AllPass passes docs := by
  intro hall
  rw [(run_ok_iff s _).mpr ((completes_turns_iff docs hpass).mpr hall)] at h
  cases h

theorem first_turn_iff (hpass : ∀ i batch, (turnOf i batch).stop = none ↔ passes i batch) :
    (∃ t, ((batchesOf docs).mapIdx turnOf)[0]? = some t ∧ t.stop = none) ↔
      FirstPasses passes docs := by
  constructor
  · rintro ⟨t, ht, hstop⟩
    obtain ⟨batch, hbatch, rfl⟩ := (getElem?_turns docs).mp ht
    exact ⟨batch, hbatch, (hpass 0 batch).mp hstop⟩
  · rintro ⟨batch, hbatch, hfirst⟩
    exact ⟨_, (getElem?_turns docs).mpr ⟨batch, hbatch, rfl⟩, (hpass 0 batch).mpr hfirst⟩

theorem writesMade_turns_iff (hpass : ∀ i batch, (turnOf i batch).stop = none ↔ passes i batch)
    (hnothing : ∀ i batch, (turnOf i batch).writes = [] ↔ storesNothing i batch) :
    writesMade ((batchesOf docs).mapIdx turnOf) = [] ↔
      NothingStored passes storesNothing docs := by
  rw [writesMade_eq_nil_iff]
  constructor
  · intro h i batch hi hreach
    refine (hnothing i batch).mp (h i _ ((getElem?_turns docs).mpr ⟨batch, hi, rfl⟩) ?_)
    intro j hj u hu
    obtain ⟨b, hb, rfl⟩ := (getElem?_turns docs).mp hu
    exact (hpass j b).mpr (hreach j hj b hb)
  · intro h i t ht hreach
    obtain ⟨batch, hbatch, rfl⟩ := (getElem?_turns docs).mp ht
    refine (hnothing i batch).mpr (h i batch hbatch fun j hj b hb => ?_)
    exact (hpass j b).mp (hreach j hj _ ((getElem?_turns docs).mpr ⟨b, hb, rfl⟩))

end Turns

/-! ## Elasticsearch -/

theorem getItem_eq_ok_iff {α : Type} {key : String} {x : Option α} {a : α} :
    getItem key x = .ok a ↔ x = some a := by
  cases x with
  | none => simp [getItem]
  | some b => simp [getItem]

namespace Elasticsearch

variable {φ : Type} {bulk : Nat → RequestOutcome} {i : Nat} {batch : List (ChunkDoc φ)}

theorem ids_of_chunkSource {doc : ChunkDoc φ} {source : ChunkSource φ}
    (h : chunkSource doc = .ok source) :
    doc.chunkId = some source.chunkId ∧ doc.runId = some source.runId := by
  obtain ⟨field, -, h⟩ := bind_eq_ok.mp h
  obtain ⟨chunkId, hchunk, h⟩ := bind_eq_ok.mp h
  obtain ⟨experimentId, -, h⟩ := bind_eq_ok.mp h
  obtain ⟨runId, hrun, h⟩ := bind_eq_ok.mp h
  obtain rfl := Except.ok.inj h
  exact ⟨getItem_eq_ok_iff.mp hchunk, getItem_eq_ok_iff.mp hrun⟩

theorem indexAction_eq_ok_iff {doc : ChunkDoc φ} {w : String × ChunkSource φ} :
    indexAction doc = .ok w ↔ chunkSource doc = .ok w.2 ∧ w.1 = w.2.chunkId := by
  rw [indexAction, bind_eq_ok]
  constructor
  · rintro ⟨source, hsource, h⟩
    obtain rfl := Except.ok.inj h
    exact ⟨hsource, rfl⟩
  · rintro ⟨hsource, hid⟩
    exact ⟨w.2, hsource, congrArg Except.ok (Prod.ext hid.symm rfl)⟩

theorem mem_bulkOperations {operations : List (String × ChunkSource φ)}
    (h : bulkOperations batch = .ok operations) {w : String × ChunkSource φ} :
    w ∈ operations ↔ ∃ doc ∈ batch, indexAction doc = .ok w := by
  have hall := forall₂_of_mapM h
  constructor
  · exact exists_of_mem_forall₂ hall
  · rintro ⟨doc, hdoc, hw⟩
    obtain ⟨w', hmem, hw'⟩ := exists_of_mem_forall₂ hall.flip hdoc
    obtain rfl := Except.ok.inj (hw.symm.trans hw')
    exact hmem

/-- A request raises no error exactly when it is answered and no item is rejected. -/
theorem answer_ok_iff {outcome : RequestOutcome} {operations : List (String × ChunkSource φ)}
    {expected : Nat} :
    (∃ u, (bulkAnswer outcome operations).bind (raiseOnBulkErrors · expected) = .ok u) ↔
      ∃ failure, outcome = .answered failure ∧ ∀ j < operations.length, failure j = none := by
  cases outcome with
  | raised stored error => simp [bulkAnswer, Except.bind]
  | answered failure =>
      have herrors : ((operations.mapIdx fun j operation =>
          (⟨operation.1, failure j⟩ : BulkItem)).any fun item => item.error.isSome) = false ↔
          ∀ j < operations.length, failure j = none := by
        simp only [List.any_eq_false, List.mem_mapIdx]
        constructor
        · intro h j hj
          simpa using h _ ⟨j, hj, rfl⟩
        · rintro h item ⟨j, hj, rfl⟩
          simp [h j hj]
      rw [show (∃ f, RequestOutcome.answered failure = .answered f ∧
          ∀ j < operations.length, f j = none) ↔ ∀ j < operations.length, failure j = none by simp,
        ← herrors]
      simp only [bulkAnswer, Except.bind, raiseOnBulkErrors]
      split
      · rename_i h
        rw [h]
        simp
      · rename_i h
        rw [Bool.not_eq_true] at h
        rw [h]
        simp

theorem turn_stop_iff : (turn bulk i batch).stop = none ↔ Passes bulk i batch := by
  unfold turn Passes
  cases hops : bulkOperations batch with
  | error e => simp
  | ok operations =>
      simp only [errorOf_eq_none_iff, answer_ok_iff, Except.ok.injEq]
      constructor
      · rintro ⟨failure, houtcome, hall⟩
        exact ⟨operations, failure, rfl, houtcome, hall⟩
      · rintro ⟨_, failure, rfl, houtcome, hall⟩
        exact ⟨failure, houtcome, hall⟩

theorem turn_writes_nil_iff : (turn bulk i batch).writes = [] ↔ StoresNothing bulk i batch := by
  unfold turn StoresNothing
  cases hops : bulkOperations batch with
  | error e => simp
  | ok operations => simp [kept_eq_nil_iff]

theorem mem_turn_writes {w : String × ChunkSource φ} (h : w ∈ (turn bulk i batch).writes) :
    ∃ doc ∈ batch, indexAction doc = .ok w := by
  unfold turn at h
  cases hops : bulkOperations batch with
  | error e => simp [hops] at h
  | ok operations =>
      simp only [hops] at h
      obtain ⟨j, hj, -⟩ := mem_kept.mp h
      exact (mem_bulkOperations hops).mp (List.mem_of_getElem? hj)

/-- A batch that passes is written whole. -/
theorem mem_turn_writes_of_passes (h : Passes bulk i batch) {doc : ChunkDoc φ}
    (hdoc : doc ∈ batch) : ∃ w, indexAction doc = .ok w ∧ w ∈ (turn bulk i batch).writes := by
  obtain ⟨operations, failure, hops, houtcome, hall⟩ := h
  obtain ⟨w, hmem, hw⟩ := exists_of_mem_forall₂ (forall₂_of_mapM hops).flip hdoc
  refine ⟨w, hw, ?_⟩
  simp only [turn, hops]
  obtain ⟨j, hj⟩ := List.mem_iff_getElem?.mp hmem
  obtain ⟨hlt, -⟩ := List.getElem?_eq_some_iff.mp hj
  refine mem_kept.mpr ⟨j, hj, ?_⟩
  simp [houtcome, RequestOutcome.stored, hall j hlt]

variable {docs : List (ChunkDoc φ)} {runId : String}

/-- The writes that the documents ask for. -/
def wantedOf (docs : List (ChunkDoc φ)) : List (String × ChunkSource φ) :=
  docs.flatMap fun doc => match indexAction doc with
    | .ok w => [w]
    | .error _ => []

theorem mem_wantedOf {w : String × ChunkSource φ} :
    w ∈ wantedOf docs ↔ ∃ doc ∈ docs, indexAction doc = .ok w := by
  rw [wantedOf, List.mem_flatMap]
  refine exists_congr fun doc => and_congr_right fun _ => ?_
  cases indexAction doc with
  | error e => simp
  | ok w' => simp [eq_comm]

theorem mem_wantedOf_of_mem_writesMade {w : String × ChunkSource φ}
    (h : w ∈ writesMade ((batchesOf docs).mapIdx (turn bulk))) : w ∈ wantedOf docs := by
  obtain ⟨t, ht, hw, -⟩ := mem_writesMade h
  obtain ⟨i, hi⟩ := List.mem_iff_getElem?.mp ht
  obtain ⟨batch, hbatch, rfl⟩ := (getElem?_turns docs).mp hi
  obtain ⟨doc, hdoc, hact⟩ := mem_turn_writes hw
  exact mem_wantedOf.mpr ⟨doc, mem_iff_mem_batch.mpr ⟨i, batch, hbatch, hdoc⟩, hact⟩

/-- Every batch is written whole. -/
theorem exists_action_of_allPass (h : AllPass (Passes bulk) docs) {doc : ChunkDoc φ}
    (hdoc : doc ∈ docs) :
    ∃ w, indexAction doc = .ok w ∧ w ∈ writesMade ((batchesOf docs).mapIdx (turn bulk)) := by
  obtain ⟨i, batch, hbatch, hmem⟩ := mem_iff_mem_batch.mp hdoc
  obtain ⟨w, hact, hw⟩ := mem_turn_writes_of_passes (h i batch hbatch) hmem
  refine ⟨w, hact, ?_⟩
  rw [writesMade_of_completes ((completes_turns_iff docs fun _ _ => turn_stop_iff).mpr h)]
  have ht : turn bulk i batch ∈ (batchesOf docs).mapIdx (turn bulk) :=
    List.mem_of_getElem? ((getElem?_turns docs).mpr ⟨batch, hbatch, rfl⟩)
  exact List.mem_flatMap.mpr ⟨_, ht, hw⟩

theorem agree_wantedOf_iff (h : AllPass (Passes bulk) docs) :
    Agree (wantedOf docs) ↔ OneSourceEach docs := by
  constructor
  · intro hagree doc hdoc doc' hdoc' hid
    obtain ⟨w, hw, -⟩ := exists_action_of_allPass h hdoc
    obtain ⟨w', hw', -⟩ := exists_action_of_allPass h hdoc'
    obtain ⟨hsource, hkey⟩ := indexAction_eq_ok_iff.mp hw
    obtain ⟨hsource', hkey'⟩ := indexAction_eq_ok_iff.mp hw'
    have hcell : w.1 = w'.1 := by
      rw [(ids_of_chunkSource hsource).1, (ids_of_chunkSource hsource').1] at hid
      rw [hkey, hkey', Option.some.inj hid]
    rw [hsource, hsource', hagree w (mem_wantedOf.mpr ⟨doc, hdoc, hw⟩) w'
      (mem_wantedOf.mpr ⟨doc', hdoc', hw'⟩) hcell]
  · intro hone w hw w' hw' hcell
    obtain ⟨doc, hdoc, hact⟩ := mem_wantedOf.mp hw
    obtain ⟨doc', hdoc', hact'⟩ := mem_wantedOf.mp hw'
    obtain ⟨hsource, hkey⟩ := indexAction_eq_ok_iff.mp hact
    obtain ⟨hsource', hkey'⟩ := indexAction_eq_ok_iff.mp hact'
    have hid : doc.chunkId = doc'.chunkId := by
      rw [(ids_of_chunkSource hsource).1, (ids_of_chunkSource hsource').1, ← hkey, ← hkey', hcell]
    exact Except.ok.inj (hsource.symm.trans ((hone doc hdoc doc' hdoc' hid).trans hsource'))

/-- When every batch passes, every chunk is in the index, unless two of one id differ. -/
theorem stores_iff (h : AllPass (Passes bulk) docs) (index : Index φ) :
    (∀ doc ∈ docs, Index.Stores
      (writeAll index (writesMade ((batchesOf docs).mapIdx (turn bulk)))) doc) ↔
        OneSourceEach docs := by
  have hsub : ∀ w ∈ writesMade ((batchesOf docs).mapIdx (turn bulk)), w ∈ wantedOf docs :=
    fun w hw => mem_wantedOf_of_mem_writesMade hw
  have hwanted := forall_writeAll_iff hsub index
  have hmade : ∀ w ∈ wantedOf docs, w ∈ writesMade ((batchesOf docs).mapIdx (turn bulk)) := by
    intro w hw
    obtain ⟨doc, hdoc, hact⟩ := mem_wantedOf.mp hw
    obtain ⟨w', hact', hmem⟩ := exists_action_of_allPass h hdoc
    obtain rfl := Except.ok.inj (hact.symm.trans hact')
    exact hmem
  rw [← agree_wantedOf_iff h]
  constructor
  · intro hstores
    refine (hwanted.mp fun w hw => ?_).1
    obtain ⟨doc, hdoc, hact⟩ := mem_wantedOf.mp hw
    obtain ⟨source, hsource, hat⟩ := hstores doc hdoc
    obtain ⟨hsource', hkey⟩ := indexAction_eq_ok_iff.mp hact
    obtain rfl := Except.ok.inj (hsource.symm.trans hsource')
    rw [hkey]
    exact hat
  · intro hagree doc hdoc
    obtain ⟨w, hact, hmem⟩ := exists_action_of_allPass h hdoc
    obtain ⟨hsource, hkey⟩ := indexAction_eq_ok_iff.mp hact
    have hat := hwanted.mpr ⟨hagree, fun w hw => Or.inl (hmade w hw)⟩ w
      (hsub w hmem)
    exact ⟨w.2, hsource, hkey ▸ hat⟩

/-- What is written is of the run. -/
theorem holdsRun_writeAll_iff (hrun : ∀ doc ∈ docs, doc.runId = some runId) (index : Index φ) :
    Index.HoldsRun runId (writeAll index (writesMade ((batchesOf docs).mapIdx (turn bulk)))) ↔
      writesMade ((batchesOf docs).mapIdx (turn bulk)) ≠ [] ∨ index.HoldsRun runId := by
  have hof : ∀ w ∈ writesMade ((batchesOf docs).mapIdx (turn bulk)), OfRun runId w := by
    intro w hw
    obtain ⟨doc, hdoc, hact⟩ := mem_wantedOf.mp (mem_wantedOf_of_mem_writesMade hw)
    have hid := (ids_of_chunkSource (indexAction_eq_ok_iff.mp hact).1).2
    exact (Option.some.inj ((hrun doc hdoc).symm.trans hid)).symm
  refine exists_writeAll_iff index (fun hne => ?_) fun w _ w' hw' _ _ => hof w' hw'
  obtain ⟨w, hw⟩ := List.exists_mem_of_ne_nil _ hne
  exact ⟨w, hw, hof w hw⟩

theorem not_holdsRun_deleteRun (index : Index φ) :
    ¬(deleteRun .deleted runId index).HoldsRun runId := by
  rintro ⟨id, source, hat, hrun⟩
  obtain ⟨-, hkeep⟩ := Option.filter_eq_some_iff.mp hat
  simp [DeleteOutcome.reaches] at hkeep
  exact hkeep hrun

theorem insertChunks_eq (hrun : ∀ doc ∈ docs, doc.runId = some runId) (cluster : Cluster)
    (index : Index φ) :
    insertChunks cluster docs index = cleanUpAfter cluster.deleteByQuery runId
      (run index ((batchesOf docs).mapIdx (turn cluster.bulk))) := by
  cases docs with
  | nil =>
      have hnone : batchesOf ([] : List (ChunkDoc φ)) = [] := by
        simp [batchesOf, windows, bulkBatchSize]
      rw [hnone, List.mapIdx_nil]
      rfl
  | cons doc docs =>
      have hid : doc.runId.getD "" = runId := by
        rw [hrun doc (List.mem_cons_self ..), Option.getD_some]
      simp only [insertChunks, hid, indexBatches_eq, Nat.zero_add]

theorem allOrNothing_insert_iff (hrun : ∀ doc ∈ docs, doc.runId = some runId) {cluster : Cluster}
    (hclean : cluster.deleteByQuery = .deleted) (index : Index φ) :
    AllOrNothing Index.Stores (Index.HoldsRun runId) docs (insertChunks cluster docs index) ↔
      InsertSafe cluster.bulk runId docs index := by
  have hcount := run_count_pos_iff index ((batchesOf docs).mapIdx (turn cluster.bulk))
  rw [first_turn_iff docs fun _ _ => turn_stop_iff] at hcount
  rw [insertChunks_eq hrun, hclean, InsertSafe, cleanUpAfter]
  cases hres : (run index ((batchesOf docs).mapIdx (turn cluster.bulk))).2.2 with
  | ok u =>
      have hall := allPass_of_ok docs (fun _ _ => turn_stop_iff) hres
      rw [AllOrNothing, run_fst, and_iff_right hall, or_iff_left fun h => h.1 hall]
      exact stores_iff hall index
  | error e =>
      have hnot := not_allPass_of_error docs (fun _ _ => turn_stop_iff) hres
      rw [or_iff_right fun h => hnot h.1, and_iff_right hnot, ← hcount]
      dsimp only
      by_cases hclears : runId ≠ "" ∧
          0 < (run index ((batchesOf docs).mapIdx (turn cluster.bulk))).2.1
      · rw [if_pos hclears]
        exact iff_of_true (not_holdsRun_deleteRun _) (Or.inl hclears)
      · rw [if_neg hclears, or_iff_right hclears, ← writesMade_turns_iff docs
          (fun _ _ => turn_stop_iff) fun _ _ => turn_writes_nil_iff, AllOrNothing, run_fst,
          holdsRun_writeAll_iff hrun, not_or, ne_eq, not_not]

end Elasticsearch

/-! ## Redis -/

theorem fieldForDims_ne {dimensions : Nat} {field : String}
    (h : fieldForDims dimensions = .ok field) : field ≠ "run_id" := by
  rw [fieldForDims] at h
  cases hfield : vectorFields.lookup dimensions with
  | none => simp [hfield] at h
  | some field' =>
      simp only [hfield, Except.ok.injEq] at h
      subst h
      obtain ⟨before, after, hsplit, -⟩ := List.lookup_eq_some_iff.mp hfield
      have hmem : (dimensions, field') ∈ vectorFields := by simp [hsplit]
      simp only [vectorFields, List.mem_cons, Prod.mk.injEq, List.not_mem_nil, or_false] at hmem
      rcases hmem with ⟨-, rfl⟩ | ⟨-, rfl⟩
      · decide
      · decide

namespace Redis

variable {φ : Type} {pack : φ → Option (List UInt8)} {client : Nat → RequestOutcome} {i : Nat}
  {batch : List (ChunkDoc φ)}

/-- A document without an embedding is skipped; the others become commands. -/
theorem addToPipeline_cases {doc : ChunkDoc φ} {command : Option Hset}
    (h : addToPipeline pack doc = .ok command) :
    doc.embedding.getD [] = [] ∧ command = none ∨
      doc.embedding.getD [] ≠ [] ∧ ∃ field bytes, field ≠ "run_id" ∧
        command = some (hsetOf doc field bytes) := by
  rw [addToPipeline] at h
  by_cases hnil : doc.embedding.getD [] = []
  · simp only [hnil, List.isEmpty_nil, if_true] at h
    exact Or.inl ⟨hnil, (Except.ok.inj h).symm⟩
  · have hne : (doc.embedding.getD []).isEmpty = false := by simpa using hnil
    simp only [hne, Bool.false_eq_true, if_false] at h
    obtain ⟨field, hfield, h⟩ := bind_eq_ok.mp h
    obtain ⟨bytes, -, h⟩ := bind_eq_ok.mp h
    exact Or.inr ⟨hnil, field, bytes, fieldForDims_ne hfield, (Except.ok.inj h).symm⟩

theorem mem_pipelineOf {commands : List Hset} (h : pipelineOf pack batch = .ok commands)
    {command : Hset} :
    command ∈ commands ↔ ∃ doc ∈ batch, addToPipeline pack doc = .ok (some command) := by
  obtain ⟨all, hall, h⟩ := bind_eq_ok.mp h
  obtain rfl := Except.ok.inj h
  have hrel := forall₂_of_mapM hall
  rw [List.mem_filterMap]
  constructor
  · rintro ⟨c, hc, rfl⟩
    exact exists_of_mem_forall₂ hrel hc
  · rintro ⟨doc, hdoc, hadd⟩
    obtain ⟨c, hc, hadd'⟩ := exists_of_mem_forall₂ hrel.flip hdoc
    obtain rfl := Except.ok.inj (hadd.symm.trans hadd')
    exact ⟨_, hc, rfl⟩

theorem cells_hsetOf_ne_nil (doc : ChunkDoc φ) (field : String) (bytes : List UInt8) :
    (hsetOf doc field bytes).cells ≠ [] := by
  simp [hsetOf, Hset.cells]

/-- The `run_id` of a hash is that of the document. -/
theorem ofRun_of_mem_cells {doc : ChunkDoc φ} {field : String} {bytes : List UInt8}
    {runId : String} (hrun : doc.runId = some runId) (hfield : field ≠ "run_id") :
    (∃ cell ∈ (hsetOf doc field bytes).cells, OfRun runId cell) ∧
      ∀ cell ∈ (hsetOf doc field bytes).cells, cell.1.2 = "run_id" → OfRun runId cell := by
  constructor
  · refine ⟨(((hsetOf doc field bytes).key, "run_id"), .str runId), ?_, rfl, rfl⟩
    simp [hsetOf, Hset.cells, hrun]
  · intro cell hcell hname
    simp only [hsetOf, Hset.cells, hrun, Option.getD_some, List.map_cons, List.map_nil,
      List.mem_cons, List.not_mem_nil, or_false] at hcell
    rcases hcell with rfl | rfl | rfl | rfl | rfl | rfl | rfl | rfl | rfl
    case inr.inr.inl => exact ⟨rfl, rfl⟩
    case inr.inr.inr.inr.inr.inr.inr.inr => exact absurd hname hfield
    all_goals simp at hname

theorem execute_ok_iff {outcome : RequestOutcome} {commands : List Hset} :
    (∃ results, execute outcome commands = .ok results) ↔
      commands = [] ∨ ∃ failure, outcome = .answered failure := by
  cases commands with
  | nil => simp [execute]
  | cons command commands =>
      cases outcome with
      | answered failure => simp [execute]
      | raised stored error => simp [execute]

theorem turn_stop_iff : (turn pack client i batch).stop = none ↔ Passes pack client i batch := by
  unfold turn Passes
  cases hpipe : pipelineOf pack batch with
  | error e => simp
  | ok commands => simp [errorOf_eq_none_iff, execute_ok_iff]

theorem mem_turn_writes {cell : (String × String) × HashValue} :
    cell ∈ (turn pack client i batch).writes ↔ ∃ commands j command,
      pipelineOf pack batch = .ok commands ∧ commands[j]? = some command ∧
        (client i).stored j = true ∧ cell ∈ command.cells := by
  unfold turn
  cases hpipe : pipelineOf pack batch with
  | error e => simp
  | ok commands =>
      simp only [List.mem_flatMap, mem_kept, Except.ok.injEq]
      constructor
      · rintro ⟨command, ⟨j, hj, hstored⟩, hcell⟩
        exact ⟨commands, j, command, rfl, hj, hstored, hcell⟩
      · rintro ⟨_, j, command, rfl, hj, hstored, hcell⟩
        exact ⟨command, ⟨j, hj, hstored⟩, hcell⟩

theorem turn_writes_nil_iff :
    (turn pack client i batch).writes = [] ↔ StoresNothing pack client i batch := by
  rw [List.eq_nil_iff_forall_not_mem]
  constructor
  · intro h commands hpipe j hj
    by_contra hstored
    obtain ⟨doc, -, hadd⟩ := (mem_pipelineOf hpipe).mp (List.getElem_mem hj)
    rcases addToPipeline_cases hadd with ⟨-, hnone⟩ | ⟨-, field, bytes, -, hcommand⟩
    · cases hnone
    · obtain ⟨cell, hcell⟩ := List.exists_mem_of_ne_nil _ (cells_hsetOf_ne_nil doc field bytes)
      have hj' := List.getElem?_eq_getElem hj
      refine h cell (mem_turn_writes.mpr ⟨commands, j, _, hpipe, hj', ?_, ?_⟩)
      · simpa using hstored
      · rw [Option.some.inj hcommand]
        exact hcell
  · intro h cell hcell
    obtain ⟨commands, j, command, hpipe, hj, hstored, -⟩ := mem_turn_writes.mp hcell
    obtain ⟨hlt, -⟩ := List.getElem?_eq_some_iff.mp hj
    exact Bool.false_ne_true ((h commands hpipe j hlt).symm.trans hstored)

variable {docs : List (ChunkDoc φ)} {runId : String}

theorem mem_cellsOf {doc : ChunkDoc φ} {cell : (String × String) × HashValue} :
    cell ∈ cellsOf pack doc ↔
      ∃ command, addToPipeline pack doc = .ok (some command) ∧ cell ∈ command.cells := by
  unfold cellsOf
  split
  · rename_i command hadd
    simp [hadd]
  · rename_i hnone
    refine iff_of_false List.not_mem_nil ?_
    rintro ⟨command, hadd, -⟩
    exact hnone command hadd

/-- What is written comes from a command of a document, with the other fields of the command. -/
theorem exists_command_of_mem_writesMade {cell : (String × String) × HashValue}
    (h : cell ∈ writesMade ((batchesOf docs).mapIdx (turn pack client))) :
    ∃ doc ∈ docs, ∃ command, addToPipeline pack doc = .ok (some command) ∧
      cell ∈ command.cells ∧
        ∀ c ∈ command.cells, c ∈ writesMade ((batchesOf docs).mapIdx (turn pack client)) := by
  obtain ⟨t, ht, hw, hturn⟩ := mem_writesMade h
  obtain ⟨i, hi⟩ := List.mem_iff_getElem?.mp ht
  obtain ⟨batch, hbatch, rfl⟩ := (getElem?_turns docs).mp hi
  obtain ⟨commands, j, command, hpipe, hj, hstored, hcell⟩ := mem_turn_writes.mp hw
  obtain ⟨doc, hdoc, hadd⟩ := (mem_pipelineOf hpipe).mp (List.mem_of_getElem? hj)
  refine ⟨doc, mem_iff_mem_batch.mpr ⟨i, batch, hbatch, hdoc⟩, command, hadd, hcell, ?_⟩
  exact fun c hc => hturn c (mem_turn_writes.mpr ⟨commands, j, command, hpipe, hj, hstored, hc⟩)

theorem mem_writesMade_iff_wrote (h : AllPass (Passes pack client) docs)
    {cell : (String × String) × HashValue} :
    cell ∈ writesMade ((batchesOf docs).mapIdx (turn pack client)) ↔
      Wrote pack client docs cell := by
  rw [writesMade_of_completes ((completes_turns_iff docs fun _ _ => turn_stop_iff).mpr h),
    List.mem_flatMap]
  constructor
  · rintro ⟨t, ht, hcell⟩
    obtain ⟨i, hi⟩ := List.mem_iff_getElem?.mp ht
    obtain ⟨batch, hbatch, rfl⟩ := (getElem?_turns docs).mp hi
    obtain ⟨commands, j, command, hrest⟩ := mem_turn_writes.mp hcell
    exact ⟨i, batch, commands, j, command, hbatch, hrest⟩
  · rintro ⟨i, batch, commands, j, command, hbatch, hrest⟩
    exact ⟨_, List.mem_of_getElem? ((getElem?_turns docs).mpr ⟨batch, hbatch, rfl⟩),
      mem_turn_writes.mpr ⟨commands, j, command, hrest⟩⟩

/-- When every request is answered, every chunk is in the store exactly when none is skipped and
    every field is set and stays. -/
theorem stores_iff (h : AllPass (Passes pack client) docs) (db : Database) :
    (∀ doc ∈ docs, Database.Stores pack
      (writeAll db (writesMade ((batchesOf docs).mapIdx (turn pack client)))) doc) ↔
        (∀ doc ∈ docs, doc.embedding.getD [] ≠ []) ∧ Agree (docs.flatMap (cellsOf pack)) ∧
          ∀ cell ∈ docs.flatMap (cellsOf pack), Wrote pack client docs cell ∨
            db cell.1 = some cell.2 := by
  have hsub : ∀ cell ∈ writesMade ((batchesOf docs).mapIdx (turn pack client)),
      cell ∈ docs.flatMap (cellsOf pack) := by
    intro cell hcell
    obtain ⟨doc, hdoc, command, hadd, hmem, -⟩ := exists_command_of_mem_writesMade hcell
    exact List.mem_flatMap.mpr ⟨doc, hdoc, mem_cellsOf.mpr ⟨command, hadd, hmem⟩⟩
  have hwanted := forall_writeAll_iff hsub db
  simp only [mem_writesMade_iff_wrote h] at hwanted
  rw [← hwanted]
  constructor
  · intro hstores
    refine ⟨fun doc hdoc => ?_, fun cell hcell => ?_⟩
    · obtain ⟨command, hadd, -⟩ := hstores doc hdoc
      rcases addToPipeline_cases hadd with ⟨-, hnone⟩ | ⟨hne, -⟩
      · cases hnone
      · exact hne
    · obtain ⟨doc, hdoc, hmem⟩ := List.mem_flatMap.mp hcell
      obtain ⟨command, hadd, hmem⟩ := mem_cellsOf.mp hmem
      obtain ⟨command', hadd', hat⟩ := hstores doc hdoc
      obtain rfl := Option.some.inj (Except.ok.inj (hadd.symm.trans hadd'))
      exact hat cell hmem
  · rintro ⟨hembedded, hat⟩ doc hdoc
    obtain ⟨i, batch, hbatch, hmem⟩ := mem_iff_mem_batch.mp hdoc
    obtain ⟨commands, hpipe, -⟩ := h i batch hbatch
    obtain ⟨all, hall, -⟩ := bind_eq_ok.mp hpipe
    obtain ⟨c, -, hadd⟩ := exists_of_mem_forall₂ (forall₂_of_mapM hall).flip hmem
    rcases addToPipeline_cases hadd with ⟨hnil, -⟩ | ⟨-, field, bytes, -, rfl⟩
    · exact absurd hnil (hembedded doc hdoc)
    · exact ⟨_, hadd, fun cell hcell =>
        hat cell (List.mem_flatMap.mpr ⟨doc, hdoc, mem_cellsOf.mpr ⟨_, hadd, hcell⟩⟩)⟩

/-- Where every command is carried out, every field is set. -/
theorem wrote_of_stored (h : AllPass (Passes pack client) docs)
    (hstored : ∀ i j, (client i).stored j = true) {cell : (String × String) × HashValue}
    (hcell : cell ∈ docs.flatMap (cellsOf pack)) : Wrote pack client docs cell := by
  obtain ⟨doc, hdoc, hmem⟩ := List.mem_flatMap.mp hcell
  obtain ⟨command, hadd, hmem⟩ := mem_cellsOf.mp hmem
  obtain ⟨i, batch, hbatch, hdoc⟩ := mem_iff_mem_batch.mp hdoc
  obtain ⟨commands, hpipe, -⟩ := h i batch hbatch
  obtain ⟨j, hj⟩ := List.mem_iff_getElem?.mp ((mem_pipelineOf hpipe).mpr ⟨doc, hdoc, hadd⟩)
  exact ⟨i, batch, commands, j, command, hbatch, hpipe, hj, hstored i j, hmem⟩

/-- What is written is of the run. -/
theorem holdsRun_writeAll_iff (hrun : ∀ doc ∈ docs, doc.runId = some runId) (db : Database) :
    Database.HoldsRun runId
        (writeAll db (writesMade ((batchesOf docs).mapIdx (turn pack client)))) ↔
      writesMade ((batchesOf docs).mapIdx (turn pack client)) ≠ [] ∨ db.HoldsRun runId := by
  refine exists_writeAll_iff db (fun hne => ?_) fun w hw w' hw' hcell hof => ?_
  · obtain ⟨w, hw⟩ := List.exists_mem_of_ne_nil _ hne
    obtain ⟨doc, hdoc, command, hadd, -, hall⟩ := exists_command_of_mem_writesMade hw
    rcases addToPipeline_cases hadd with ⟨-, hnone⟩ | ⟨-, field, bytes, hfield, hcommand⟩
    · cases hnone
    · obtain rfl := Option.some.inj hcommand
      obtain ⟨cell, hcell, hof⟩ := (ofRun_of_mem_cells (hrun doc hdoc) hfield).1
      exact ⟨cell, hall cell hcell, hof⟩
  · obtain ⟨doc, hdoc, command, hadd, hmem, -⟩ := exists_command_of_mem_writesMade hw'
    rcases addToPipeline_cases hadd with ⟨-, hnone⟩ | ⟨-, field, bytes, hfield, hcommand⟩
    · cases hnone
    · obtain rfl := Option.some.inj hcommand
      exact (ofRun_of_mem_cells (hrun doc hdoc) hfield).2 w' hmem (hcell ▸ hof.1)

theorem allOrNothing_insert_iff (hrun : ∀ doc ∈ docs, doc.runId = some runId) (db : Database) :
    AllOrNothing (Database.Stores pack) (Database.HoldsRun runId) docs
        (insertChunks pack client docs db) ↔ InsertSafe pack client runId docs db := by
  have hrun_eq : insertChunks pack client docs db =
      ((run db ((batchesOf docs).mapIdx (turn pack client))).1,
        (run db ((batchesOf docs).mapIdx (turn pack client))).2.2) := by
    simp only [insertChunks, pipelineBatches_eq, Nat.zero_add]
  rw [hrun_eq, InsertSafe]
  cases hres : (run db ((batchesOf docs).mapIdx (turn pack client))).2.2 with
  | ok u =>
      have hall := allPass_of_ok docs (fun _ _ => turn_stop_iff) hres
      rw [AllOrNothing, run_fst, and_iff_right hall, or_iff_left fun h => h.1 hall]
      exact stores_iff hall db
  | error e =>
      have hnot := not_allPass_of_error docs (fun _ _ => turn_stop_iff) hres
      rw [or_iff_right fun h => hnot h.1, and_iff_right hnot, ← writesMade_turns_iff docs
        (fun _ _ => turn_stop_iff) fun _ _ => turn_writes_nil_iff, AllOrNothing, run_fst,
        holdsRun_writeAll_iff hrun, not_or, ne_eq, not_not]

end Redis

/-! ## Both stores -/

/-- For the chunks of one run, when the clean-up request is accepted. -/
theorem insertChunks_allOrNothing_iff {φ : Type} {docs : List (ChunkDoc φ)} {runId : String}
    (hrun : ∀ doc ∈ docs, doc.runId = some runId) {cluster : Elasticsearch.Cluster}
    (hclean : cluster.deleteByQuery = .deleted) (index : Elasticsearch.Index φ)
    (pack : φ → Option (List UInt8)) (client : Nat → RequestOutcome) (db : Redis.Database) :
    (AllOrNothing Elasticsearch.Index.Stores (Elasticsearch.Index.HoldsRun runId) docs
        (Elasticsearch.insertChunks cluster docs index) ↔
      Elasticsearch.InsertSafe cluster.bulk runId docs index) ∧
    (AllOrNothing (Redis.Database.Stores pack) (Redis.Database.HoldsRun runId) docs
        (Redis.insertChunks pack client docs db) ↔
      Redis.InsertSafe pack client runId docs db) :=
  ⟨Elasticsearch.allOrNothing_insert_iff hrun hclean index, Redis.allOrNothing_insert_iff hrun db⟩

/-! ## A batch that fails half way -/

/-- A chunk of the run `r`, with an embedding of zeros. -/
def chunkOfR (chunkId : String) : ChunkDoc Nat where
  chunkId := some chunkId
  experimentId := some "e"
  runId := some "r"
  text := some "pell grant"
  index := some 0
  embedding := some (List.replicate 384 0)
  embeddingModel := some "all-MiniLM-L6-v2"
  chunkMethod := some "recursive"
  chunkingMethod := none
  chunkSize := some 128
  overlap := some 0
  padding := some 0

def packZero (n : Nat) : Option (List UInt8) := if n = 0 then some [0, 0, 0, 0] else none

theorem not_allOrNothing_of_left {σ δ : Type} {stored : σ → δ → Prop} {left : σ → Prop}
    {docs : List δ} {r : σ × Except InsertError Unit} (hraised : (errorOf r.2).isSome = true)
    (hleft : left r.1) : ¬AllOrNothing stored left docs r := by
  intro h
  obtain ⟨s, result⟩ := r
  cases result with
  | ok u => cases hraised
  | error e => exact h hleft

/-- Nothing is stored. -/
def unreachable : RequestOutcome := .raised (fun _ => false) (.requestError "unreachable")

/-- All is stored. -/
def storedWhole : RequestOutcome := .answered fun _ => none

/-- So many chunks of the run `r`. -/
def chunksOfR (n : Nat) : List (ChunkDoc Nat) := (List.range n).map fun i => chunkOfR s!"r_{i}"

theorem runId_chunksOfR (n : Nat) : ∀ doc ∈ chunksOfR n, doc.runId = some "r" := by
  intro doc hdoc
  obtain ⟨i, -, rfl⟩ := List.mem_map.mp hdoc
  rfl

theorem batch_chunksOfR {n k : Nat} (h : k * bulkBatchSize < n) :
    (batchesOf (chunksOfR n))[k]? =
      some (windowAt (chunksOfR n) bulkBatchSize bulkBatchSize k) := by
  refine (getElem?_windows _ _ (by decide)).mpr ⟨?_, rfl⟩
  rwa [chunksOfR, List.length_map, List.length_range]

theorem exists_of_mem_batch {n i : Nat} {batch : List (ChunkDoc Nat)}
    (hbatch : (batchesOf (chunksOfR n))[i]? = some batch) {doc : ChunkDoc Nat}
    (hdoc : doc ∈ batch) : ∃ id, doc = chunkOfR id := by
  obtain ⟨i, -, rfl⟩ := List.mem_map.mp (mem_iff_mem_batch.mpr ⟨_, _, hbatch, hdoc⟩)
  exact ⟨_, rfl⟩

theorem dims_chunkOfR (id : String) :
    fieldForDims ((chunkOfR id).embedding.getD []).length = .ok "embedding_384" := by
  show fieldForDims (List.replicate 384 0).length = _
  rw [List.length_replicate]
  rfl

/-- A whole batch passes in Elasticsearch. -/
theorem Elasticsearch.passes_chunksOfR {n i : Nat} {batch : List (ChunkDoc Nat)}
    (hbatch : (batchesOf (chunksOfR n))[i]? = some batch) {bulk : Nat → RequestOutcome}
    (hbulk : bulk i = storedWhole) : Passes bulk i batch := by
  have hoperations : ∀ doc ∈ batch, ∃ action, indexAction doc = .ok action := by
    intro doc hdoc
    obtain ⟨id, rfl⟩ := exists_of_mem_batch hbatch hdoc
    rw [indexAction, chunkSource, dims_chunkOfR]
    exact ⟨_, rfl⟩
  obtain ⟨operations, hall⟩ := exists_mapM_iff.mpr hoperations
  exact ⟨operations, _, hall, hbulk, fun _ _ => rfl⟩

/-- And in Redis. -/
theorem Redis.passes_chunksOfR {n i : Nat} {batch : List (ChunkDoc Nat)}
    (hbatch : (batchesOf (chunksOfR n))[i]? = some batch) {client : Nat → RequestOutcome}
    (hclient : client i = storedWhole) : Passes packZero client i batch := by
  have hpack : packAll packZero (List.replicate 384 0) = .ok (List.replicate 1536 0) := by
    decide +kernel
  have hcommands : ∀ doc ∈ batch, ∃ command, addToPipeline packZero doc = .ok command := by
    intro doc hdoc
    obtain ⟨id, rfl⟩ := exists_of_mem_batch hbatch hdoc
    have hadd : addToPipeline packZero (chunkOfR id) = (do
        let field ← fieldForDims ((chunkOfR id).embedding.getD []).length
        let embeddingBytes ← packAll packZero (List.replicate 384 0)
        return some (hsetOf (chunkOfR id) field embeddingBytes)) := rfl
    rw [hadd, dims_chunkOfR, hpack]
    exact ⟨_, rfl⟩
  obtain ⟨commands, hall⟩ := exists_mapM_iff.mpr hcommands
  exact ⟨_, bind_eq_ok.mpr ⟨commands, hall, rfl⟩, Or.inr ⟨_, hclient⟩⟩

/-- The first request is stored, the second one cannot be made. -/
def lostSecond (i : Nat) : RequestOutcome := if i = 0 then storedWhole else unreachable

theorem Elasticsearch.insertSafe_lostSecond {n : Nat} (hn : bulkBatchSize < n) :
    InsertSafe lostSecond "r" (chunksOfR n) fun _ => none := by
  have hfirst := batch_chunksOfR (k := 0) (n := n) (by omega)
  have hsecond := batch_chunksOfR (k := 1) (n := n) (by omega)
  refine Or.inr ⟨fun h => ?_, Or.inl ⟨by decide, _, hfirst, passes_chunksOfR hfirst rfl⟩⟩
  obtain ⟨_, _, -, hanswered, -⟩ := h 1 _ hsecond
  cases hanswered

theorem Redis.insertSafe_storedWhole :
    InsertSafe packZero (fun _ => storedWhole) "r" (chunksOfR 2) fun _ => none := by
  have hpass : AllPass (Passes packZero fun _ => storedWhole) (chunksOfR 2) :=
    fun _ _ hbatch => passes_chunksOfR hbatch rfl
  refine Or.inl ⟨hpass, by decide +kernel, ?_, fun cell hcell => ?_⟩
  · unfold Agree
    decide +kernel
  · exact Or.inl (wrote_of_stored hpass (fun _ _ => rfl) hcell)

/-- Elasticsearch stores the first request, cannot be reached for the second one, and deletes
    again; Redis stores both chunks of its one. -/
theorem stored_batches_all_or_nothing :
    AllOrNothing Elasticsearch.Index.Stores (Elasticsearch.Index.HoldsRun "r") (chunksOfR 501)
        (Elasticsearch.insertChunks ⟨lostSecond, .deleted⟩ (chunksOfR 501) fun _ => none) ∧
      AllOrNothing (Redis.Database.Stores packZero) (Redis.Database.HoldsRun "r") (chunksOfR 2)
        (Redis.insertChunks packZero (fun _ => storedWhole) (chunksOfR 2) fun _ => none) := by
  have hclean : (⟨lostSecond, .deleted⟩ : Elasticsearch.Cluster).deleteByQuery = .deleted := rfl
  have hes := insertChunks_allOrNothing_iff (runId_chunksOfR 501) hclean (fun _ => none) packZero
    lostSecond fun _ => none
  have hredis := insertChunks_allOrNothing_iff (runId_chunksOfR 2) hclean (fun _ => none) packZero
    (fun _ => storedWhole) fun _ => none
  have hmore : bulkBatchSize < 501 := Nat.lt_succ_self 500
  exact (and_congr hes.1 hredis.2).mpr
    ⟨Elasticsearch.insertSafe_lostSecond hmore, Redis.insertSafe_storedWhole⟩

/-- Elasticsearch rejects the second chunk of the first request; Redis runs out of memory after
    the first chunk. -/
theorem first_chunk_stays :
    ¬AllOrNothing Elasticsearch.Index.Stores (Elasticsearch.Index.HoldsRun "r")
        [chunkOfR "r_0", chunkOfR "r_1"]
        (Elasticsearch.insertChunks
          ⟨fun _ => .answered fun j => if j = 1 then some "rejected" else none, .deleted⟩
          [chunkOfR "r_0", chunkOfR "r_1"] fun _ => none) ∧
      ¬AllOrNothing (Redis.Database.Stores packZero) (Redis.Database.HoldsRun "r")
        [chunkOfR "r_0", chunkOfR "r_1"]
        (Redis.insertChunks packZero
          (fun _ => .raised (fun j => j = 0) (.requestError "OOM command not allowed"))
          [chunkOfR "r_0", chunkOfR "r_1"] fun _ => none) := by
  constructor
  · refine not_allOrNothing_of_left (by decide +kernel) ⟨"r_0", ?_⟩
    exact ⟨⟨"r_0", "e", "r", "pell grant", 0, "all-MiniLM-L6-v2", "recursive", 128, 0, 0,
      "embedding_384", List.replicate 384 0⟩, by decide +kernel, rfl⟩
  · refine not_allOrNothing_of_left (by decide +kernel) ?_
    exact ⟨("rpf:chunk:e:r:r_0", "run_id"), .str "r", by decide +kernel, rfl, rfl⟩

end RagParamsFinder
