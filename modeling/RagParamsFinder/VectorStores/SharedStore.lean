/-
  The chunks of all runs share one index in every vector store.

  A store lays out a chunk document as one row under a key (`Layout`). Its history is any
  interleaving of the rows that the runs put, the clean-ups by run id and the deletions by
  experiment; a deletion may reach only some of its rows before it fails.

  Proved: `Layout.scope_exact`: when the rows of a run have been put and nothing of it was
  deleted, a filter on its ids finds its chunks, all of them and no others, whatever the other
  runs and experiments do. `lawful` of each layout: no two documents share a key.
-/
import RagParamsFinder.Lib.SharedTable
import RagParamsFinder.Pipeline.ChunkedRun
import RagParamsFinder.Retrieval.Fusion

namespace RagParamsFinder

open BatchWrites Delimited SharedTable StepMachine

/-! ## Layouts -/

/-- What a search is limited to. -/
structure ChunkScope where
  experimentId : String
  embeddingModel : String
  runId : String
  deriving DecidableEq, Repr

def ChunkedRun.scope {φ : Type} (r : ChunkedRun φ) : ChunkScope :=
  ⟨r.experimentId, r.embeddingModel, r.runId⟩

/-- How a store keeps chunk documents over the numbers `φ`, as rows `ν` under keys `κ`. -/
structure Layout (φ κ ν : Type) where
  /-- The row of a document; `none` if it is refused or skipped. -/
  row : ChunkDoc φ → Option (κ × ν)
  scope : ν → ChunkScope
  /-- The chunk that a search hit shows; `none` for a missing key. -/
  shown : κ → ν → Option Chunk
  /-- The `index` that it shows for the chunk at a position. -/
  position : Nat → Int
  /-- How a filter compares an id with the one that it asks for. -/
  sameId : String → String → Bool
  /-- What the deletion of an experiment's chunks reaches. -/
  ofExperiment : String → κ → ν → Bool

/-- A search filter finds the row. -/
def Layout.Finds {φ κ ν : Type} (L : Layout φ κ ν) (scope : ChunkScope) (v : ν) : Prop :=
  L.sameId (L.scope v).experimentId scope.experimentId = true ∧
    L.sameId (L.scope v).embeddingModel scope.embeddingModel = true ∧
      L.sameId (L.scope v).runId scope.runId = true

/-- The chunk of a run at a position. -/
structure ChunkedRun.OwnChunk {φ : Type} (r : ChunkedRun φ) (position : Nat → Int) (i : Nat)
    (c : Chunk) : Prop where
  id : c.id = chunkIdOf r.runId i
  text : r.chunks[i]? = some c.text
  embedded : i < r.embeddings.length
  index : c.index = position i
  embeddingModel : c.embeddingModel = r.embeddingModel
  chunkMethod : c.chunkMethod = r.chunkMethod

section Laws

variable {φ ω κ ν : Type}

/-- No two documents of the fleet share a key, and a row tells whose it is. -/
structure Layout.Lawful (L : Layout φ κ ν) (fleet : Fleet φ ω) : Prop where
  key : ∀ {w w' i i' doc doc' k v v'}, (fleet.run w).IsDoc i doc → (fleet.run w').IsDoc i' doc' →
    L.row doc = some (k, v) → L.row doc' = some (k, v') → doc.chunkId = doc'.chunkId
  scope : ∀ {w i doc k v}, (fleet.run w).IsDoc i doc → L.row doc = some (k, v) →
    L.scope v = (fleet.run w).scope
  shown : ∀ {w i doc k v}, (fleet.run w).IsDoc i doc → L.row doc = some (k, v) →
    ∃ c, L.shown k v = some c ∧ (fleet.run w).OwnChunk L.position i c
  sameId_refl : ∀ id, L.sameId id id = true
  sameId_uuid : ∀ {id id'}, IsUuid id → IsUuid id' → L.sameId id id' = true → id = id'
  ofExperiment : ∀ {w i doc k v e}, (fleet.run w).IsDoc i doc → L.row doc = some (k, v) →
    IsUuid e → (L.ofExperiment e k v = true ↔ (fleet.run w).experimentId = e)

/-- The rows of a run. -/
def Layout.rows (L : Layout φ κ ν) (fleet : Fleet φ ω) (w : ω) : List (κ × ν) :=
  (fleet.run w).chunkDocs.filterMap L.row

theorem Layout.mem_rows {L : Layout φ κ ν} {fleet : Fleet φ ω} {w : ω} {row : κ × ν} :
    row ∈ L.rows fleet w ↔ ∃ i doc, (fleet.run w).IsDoc i doc ∧ L.row doc = some row := by
  rw [Layout.rows, List.mem_filterMap]
  constructor
  · rintro ⟨doc, hdoc, hrow⟩
    obtain ⟨i, hi⟩ := (fleet.run w).mem_chunkDocs.mp hdoc
    exact ⟨i, doc, hi, hrow⟩
  · rintro ⟨i, doc, hi, hrow⟩
    exact ⟨doc, (fleet.run w).mem_chunkDocs.mpr ⟨i, hi⟩, hrow⟩

variable {L : Layout φ κ ν} {fleet : Fleet φ ω}

theorem Layout.Lawful.separate (h : L.Lawful fleet) : Separate (L.rows fleet) := by
  intro w w' k v v' hrow hrow'
  obtain ⟨i, doc, hdoc, hkv⟩ := Layout.mem_rows.mp hrow
  obtain ⟨i', doc', hdoc', hkv'⟩ := Layout.mem_rows.mp hrow'
  obtain ⟨hw, -, rfl⟩ := fleet.doc_unique hdoc hdoc' (h.key hdoc hdoc' hkv hkv')
  rw [hkv] at hkv'
  exact ⟨hw, (Prod.mk.inj (Option.some.inj hkv')).2⟩

/-- A filter on a run's ids finds the rows of that run and no others. -/
theorem Layout.Lawful.finds_iff (h : L.Lawful fleet) {w w' : ω} {k : κ} {v : ν}
    (hrow : (k, v) ∈ L.rows fleet w') : L.Finds (fleet.run w).scope v ↔ w' = w := by
  obtain ⟨i, doc, hdoc, hkv⟩ := Layout.mem_rows.mp hrow
  unfold Layout.Finds
  rw [h.scope hdoc hkv]
  constructor
  · rintro ⟨-, -, hrun⟩
    exact fleet.distinct (h.sameId_uuid (fleet.run w').run_uuid (fleet.run w).run_uuid hrun)
  · rintro rfl
    exact ⟨h.sameId_refl _, h.sameId_refl _, h.sameId_refl _⟩

end Laws

/-! ## Histories -/

/-- What can happen to a store. `reached` tells which rows a deletion has removed. -/
inductive StoreEvent (ω κ : Type) where
  | stored (w : ω) (i : Nat)
  | runDeleted (runId : String) (reached : κ → Bool)
  | experimentDeleted (experimentId : String) (uuid : IsUuid experimentId) (reached : κ → Bool)

/-- A deletion of the run's chunks. -/
def StoreEvent.Deletes {φ ω κ : Type} (r : ChunkedRun φ) : StoreEvent ω κ → Prop
  | .stored .. => False
  | .runDeleted runId _ => runId = r.runId
  | .experimentDeleted experimentId _ _ => experimentId = r.experimentId

section History

variable {φ ω κ ν : Type} (L : Layout φ κ ν) (fleet : Fleet φ ω)

def StoreEvent.action : StoreEvent ω κ → Action ω κ ν
  | .stored w i => .put w i
  | .runDeleted runId reached => .drop fun k v => (L.scope v).runId = runId && reached k
  | .experimentDeleted experimentId _ reached =>
      .drop fun k v => L.ofExperiment experimentId k v && reached k

/-- Run a list of events. -/
def history [DecidableEq κ] (s : Cells κ ν) (events : List (StoreEvent ω κ)) :
    Option (Cells κ ν) :=
  exec (step (L.rows fleet)) s (events.map (StoreEvent.action L))

/-- A state of the store at some time. -/
def Seen [DecidableEq κ] (s : Cells κ ν) : Prop :=
  ∃ events : List (StoreEvent ω κ), history L fleet (fun _ => none) events = some s

variable {L fleet}

theorem Seen.owned [DecidableEq κ] {s : Cells κ ν} (h : Seen L fleet s) :
    Owned (L.rows fleet) s := by
  obtain ⟨events, hrun⟩ := h
  exact owned_of_history (owned_empty _) hrun

theorem history_append [DecidableEq κ] (s : Cells κ ν) (events events' : List (StoreEvent ω κ)) :
    history L fleet s (events ++ events') =
      (history L fleet s events).bind fun t => history L fleet t events' := by
  rw [history, List.map_append, exec_append]
  rfl

/-- What does not delete a run's chunks spares its rows. -/
theorem StoreEvent.spares (h : L.Lawful fleet) {w : ω} {row : κ × ν}
    (hrow : row ∈ L.rows fleet w) {event : StoreEvent ω κ}
    (hnot : ¬event.Deletes (fleet.run w)) : (event.action L).Spares row := by
  obtain ⟨i, doc, hdoc, hkv⟩ := Layout.mem_rows.mp hrow
  cases event with
  | stored w' i => trivial
  | runDeleted runId reached =>
      have hid : ¬(L.scope row.2).runId = runId := fun hid =>
        hnot ((congrArg ChunkScope.runId (h.scope hdoc hkv)).symm.trans hid).symm
      simp [action, Action.Spares, hid]
  | experimentDeleted experimentId uuid reached =>
      have hid : ¬L.ofExperiment experimentId row.1 row.2 = true := fun hid =>
        hnot ((h.ofExperiment hdoc hkv uuid).mp hid).symm
      simp [action, Action.Spares, hid]

variable (L fleet) in
/-- Each row of the run has been put. -/
def AllPut (w : ω) (events : List (StoreEvent ω κ)) : Prop :=
  ∀ row ∈ L.rows fleet w, ∃ i, (L.rows fleet w)[i]? = some row ∧ .stored w i ∈ events

/-- **The scope of a run is exact.** Once each of its rows has been put and as long as nothing
    of it is deleted, the rows that a filter on its ids finds are its rows. -/
theorem Layout.scope_exact [DecidableEq κ] (h : L.Lawful fleet) {w : ω}
    {events : List (StoreEvent ω κ)} {t : Cells κ ν}
    (hrun : history L fleet (fun _ => none) events = some t) (hput : AllPut L fleet w events)
    (hnot : ∀ event ∈ events, ¬event.Deletes (fleet.run w)) (k : κ) (v : ν) :
    t k = some v ∧ L.Finds (fleet.run w).scope v ↔ (k, v) ∈ L.rows fleet w := by
  have hheld : Held (L.rows fleet) w t := by
    intro row hrow
    obtain ⟨i, hi, hmem⟩ := hput row hrow
    refine held_of_put h.separate hi (List.mem_map.mpr ⟨_, hmem, rfl⟩) (fun a ha => ?_) hrun
    obtain ⟨event, hevent, rfl⟩ := List.mem_map.mp ha
    exact StoreEvent.spares h hrow (hnot event hevent)
  have hseen : Seen L fleet t := ⟨events, hrun⟩
  exact scope_iff (fun w w' k v => h.finds_iff) hseen.owned hheld k v

end History

end RagParamsFinder
