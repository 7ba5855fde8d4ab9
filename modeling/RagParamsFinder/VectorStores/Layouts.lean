/-
  How the four vector stores lay out chunks: Elasticsearch, Redis, Postgres and MongoDB.

  Elasticsearch and Postgres keep a chunk under its chunk id, Redis under a key of its
  experiment, run and chunk ids, MongoDB under an `_id` that its driver makes up. Redis deletes an
  experiment's chunks by a key pattern, whose reading is a parameter.

  Proved: each layout is lawful; `chunkKey_prefix_iff`: a Redis key tells its experiment.
-/
import RagParamsFinder.VectorStores.SharedStore

namespace RagParamsFinder

open BatchWrites Delimited SharedTable

variable {φ ω : Type}

/-! ## Elasticsearch -/

namespace Elasticsearch

/-- `_hit_to_result`, the chunk of it. -/
def hitChunk (id : String) (source : ChunkSource φ) : Chunk where
  id := if source.chunkId ≠ "" then source.chunkId else id
  text := source.text
  index := source.chunkIndex
  embeddingModel := source.embeddingModel
  chunkMethod := source.chunkMethod

def layout : Layout φ String (ChunkSource φ) where
  row doc := (indexAction doc).toOption
  scope source := ⟨source.experimentId, source.embeddingModel, source.runId⟩
  shown id source := some (hitChunk id source)
  position i := i
  sameId id id' := id = id'
  ofExperiment experimentId _ source := source.experimentId = experimentId

/-- The row of a run's document. -/
theorem row_chunkDoc {r : ChunkedRun φ} {i : Nat} {chunk : String} {emb : List φ} {k : String}
    {v : ChunkSource φ} (h : layout.row (r.chunkDoc i chunk emb) = some (k, v)) :
    ∃ field, fieldForDims emb.length = .ok field ∧ k = chunkIdOf r.runId i ∧
      v = { chunkId := chunkIdOf r.runId i, experimentId := r.experimentId, runId := r.runId
            text := chunk, chunkIndex := i, embeddingModel := r.embeddingModel
            chunkMethod := r.chunkMethod, chunkSize := r.params.chunkSize
            overlap := r.params.overlap, padding := r.params.padding
            field := field, embedding := emb } := by
  have hrow : layout.row (r.chunkDoc i chunk emb) =
      (indexAction (r.chunkDoc i chunk emb)).toOption := rfl
  rw [hrow, indexAction, chunkSource] at h
  cases hfield : fieldForDims emb.length with
  | error e =>
      simp only [ChunkedRun.chunkDoc, Option.getD_some, hfield] at h
      cases h
  | ok field =>
      simp only [ChunkedRun.chunkDoc, Option.getD_some, hfield] at h
      cases h
      exact ⟨field, rfl, rfl, rfl⟩

theorem lawful (fleet : Fleet φ ω) : (layout (φ := φ)).Lawful fleet := by
  constructor
  case key =>
    rintro w w' i i' doc doc' k v v' ⟨chunk, emb, -, -, rfl⟩ ⟨chunk', emb', -, -, rfl⟩ h h'
    obtain ⟨-, -, rfl, -⟩ := row_chunkDoc h
    obtain ⟨-, -, hk, -⟩ := row_chunkDoc h'
    exact congrArg some hk
  case scope =>
    rintro w i doc k v ⟨chunk, emb, -, -, rfl⟩ h
    obtain ⟨field, -, -, rfl⟩ := row_chunkDoc h
    rfl
  case shown =>
    rintro w i doc k v ⟨chunk, emb, hchunk, hemb, rfl⟩ h
    obtain ⟨field, -, rfl, rfl⟩ := row_chunkDoc h
    refine ⟨_, rfl, ?_, hchunk, (List.getElem?_eq_some_iff.mp hemb).1, rfl, rfl, rfl⟩
    exact ite_self _
  case sameId_refl => exact fun _ => decide_eq_true rfl
  case sameId_uuid => exact fun _ _ h => of_decide_eq_true h
  case ofExperiment =>
    rintro w i doc k v e ⟨chunk, emb, -, -, rfl⟩ h -
    obtain ⟨field, -, -, rfl⟩ := row_chunkDoc h
    exact decide_eq_true_iff

end Elasticsearch

/-! ## Redis -/

namespace Redis

/-- A field of a hash as the client returns it; an absent one is `""`. -/
def fieldText (mapping : List (String × HashValue)) (field : String) : String :=
  match mapping.lookup field with
  | some (.str s) => s
  | some (.int n) => toString n
  | some (.bytes _) => ""
  | none => ""

/-- `_docs_to_results`, the chunk of one. -/
def hitChunk (mapping : List (String × HashValue)) : Chunk where
  id := fieldText mapping "chunk_id"
  text := fieldText mapping "text"
  -- The searches do not ask for the position.
  index := 0
  embeddingModel := fieldText mapping "embedding_model"
  chunkMethod := fieldText mapping "chunking_method"

/-- What stands before `*` in the pattern of `delete_chunks_for_experiment`. -/
def experimentPrefix (experimentId : String) : String := s!"rpf:chunk:{experimentId}:"

/-- The layout for a reading of key patterns, and the packing of one number. -/
def layout (globMatches : String → String → Bool) (pack : φ → Option (List UInt8)) :
    Layout φ String (List (String × HashValue)) where
  row doc :=
    match addToPipeline pack doc with
    | .ok (some command) => some (command.key, command.mapping)
    | .ok none | .error _ => none
  scope mapping := ⟨fieldText mapping "experiment_id", fieldText mapping "embedding_model",
    fieldText mapping "run_id"⟩
  shown _ mapping := some (hitChunk mapping)
  position _ := 0
  -- Tags are compared without regard to case.
  sameId id id' := id.toLower = id'.toLower
  ofExperiment experimentId key _ := globMatches (experimentPrefix experimentId ++ "*") key

/-- The characters that have a meaning of their own in a key pattern. -/
def globChars : List Char := ['*', '?', '[', ']', '^', '\\']

/-- A pattern without such characters before its last `*` matches the keys that start so. -/
def ReadsGlobs (globMatches : String → String → Bool) : Prop :=
  ∀ start key : String, (∀ c ∈ start.toList, c ∉ globChars) →
    (globMatches (start ++ "*") key = true ↔ start.toList <+: key.toList)

theorem toList_experimentPrefix (experimentId : String) :
    (experimentPrefix experimentId).toList =
      "rpf:chunk:".toList ++ (experimentId.toList ++ [':']) := by
  change ("rpf:chunk:" ++ experimentId ++ ":").toList = _
  rw [String.toList_append, String.toList_append, List.append_assoc]
  rfl

theorem toList_chunkKey (experimentId runId chunkId : String) :
    (chunkKey experimentId runId chunkId).toList = "rpf:chunk:".toList ++
      (experimentId.toList ++ ':' :: (runId.toList ++ ':' :: chunkId.toList)) := by
  change ("rpf:chunk:" ++ experimentId ++ ":" ++ runId ++ ":" ++ chunkId).toList = _
  simp only [String.toList_append, List.append_assoc]
  rfl

theorem colon_not_mem {id : String} (h : IsUuid id) : ':' ∉ id.toList := h.not_mem (by decide)

/-- The ids are in lower case. -/
theorem toLower_uuid {id : String} (h : IsUuid id) : id.toLower = id := by
  refine String.toList_injective ?_
  change (id.map Char.toLower).toList = id.toList
  have hlower : uuidChars.all (fun c => c.toLower = c) = true := by decide
  have hid : ∀ c ∈ id.toList, c.toLower = c := fun c hc =>
    of_decide_eq_true (List.all_eq_true.mp hlower c (h c hc))
  rw [String.toList_map]
  exact (List.map_congr_left hid).trans (List.map_id _)

theorem chunkKey_inj {e e' r r' c c' : String} (he : IsUuid e) (he' : IsUuid e')
    (hr : IsUuid r) (hr' : IsUuid r') (h : chunkKey e r c = chunkKey e' r' c') :
    e = e' ∧ r = r' ∧ c = c' := by
  have hlist := congrArg String.toList h
  rw [toList_chunkKey, toList_chunkKey] at hlist
  obtain ⟨hexperiment, hrest⟩ := append_cons_inj_of_not_mem (colon_not_mem he)
    (colon_not_mem he') (List.append_cancel_left hlist)
  obtain ⟨hrun, hchunk⟩ := append_cons_inj_of_not_mem (colon_not_mem hr) (colon_not_mem hr') hrest
  exact ⟨String.toList_injective hexperiment, String.toList_injective hrun,
    String.toList_injective hchunk⟩

/-- The keys that start with an experiment's prefix are its keys. -/
theorem chunkKey_prefix_iff {e e' : String} (he : IsUuid e) (he' : IsUuid e') (r c : String) :
    (experimentPrefix e').toList <+: (chunkKey e r c).toList ↔ e = e' := by
  rw [toList_experimentPrefix, toList_chunkKey, List.prefix_append_right_inj]
  constructor
  · rintro ⟨rest, hrest⟩
    rw [List.append_assoc, List.singleton_append] at hrest
    obtain ⟨heq, -⟩ := append_cons_inj_of_not_mem (colon_not_mem he') (colon_not_mem he) hrest
    exact (String.toList_injective heq).symm
  · rintro rfl
    exact ⟨r.toList ++ ':' :: c.toList, by simp⟩

theorem experimentPrefix_plain {e : String} (he : IsUuid e) :
    ∀ c ∈ (experimentPrefix e).toList, c ∉ globChars := by
  intro c hc
  rw [toList_experimentPrefix, List.mem_append, List.mem_append] at hc
  have hfixed : "rpf:chunk:".toList.all (· ∉ globChars) = true := by decide
  have huuid : uuidChars.all (· ∉ globChars) = true := by decide
  rcases hc with hc | hc | hc
  · exact of_decide_eq_true (List.all_eq_true.mp hfixed c hc)
  · exact of_decide_eq_true (List.all_eq_true.mp huuid c (he c hc))
  · rw [List.mem_singleton.mp hc]
    decide

/-- The row of a run's document. -/
theorem row_chunkDoc {globMatches : String → String → Bool} {pack : φ → Option (List UInt8)}
    {r : ChunkedRun φ} {i : Nat} {chunk : String} {emb : List φ} {k : String}
    {v : List (String × HashValue)}
    (h : (layout globMatches pack).row (r.chunkDoc i chunk emb) = some (k, v)) :
    ∃ field bytes, fieldForDims emb.length = .ok field ∧
      k = chunkKey r.experimentId r.runId (chunkIdOf r.runId i) ∧
      v = (hsetOf (r.chunkDoc i chunk emb) field bytes).mapping := by
  have hadd : addToPipeline pack (r.chunkDoc i chunk emb) =
      (if emb.isEmpty then return none
      else do
        let field ← fieldForDims emb.length
        let bytes ← packAll pack emb
        return some (hsetOf (r.chunkDoc i chunk emb) field bytes)) := rfl
  change (match addToPipeline pack (r.chunkDoc i chunk emb) with
    | .ok (some command) => some (command.key, command.mapping)
    | .ok none | .error _ => none) = some (k, v) at h
  rw [hadd] at h
  split at h
  · rename_i command hcommand
    cases h
    cases hempty : emb.isEmpty with
    | true => rw [hempty] at hcommand; cases hcommand
    | false =>
        rw [hempty] at hcommand
        cases hfield : fieldForDims emb.length with
        | error e => rw [hfield] at hcommand; cases hcommand
        | ok field =>
            cases hbytes : packAll pack emb with
            | error e => rw [hfield, hbytes] at hcommand; cases hcommand
            | ok bytes =>
                rw [hfield, hbytes] at hcommand
                cases hcommand
                exact ⟨field, bytes, rfl, rfl, rfl⟩
  · cases h
  · cases h

theorem lawful {globMatches : String → String → Bool} (hglob : ReadsGlobs globMatches)
    (pack : φ → Option (List UInt8)) (fleet : Fleet φ ω) :
    (layout globMatches pack).Lawful fleet := by
  constructor
  case key =>
    rintro w w' i i' doc doc' k v v' ⟨chunk, emb, -, -, rfl⟩ ⟨chunk', emb', -, -, rfl⟩ h h'
    obtain ⟨-, -, -, rfl, -⟩ := row_chunkDoc h
    obtain ⟨-, -, -, hk, -⟩ := row_chunkDoc h'
    obtain ⟨-, -, hid⟩ := chunkKey_inj (fleet.run w).experiment_uuid
      (fleet.run w').experiment_uuid (fleet.run w).run_uuid (fleet.run w').run_uuid hk
    exact congrArg some hid
  case scope =>
    rintro w i doc k v ⟨chunk, emb, -, -, rfl⟩ h
    obtain ⟨field, bytes, -, -, rfl⟩ := row_chunkDoc h
    rfl
  case shown =>
    rintro w i doc k v ⟨chunk, emb, hchunk, hemb, rfl⟩ h
    obtain ⟨field, bytes, -, -, rfl⟩ := row_chunkDoc h
    refine ⟨_, rfl, rfl, hchunk, (List.getElem?_eq_some_iff.mp hemb).1, rfl, rfl, ?_⟩
    change (if (fleet.run w).chunkMethod ≠ "" then (fleet.run w).chunkMethod else "") = _
    split
    · rfl
    · rename_i hempty
      exact (not_not.mp hempty).symm
  case sameId_refl => exact fun _ => decide_eq_true rfl
  case sameId_uuid =>
    intro id id' hid hid' h
    have hlower : id.toLower = id'.toLower := of_decide_eq_true h
    rwa [toLower_uuid hid, toLower_uuid hid'] at hlower
  case ofExperiment =>
    rintro w i doc k v e ⟨chunk, emb, -, -, rfl⟩ h he
    obtain ⟨field, bytes, -, rfl, -⟩ := row_chunkDoc h
    refine (hglob _ _ (experimentPrefix_plain he)).trans ?_
    exact chunkKey_prefix_iff (fleet.run w).experiment_uuid he _ _

end Redis

/-! ## Postgres -/

namespace Postgres

/-- A row of `chunks`; the embedding is in the vector column of that name. -/
structure ChunkRow (φ : Type) where
  chunkId : String
  experimentId : String
  runId : String
  text : String
  chunkIndex : Int
  embeddingModel : String
  chunkMethod : String
  chunkSize : Option Int
  overlap : Option Int
  padding : Option Int
  vectorColumn : String
  embedding : List φ
  deriving DecidableEq, Repr

/-- `VECTOR_COLUMNS`. -/
def vectorColumns : List (Nat × String) := [(384, "embedding_384"), (1024, "embedding_1024")]

/-- `vector_column_for`. -/
def vectorColumnFor (dimensions : Nat) : Except InsertError String :=
  match vectorColumns.lookup dimensions with
  | some column => .ok column
  | none =>
      let supported := ", ".intercalate (vectorColumns.map fun c => toString c.1)
      .error (.valueError (s!"No Postgres vector column for {dimensions}-dim embeddings " ++
        s!"(supported: {supported}). SPLADE/high-dimension sparse embedding " ++
        "storage is not available yet — use dense models (384/1024) or " ++
        "keyword sparse/hybrid retrieval via tsvector."))

/-- `vector_column_for(len(doc["embedding"]))`. -/
def columnOf (doc : ChunkDoc φ) : Except InsertError String := do
  let embedding ← getItem "embedding" doc.embedding
  vectorColumnFor embedding.length

/-- `_chunk_params`, for the statement of a vector column. -/
def chunkParams (vectorColumn : String) (doc : ChunkDoc φ) : Except InsertError (ChunkRow φ) := do
  let chunkId ← getItem "chunk_id" doc.chunkId
  let experimentId ← getItem "experiment_id" doc.experimentId
  let runId ← getItem "run_id" doc.runId
  let text ← getItem "text" doc.text
  let index ← getItem "index" doc.index
  let embeddingModel ← getItem "embedding_model" doc.embeddingModel
  let chunkMethod ← getItem "chunk_method" doc.chunkMethod
  let embedding ← getItem "embedding" doc.embedding
  return {
    chunkId := chunkId
    experimentId := experimentId
    runId := runId
    text := text
    chunkIndex := index
    embeddingModel := embeddingModel
    chunkMethod := chunkMethod
    chunkSize := doc.chunkSize
    overlap := doc.overlap
    padding := doc.padding
    vectorColumn := vectorColumn
    embedding := embedding }

/-- The row of a document, in the column of its width. -/
def rowOf (doc : ChunkDoc φ) : Except InsertError (ChunkRow φ) := do
  chunkParams (← columnOf doc) doc

/-- The chunk of a row of `_to_search_results`. -/
def hitChunk (row : ChunkRow φ) : Chunk :=
  ⟨row.chunkId, row.text, row.chunkIndex, row.embeddingModel, row.chunkMethod⟩

def layout : Layout φ String (ChunkRow φ) where
  row doc := (rowOf doc).toOption.map fun row => (row.chunkId, row)
  scope row := ⟨row.experimentId, row.embeddingModel, row.runId⟩
  shown _ row := some (hitChunk row)
  position i := i
  sameId id id' := id = id'
  ofExperiment experimentId _ row := row.experimentId = experimentId

/-- The row of a run's document. -/
def rowAt (r : ChunkedRun φ) (i : Nat) (chunk : String) (emb : List φ) (vectorColumn : String) :
    ChunkRow φ where
  chunkId := chunkIdOf r.runId i
  experimentId := r.experimentId
  runId := r.runId
  text := chunk
  chunkIndex := i
  embeddingModel := r.embeddingModel
  chunkMethod := r.chunkMethod
  chunkSize := some r.params.chunkSize
  overlap := some r.params.overlap
  padding := some r.params.padding
  vectorColumn := vectorColumn
  embedding := emb

theorem columnOf_chunkDoc (r : ChunkedRun φ) (i : Nat) (chunk : String) (emb : List φ) :
    columnOf (r.chunkDoc i chunk emb) = vectorColumnFor emb.length := rfl

theorem row_chunkDoc {r : ChunkedRun φ} {i : Nat} {chunk : String} {emb : List φ} {k : String}
    {v : ChunkRow φ} (h : layout.row (r.chunkDoc i chunk emb) = some (k, v)) :
    ∃ vectorColumn, vectorColumnFor emb.length = .ok vectorColumn ∧ k = chunkIdOf r.runId i ∧
      v = rowAt r i chunk emb vectorColumn := by
  change (rowOf (r.chunkDoc i chunk emb)).toOption.map _ = _ at h
  rw [rowOf, columnOf_chunkDoc] at h
  cases hcolumn : vectorColumnFor emb.length with
  | error e => rw [hcolumn] at h; cases h
  | ok vectorColumn =>
      rw [hcolumn] at h
      cases h
      exact ⟨vectorColumn, rfl, rfl, rfl⟩

theorem lawful (fleet : Fleet φ ω) : (layout (φ := φ)).Lawful fleet := by
  constructor
  case key =>
    rintro w w' i i' doc doc' k v v' ⟨chunk, emb, -, -, rfl⟩ ⟨chunk', emb', -, -, rfl⟩ h h'
    obtain ⟨-, -, rfl, -⟩ := row_chunkDoc h
    obtain ⟨-, -, hk, -⟩ := row_chunkDoc h'
    exact congrArg some hk
  case scope =>
    rintro w i doc k v ⟨chunk, emb, -, -, rfl⟩ h
    obtain ⟨-, -, -, rfl⟩ := row_chunkDoc h
    rfl
  case shown =>
    rintro w i doc k v ⟨chunk, emb, hchunk, hemb, rfl⟩ h
    obtain ⟨-, -, -, rfl⟩ := row_chunkDoc h
    exact ⟨_, rfl, rfl, hchunk, (List.getElem?_eq_some_iff.mp hemb).1, rfl, rfl, rfl⟩
  case sameId_refl => exact fun _ => decide_eq_true rfl
  case sameId_uuid => exact fun _ _ h => of_decide_eq_true h
  case ofExperiment =>
    rintro w i doc k v e ⟨chunk, emb, -, -, rfl⟩ h -
    obtain ⟨-, -, -, rfl⟩ := row_chunkDoc h
    exact decide_eq_true_iff

end Postgres

/-! ## MongoDB -/

namespace Mongo

/-- The chunk of a document of `_to_search_results`. -/
def hitChunk (doc : ChunkDoc φ) : Option Chunk := do
  let id ← doc.chunkId
  let text ← doc.text
  let index ← doc.index
  let embeddingModel ← doc.embeddingModel
  let chunkMethod ← doc.chunkMethod
  return ⟨id, text, index, embeddingModel, chunkMethod⟩

/-- The layout under the `_id` that the driver gives each document. -/
def layout (objectId : ChunkDoc φ → String) : Layout φ String (ChunkDoc φ) where
  row doc := some (objectId doc, doc)
  scope doc := ⟨doc.experimentId.getD "", doc.embeddingModel.getD "", doc.runId.getD ""⟩
  shown _ := hitChunk
  position i := i
  sameId id id' := id = id'
  ofExperiment experimentId _ doc := doc.experimentId = some experimentId

/-- No `_id` is given to two chunks. -/
def FreshIds (objectId : ChunkDoc φ → String) (fleet : Fleet φ ω) : Prop :=
  ∀ {w w' i i' doc doc'}, (fleet.run w).IsDoc i doc → (fleet.run w').IsDoc i' doc' →
    objectId doc = objectId doc' → doc.chunkId = doc'.chunkId

theorem lawful {objectId : ChunkDoc φ → String} {fleet : Fleet φ ω}
    (hfresh : FreshIds objectId fleet) : (layout objectId).Lawful fleet := by
  constructor
  case key =>
    intro w w' i i' doc doc' k v v' hdoc hdoc' h h'
    obtain ⟨hk, -⟩ := Prod.mk.inj (Option.some.inj h)
    obtain ⟨hk', -⟩ := Prod.mk.inj (Option.some.inj h')
    exact hfresh hdoc hdoc' (hk.trans hk'.symm)
  case scope =>
    rintro w i doc k v ⟨chunk, emb, -, -, rfl⟩ h
    cases h
    rfl
  case shown =>
    rintro w i doc k v ⟨chunk, emb, hchunk, hemb, rfl⟩ h
    cases h
    exact ⟨_, rfl, rfl, hchunk, (List.getElem?_eq_some_iff.mp hemb).1, rfl, rfl, rfl⟩
  case sameId_refl => exact fun _ => decide_eq_true rfl
  case sameId_uuid => exact fun _ _ h => of_decide_eq_true h
  case ofExperiment =>
    rintro w i doc k v e ⟨chunk, emb, -, -, rfl⟩ h -
    cases h
    exact decide_eq_true_iff.trans Option.some_inj

end Mongo

end RagParamsFinder
