/-
  How `insert_chunks` writes to the vector-only stores: `ElasticsearchVectorStore` and
  `RedisVectorStore`.

  The chunks go out in batches of 500, one request for each batch. What the servers do with
  the requests is not in this repository: a request is answered, with the failures of some of
  its items, or it raises after any of them have been stored (`RequestOutcome`).
  `indexBatches_eq` and `pipelineBatches_eq`: both loops are runs of turns.
-/
import RagParamsFinder.Lib.BatchWrites
import RagParamsFinder.Lib.Slices
import RagParamsFinder.Lib.Traversals

namespace RagParamsFinder

open BatchWrites Slices Traversals

/-! ## Chunk documents -/

/-- A chunk document over the numbers `φ`; `none` where the dictionary lacks the key. -/
structure ChunkDoc (φ : Type) where
  chunkId : Option String
  experimentId : Option String
  runId : Option String
  text : Option String
  index : Option Int
  embedding : Option (List φ)
  embeddingModel : Option String
  chunkMethod : Option String
  chunkingMethod : Option String
  chunkSize : Option Int
  overlap : Option Int
  padding : Option Int
  deriving DecidableEq, Repr

inductive InsertError where
  | keyError (key : String)
  | valueError (message : String)
  /-- A number does not fit into four bytes. -/
  | overflowError
  | bulkIndexError (message : String)
  /-- Raised by the client, as `call` hands it on. -/
  | requestError (message : String)
  deriving DecidableEq, Repr

/-- `VECTOR_FIELDS`. -/
def vectorFields : List (Nat × String) := [(384, "embedding_384"), (1024, "embedding_1024")]

def fieldForDims (dimensions : Nat) : Except InsertError String :=
  match vectorFields.lookup dimensions with
  | some field => .ok field
  | none =>
      let supported := ", ".intercalate (vectorFields.map fun f => toString f.1)
      .error (.valueError (s!"Dimension mismatch: {dimensions}-dim embeddings are not supported " ++
        s!"(capabilities.supported_dims: {supported}). " ++
        "SPLADE and other widths are rejected before a query is sent."))

/-- `doc[key]`. -/
def getItem {α : Type} (key : String) : Option α → Except InsertError α
  | some a => .ok a
  | none => .error (.keyError key)

/-- `_BULK_BATCH_SIZE`, and `batch_size` of the Redis store. -/
def bulkBatchSize : Nat := 500

/-- `docs[start : start + 500] for start in range(0, len(docs), 500)`. -/
def batchesOf {δ : Type} (docs : List δ) : List (List δ) := windows docs bulkBatchSize bulkBatchSize

/-! ## Requests -/

/-- What becomes of a request. -/
inductive RequestOutcome where
  /-- Answered; an item for which there is a reason was rejected. -/
  | answered (failure : Nat → Option String)
  /-- Raised, with some of the items stored. -/
  | raised (stored : Nat → Bool) (error : InsertError)

def RequestOutcome.stored : RequestOutcome → Nat → Bool
  | .answered failure, j => (failure j).isNone
  | .raised stored _, j => stored j

/-- The items at the positions that were stored. -/
def kept {α : Type} (stored : Nat → Bool) (items : List α) : List α :=
  (items.zipIdx.filter fun item => stored item.2).map (·.1)

theorem mem_kept {α : Type} {stored : Nat → Bool} {items : List α} {a : α} :
    a ∈ kept stored items ↔ ∃ j, items[j]? = some a ∧ stored j = true := by
  simp only [kept, List.mem_map, List.mem_filter]
  constructor
  · rintro ⟨⟨b, j⟩, ⟨hmem, hj⟩, rfl⟩
    exact ⟨j, List.mem_zipIdx_iff_getElem?.mp hmem, hj⟩
  · rintro ⟨j, ha, hj⟩
    exact ⟨(a, j), ⟨List.mem_zipIdx_iff_getElem?.mpr ha, hj⟩, rfl⟩

theorem kept_eq_nil_iff {α : Type} {stored : Nat → Bool} {items : List α} :
    kept stored items = [] ↔ ∀ j < items.length, stored j = false := by
  rw [List.eq_nil_iff_forall_not_mem]
  constructor
  · intro h j hj
    by_contra hstored
    exact h items[j] (mem_kept.mpr ⟨j, List.getElem?_eq_getElem hj, by simpa using hstored⟩)
  · intro h a ha
    obtain ⟨j, hj, hstored⟩ := mem_kept.mp ha
    obtain ⟨hlt, -⟩ := List.getElem?_eq_some_iff.mp hj
    exact Bool.false_ne_true ((h j hlt).symm.trans hstored)

/-! ## Elasticsearch -/

namespace Elasticsearch

/-- The `_source` of a chunk; the embedding is under the name `field`. -/
structure ChunkSource (φ : Type) where
  chunkId : String
  experimentId : String
  runId : String
  text : String
  chunkIndex : Int
  embeddingModel : String
  chunkMethod : String
  chunkSize : Int
  overlap : Int
  padding : Int
  field : String
  embedding : List φ
  deriving DecidableEq, Repr

/-- The chunks index, by `_id`. -/
abbrev Index (φ : Type) := Cells String (ChunkSource φ)

structure BulkItem where
  id : String
  error : Option String

structure BulkResponse where
  errors : Bool
  items : List BulkItem

/-- Which documents a clean-up request deletes of those that match: all, or some before it
    raises. -/
inductive DeleteOutcome where
  | deleted
  | raised (gone : String → Bool)

def DeleteOutcome.reaches : DeleteOutcome → String → Bool
  | .deleted, _ => true
  | .raised gone, id => gone id

/-- What the cluster does with the requests of one call of `insert_chunks`. -/
structure Cluster where
  bulk : Nat → RequestOutcome
  deleteByQuery : DeleteOutcome

variable {φ : Type}

/-- `_chunk_source`. -/
def chunkSource (doc : ChunkDoc φ) : Except InsertError (ChunkSource φ) := do
  let embedding := doc.embedding.getD []
  let field ← fieldForDims embedding.length
  let chunkId ← getItem "chunk_id" doc.chunkId
  let experimentId ← getItem "experiment_id" doc.experimentId
  let runId ← getItem "run_id" doc.runId
  return {
    chunkId := chunkId
    experimentId := experimentId
    runId := runId
    text := doc.text.getD ""
    chunkIndex := doc.index.getD 0
    embeddingModel := doc.embeddingModel.getD ""
    chunkMethod := doc.chunkMethod.getD ""
    chunkSize := doc.chunkSize.getD 0
    overlap := doc.overlap.getD 0
    padding := doc.padding.getD 0
    field := field
    embedding := embedding }

/-- An `index` action: the `_id` and the document put there. -/
def indexAction (doc : ChunkDoc φ) : Except InsertError (String × ChunkSource φ) := do
  let source ← chunkSource doc
  return (source.chunkId, source)

/-- `_bulk_operations`. -/
def bulkOperations (docs : List (ChunkDoc φ)) :
    Except InsertError (List (String × ChunkSource φ)) :=
  docs.mapM indexAction

def bulkAnswer (outcome : RequestOutcome) (operations : List (String × ChunkSource φ)) :
    Except InsertError BulkResponse :=
  match outcome with
  | .raised _ error => .error error
  | .answered failure =>
      let items := operations.mapIdx fun j operation => ⟨operation.1, failure j⟩
      .ok ⟨items.any fun item => item.error.isSome, items⟩

/-- `_raise_on_bulk_errors`. -/
def raiseOnBulkErrors (response : BulkResponse) (expected : Nat) : Except InsertError Unit :=
  if response.errors then
    let failures := response.items.filterMap fun item =>
      item.error.map fun reason => s!"{item.id}: {reason}"
    .error (.bulkIndexError (s!"{failures.length}/{expected} chunks failed to index. " ++
      "First errors: " ++ "; ".intercalate (failures.take 5)))
  else .ok ()

/-- The loop of `insert_chunks`, with `batches_indexed`. -/
def indexBatches (bulk : Nat → RequestOutcome) : Nat → Index φ → List (List (ChunkDoc φ)) →
    Index φ × Nat × Except InsertError Unit
  | batchesIndexed, index, [] => (index, batchesIndexed, .ok ())
  | batchesIndexed, index, batch :: batches =>
      match bulkOperations batch with
      | .error e => (index, batchesIndexed, .error e)
      | .ok operations =>
          let outcome := bulk batchesIndexed
          let index := writeAll index (kept outcome.stored operations)
          match (bulkAnswer outcome operations).bind (raiseOnBulkErrors · batch.length) with
          | .error e => (index, batchesIndexed, .error e)
          | .ok () => indexBatches bulk (batchesIndexed + 1) index batches

/-- `delete_by_query` for the chunks of a run. -/
def deleteRun (outcome : DeleteOutcome) (runId : String) (index : Index φ) : Index φ :=
  fun id => (index id).filter fun source => !(source.runId = runId && outcome.reaches id)

/-- The `except` of `insert_chunks`, around the loop. -/
def cleanUpAfter (outcome : DeleteOutcome) (runId : String)
    (loop : Index φ × Nat × Except InsertError Unit) : Index φ × Except InsertError Unit :=
  match loop.2.2 with
  | .ok () => (loop.1, .ok ())
  | .error e =>
      -- An error of the clean-up itself is logged, and the first one raised again.
      if runId ≠ "" ∧ 0 < loop.2.1 then (deleteRun outcome runId loop.1, .error e)
      else (loop.1, .error e)

def insertChunks (cluster : Cluster) (docs : List (ChunkDoc φ)) (index : Index φ) :
    Index φ × Except InsertError Unit :=
  match docs with
  | [] => (index, .ok ())
  | doc :: _ => cleanUpAfter cluster.deleteByQuery (doc.runId.getD "")
      (indexBatches cluster.bulk 0 index (batchesOf docs))

end Elasticsearch

/-! ## Redis -/

namespace Redis

/-- A field of a hash. -/
inductive HashValue where
  | str (s : String)
  | int (n : Int)
  | bytes (bs : List UInt8)
  deriving DecidableEq, Repr

/-- The hashes, by key and field: `HSET` leaves the fields that it does not name. -/
abbrev Database := Cells (String × String) HashValue

structure Hset where
  key : String
  mapping : List (String × HashValue)
  deriving DecidableEq, Repr

/-- The fields that the command sets. -/
def Hset.cells (command : Hset) : List ((String × String) × HashValue) :=
  command.mapping.map fun entry => ((command.key, entry.1), entry.2)

def chunkKey (experimentId runId chunkId : String) : String :=
  s!"rpf:chunk:{experimentId}:{runId}:{chunkId}"

/-- The command for a chunk whose packed embedding goes into `field`. -/
def hsetOf {φ : Type} (doc : ChunkDoc φ) (field : String) (embeddingBytes : List UInt8) : Hset :=
  let chunkId := doc.chunkId.getD ""
  let experimentId := doc.experimentId.getD ""
  let runId := doc.runId.getD ""
  let chunkMethod := doc.chunkMethod.getD ""
  { key := chunkKey experimentId runId chunkId
    mapping := [
      ("chunk_id", .str chunkId),
      ("experiment_id", .str experimentId),
      ("run_id", .str runId),
      ("text", .str (doc.text.getD "")),
      ("embedding_model", .str (doc.embeddingModel.getD "")),
      ("chunking_method",
        .str (if chunkMethod ≠ "" then chunkMethod else doc.chunkingMethod.getD "")),
      ("chunk_size", .int (doc.chunkSize.getD 0)),
      ("overlap", .int (doc.overlap.getD 0)),
      (field, .bytes embeddingBytes)] }

section Insert

variable {φ : Type} (pack : φ → Option (List UInt8))

/-- `struct.pack` of all numbers, where `pack` is that of one. -/
def packAll (embedding : List φ) : Except InsertError (List UInt8) :=
  match embedding.mapM pack with
  | some bytes => .ok bytes.flatten
  | none => .error .overflowError

/-- `_add_to_pipeline`; a document without an embedding is skipped. -/
def addToPipeline (doc : ChunkDoc φ) : Except InsertError (Option Hset) := do
  let embedding := doc.embedding.getD []
  if embedding.isEmpty then return none
  let field ← fieldForDims embedding.length
  let embeddingBytes ← packAll pack embedding
  return some (hsetOf doc field embeddingBytes)

/-- The pipeline of a batch. -/
def pipelineOf (batch : List (ChunkDoc φ)) : Except InsertError (List Hset) := do
  let commands ← batch.mapM (addToPipeline pack)
  return commands.filterMap id

/-- `pipeline.execute()`: the results of the commands, those that failed with a reason. No
    request is made for an empty pipeline. -/
def execute (outcome : RequestOutcome) (commands : List Hset) :
    Except InsertError (List (Option String)) :=
  match commands, outcome with
  | [], _ => .ok []
  | _, .raised _ error => .error error
  | commands, .answered failure => .ok (commands.mapIdx fun j _ => failure j)

/-- The loop of `insert_chunks`. A failure among the results is logged. -/
def pipelineBatches (client : Nat → RequestOutcome) : Nat → Database →
    List (List (ChunkDoc φ)) → Database × Except InsertError Unit
  | _, db, [] => (db, .ok ())
  | i, db, batch :: batches =>
      match pipelineOf pack batch with
      | .error e => (db, .error e)
      | .ok commands =>
          let db := writeAll db ((kept (client i).stored commands).flatMap Hset.cells)
          match execute (client i) commands with
          | .error e => (db, .error e)
          | .ok _ => pipelineBatches client (i + 1) db batches

def insertChunks (client : Nat → RequestOutcome) (docs : List (ChunkDoc φ)) (db : Database) :
    Database × Except InsertError Unit :=
  pipelineBatches pack client 0 db (batchesOf docs)

end Insert

end Redis

/-! ## Turns -/

/-- The error that a computation raises. -/
def errorOf {ε α : Type} : Except ε α → Option ε
  | .error e => some e
  | .ok _ => none

theorem errorOf_eq_none_iff {ε α : Type} {x : Except ε α} : errorOf x = none ↔ ∃ a, x = .ok a := by
  cases x with
  | error e => simp [errorOf]
  | ok a => simp [errorOf]

variable {φ : Type}

/-- The turn of a batch of `Elasticsearch.insertChunks`. -/
def Elasticsearch.turn (bulk : Nat → RequestOutcome) (i : Nat) (batch : List (ChunkDoc φ)) :
    Turn String (ChunkSource φ) InsertError :=
  match bulkOperations batch with
  | .error e => ⟨[], some e⟩
  | .ok operations => ⟨kept (bulk i).stored operations,
      errorOf ((bulkAnswer (bulk i) operations).bind (raiseOnBulkErrors · batch.length))⟩

theorem Elasticsearch.indexBatches_eq (bulk : Nat → RequestOutcome) (n : Nat) (index : Index φ)
    (batches : List (List (ChunkDoc φ))) :
    let r := run index (batches.mapIdx fun i => turn bulk (n + i))
    indexBatches bulk n index batches = (r.1, n + r.2.1, r.2.2) := by
  induction batches generalizing n index with
  | nil => rfl
  | cons batch batches ih =>
      have hshift : (fun i (batch : List (ChunkDoc φ)) => turn bulk (n + (i + 1)) batch) =
          fun i => turn bulk (n + 1 + i) :=
        funext fun i => by rw [Nat.add_assoc, Nat.add_comm 1 i]
      rw [List.mapIdx_cons, hshift, indexBatches]
      cases hops : bulkOperations batch with
      | error e => simp [run, turn, hops, writeAll]
      | ok operations =>
          cases hans : (bulkAnswer (bulk n) operations).bind
              (raiseOnBulkErrors · batch.length) with
          | error e => simp [run, turn, hops, hans, errorOf]
          | ok u =>
              simp [run, turn, hops, hans, errorOf, ih]
              omega

/-- The turn of a batch of `Redis.insertChunks`. -/
def Redis.turn (pack : φ → Option (List UInt8)) (client : Nat → RequestOutcome) (i : Nat)
    (batch : List (ChunkDoc φ)) : Turn (String × String) HashValue InsertError :=
  match pipelineOf pack batch with
  | .error e => ⟨[], some e⟩
  | .ok commands =>
      ⟨(kept (client i).stored commands).flatMap Hset.cells, errorOf (execute (client i) commands)⟩

theorem Redis.pipelineBatches_eq (pack : φ → Option (List UInt8)) (client : Nat → RequestOutcome)
    (n : Nat) (db : Database) (batches : List (List (ChunkDoc φ))) :
    let r := run db (batches.mapIdx fun i => turn pack client (n + i))
    pipelineBatches pack client n db batches = (r.1, r.2.2) := by
  induction batches generalizing n db with
  | nil => rfl
  | cons batch batches ih =>
      have hshift : (fun i => turn pack client (n + (i + 1))) =
          fun i => turn pack client (n + 1 + i) :=
        funext fun i => by rw [Nat.add_assoc, Nat.add_comm 1 i]
      rw [List.mapIdx_cons, hshift, pipelineBatches]
      cases hpipe : pipelineOf pack batch with
      | error e => simp [run, turn, hpipe, writeAll]
      | ok commands =>
          cases hexec : execute (client n) commands with
          | error e => simp [run, turn, hpipe, hexec, errorOf]
          | ok results => simp [run, turn, hpipe, hexec, errorOf, ih]

end RagParamsFinder
