/-
  The chunk documents that `_run_single` of `server/core/pipeline/orchestrator.py` stores for a
  run.

  Experiment and run ids are `str(uuid.uuid4())`: lower-case hexadecimal digits and dashes. A
  chunk's id is its run's id and its position, `f"{run_id}_{i}"`.

  Proved: `chunkId_inj`: a chunk id tells both, whatever the run id looks like.
  `chunkDocs_spec`: what the documents of a run are.
-/
import RagParamsFinder.Lib.Delimited
import RagParamsFinder.Models.Config
import RagParamsFinder.VectorStores.InsertChunks

namespace RagParamsFinder

open Delimited

/-! ## Ids -/

/-- The characters of `str(uuid.uuid4())`. -/
def uuidChars : List Char := "0123456789abcdef-".toList

def IsUuid (id : String) : Prop := ∀ c ∈ id.toList, c ∈ uuidChars

instance (id : String) : Decidable (IsUuid id) :=
  List.decidableBAll _ id.toList

theorem IsUuid.not_mem {id : String} (h : IsUuid id) {c : Char} (hc : c ∉ uuidChars) :
    c ∉ id.toList := fun hmem => hc (h c hmem)

/-- `f"{run_id}_{i}"`. -/
def chunkIdOf (runId : String) (i : Nat) : String := s!"{runId}_{i}"

theorem toList_chunkIdOf (runId : String) (i : Nat) :
    (chunkIdOf runId i).toList = runId.toList ++ '_' :: Nat.toDigits 10 i := by
  have hdigits : (toString i).toList = Nat.toDigits 10 i := by
    rw [Nat.toString_eq_repr, Nat.repr_eq_ofList_toDigits, String.toList_ofList]
  change (runId ++ "_" ++ toString i).toList = _
  rw [String.toList_append, String.toList_append, hdigits, List.append_assoc]
  rfl

theorem chunkId_inj {r r' : String} {i i' : Nat} (h : chunkIdOf r i = chunkIdOf r' i') :
    r = r' ∧ i = i' := by
  have hlist := congrArg String.toList h
  rw [toList_chunkIdOf, toList_chunkIdOf] at hlist
  obtain ⟨hr, hi⟩ := underscore_toDigits_inj hlist
  exact ⟨String.toList_injective hr, hi⟩

/-! ## Runs -/

/-- A run of the pipeline once its text is chunked and embedded. -/
structure ChunkedRun (φ : Type) where
  experimentId : String
  runId : String
  params : RunParams
  chunks : List String
  embeddings : List (List φ)
  experiment_uuid : IsUuid experimentId
  run_uuid : IsUuid runId

namespace ChunkedRun

variable {φ : Type} (r : ChunkedRun φ)

/-- `params.embedding_model`. -/
def embeddingModel : String := r.params.embeddingModel.name

/-- `params.chunking_method.value`. -/
def chunkMethod : String := r.params.chunkingMethod.value

/-- One entry of `chunk_docs`. -/
def chunkDoc (i : Nat) (chunk : String) (emb : List φ) : ChunkDoc φ where
  chunkId := some (chunkIdOf r.runId i)
  experimentId := some r.experimentId
  runId := some r.runId
  text := some chunk
  index := some i
  embedding := some emb
  embeddingModel := some r.embeddingModel
  chunkMethod := some r.chunkMethod
  chunkingMethod := none
  chunkSize := some r.params.chunkSize
  overlap := some r.params.overlap
  padding := some r.params.padding

/-- `chunk_docs`: `zip` stops with the shorter list. -/
def chunkDocs : List (ChunkDoc φ) :=
  (r.chunks.zip r.embeddings).mapIdx fun i ce => r.chunkDoc i ce.1 ce.2

/-- A document of a run at a position. -/
structure IsDoc (i : Nat) (doc : ChunkDoc φ) : Prop where
  chunk : ∃ chunk emb, r.chunks[i]? = some chunk ∧ r.embeddings[i]? = some emb ∧
    doc = r.chunkDoc i chunk emb

theorem chunkDocs_spec (i : Nat) (doc : ChunkDoc φ) :
    r.chunkDocs[i]? = some doc ↔ r.IsDoc i doc := by
  rw [chunkDocs, List.getElem?_mapIdx, Option.map_eq_some_iff]
  constructor
  · rintro ⟨⟨chunk, emb⟩, hzip, rfl⟩
    obtain ⟨hchunk, hemb⟩ := List.getElem?_zip_eq_some.mp hzip
    exact ⟨chunk, emb, hchunk, hemb, rfl⟩
  · rintro ⟨chunk, emb, hchunk, hemb, rfl⟩
    exact ⟨(chunk, emb), List.getElem?_zip_eq_some.mpr ⟨hchunk, hemb⟩, rfl⟩

variable {r} in
theorem isDoc_unique {i : Nat} {doc doc' : ChunkDoc φ} (h : r.IsDoc i doc)
    (h' : r.IsDoc i doc') : doc = doc' :=
  Option.some.inj (((r.chunkDocs_spec i doc).mpr h).symm.trans ((r.chunkDocs_spec i doc').mpr h'))

theorem mem_chunkDocs {doc : ChunkDoc φ} : doc ∈ r.chunkDocs ↔ ∃ i, r.IsDoc i doc := by
  rw [List.mem_iff_getElem?]
  exact exists_congr fun i => r.chunkDocs_spec i doc

end ChunkedRun

/-- The runs of a server, in all its experiments: no run id is given twice. -/
structure Fleet (φ ω : Type) where
  run : ω → ChunkedRun φ
  distinct : Function.Injective fun w => (run w).runId

/-- Of two documents with one chunk id, run and position are the same. -/
theorem Fleet.doc_unique {φ ω : Type} (fleet : Fleet φ ω) {w w' : ω} {i i' : Nat}
    {doc doc' : ChunkDoc φ} (h : (fleet.run w).IsDoc i doc) (h' : (fleet.run w').IsDoc i' doc')
    (hid : doc.chunkId = doc'.chunkId) : w = w' ∧ i = i' ∧ doc = doc' := by
  obtain ⟨⟨chunk, emb, hchunk, hemb, rfl⟩⟩ := h
  obtain ⟨⟨chunk', emb', hchunk', hemb', rfl⟩⟩ := h'
  obtain ⟨hrun, rfl⟩ := chunkId_inj (Option.some.inj hid)
  obtain rfl := fleet.distinct hrun
  rw [hchunk] at hchunk'
  rw [hemb] at hemb'
  cases hchunk'
  cases hemb'
  exact ⟨rfl, rfl, rfl⟩

end RagParamsFinder
