/-
  The searches of a run: the retrievers of the four stores, the search helpers of
  `server/core/pipeline/search.py`, the dispatcher of `server/core/rerank/reranker.py` and the
  body of the query loop of `_run_single`.

  What an engine answers is outside this repository. A request carries the filter on the run's
  ids; the answer is a list of rows of the store, which the adapters turn into results. Postgres
  fuses in SQL: the joined rows are read from the same snapshot as the two candidate lists.
  The phase that a run writes before it reranks is modelled with the run.
-/
import RagParamsFinder.Retrieval.HybridSearch
import RagParamsFinder.Retrieval.Rerank
import RagParamsFinder.VectorStores.Layouts
import RagParamsFinder.VectorStores.RedisQuery

namespace RagParamsFinder

open BatchWrites Grouping Ranking

/-! ## Engines -/

/-- What a search asks of an engine, besides the filter. -/
inductive EngineQuery (φ : Type) where
  /-- Nearest neighbours in a vector field, out of so many candidates. -/
  | knn (field : String) (queryVector : List φ) (candidates : Int)
  | text (query : String)
  | tokens (tokens : List Text)
  deriving DecidableEq

structure EngineRequest (φ : Type) where
  query : EngineQuery φ
  scope : ChunkScope
  limit : Int
  attempt : Nat

/-- A row of an answer, with its score. -/
structure EngineHit (κ ν : Type) where
  key : κ
  row : ν
  score : Rat

/-- An engine; the error is what the client raises. -/
abbrev Engine (φ κ ν : Type) := EngineRequest φ → Except String (List (EngineHit κ ν))

inductive SearchError where
  | valueError (message : String)
  | keyError
  | engine (message : String)
  | embedding (message : String)
  | rerank (error : RerankError)
  deriving DecidableEq, Repr

def SearchError.ofInsertError : InsertError → SearchError
  | .valueError message => .valueError message
  | .keyError _ => .keyError
  | .overflowError => .valueError "overflow"
  | .bulkIndexError message => .engine message
  | .requestError message => .engine message

section Adapter

variable {φ κ ν : Type} (L : Layout φ κ ν) (engine : Engine φ κ ν)

/-- A result of `hits_to_results`, `_docs_to_results` and `_to_search_results`. -/
def resultOf (retrievalMethod : RetrievalMethod) (hit : EngineHit κ ν × Nat) :
    Except SearchError SearchResult :=
  match L.shown hit.1.key hit.1.row with
  | none => .error .keyError
  | some chunk => .ok {
      chunk := chunk
      denseScore := hit.1.score
      rerankScore := none
      retrievalMethod := retrievalMethod.value
      rank := hit.2 }

def toResults (retrievalMethod : RetrievalMethod) (hits : List (EngineHit κ ν)) :
    Except SearchError (List SearchResult) :=
  (hits.zipIdx 1).mapM (resultOf L retrievalMethod)

def ask (request : EngineRequest φ) : Except SearchError (List (EngineHit κ ν)) :=
  (engine request).mapError .engine

/-- The searches of a store. -/
structure Searcher (φ : Type) where
  dense : List φ → ChunkScope → Int → Except SearchError (List SearchResult)
  sparse : String → ChunkScope → Int → Except SearchError (List SearchResult)
  hybrid : String → List φ → ChunkScope → Int → Except SearchError (List SearchResult)

/-- `hybrid_search` of the stores that fuse on the client. -/
def fuseOnClient (dense : List φ → ChunkScope → Int → Except SearchError (List SearchResult))
    (sparse : String → ChunkScope → Int → Except SearchError (List SearchResult))
    (queryText : String) (queryEmbedding : List φ) (scope : ChunkScope) (topK : Int) :
    Except SearchError (List SearchResult) := do
  let denseResults ← dense queryEmbedding scope topK
  let sparseResults ← sparse queryText scope topK
  match rrfFuse denseResults sparseResults topK.toNat rrfK with
  | some merged => return merged
  | none => throw .keyError

end Adapter

/-- `search`: the dispatcher, the same in every store. -/
def Searcher.search {φ : Type} (s : Searcher φ) (method : RetrievalMethod) (queryText : String)
    (scope : ChunkScope) (topK : Int) (queryEmbedding : Option (List φ)) :
    Except SearchError (List SearchResult) :=
  match method, queryEmbedding with
  | .dense, none => .error (.valueError "query_embedding is required for dense search")
  | .dense, some queryEmbedding => s.dense queryEmbedding scope topK
  | .sparse, _ => s.sparse queryText scope topK
  | .hybrid, none => .error (.valueError "query_embedding is required for hybrid search")
  | .hybrid, some queryEmbedding => s.hybrid queryText queryEmbedding scope topK

/-! ## Elasticsearch -/

namespace Elasticsearch

variable {φ : Type} (engine : Engine φ String (ChunkSource φ))

def denseSearch (queryEmbedding : List φ) (scope : ChunkScope) (topK : Int) :
    Except SearchError (List SearchResult) := do
  (requireTopK topK).mapError .valueError
  let field ← (fieldForDims queryEmbedding.length).mapError .ofInsertError
  (requireEmbeddingModel scope.embeddingModel.toList).mapError .valueError
  let query := .knn field queryEmbedding (min (topK * candidatesMultiplier) 10000)
  let hits ← ask engine ⟨query, scope, topK, 1⟩
  toResults layout .dense hits

def sparseSearch (queryText : String) (scope : ChunkScope) (topK : Int) :
    Except SearchError (List SearchResult) := do
  (requireTopK topK).mapError .valueError
  (requireEmbeddingModel scope.embeddingModel.toList).mapError .valueError
  let hits ← ask engine ⟨.text queryText, scope, topK, 1⟩
  toResults layout .sparse hits

def searcher : Searcher φ :=
  ⟨denseSearch engine, sparseSearch engine, fuseOnClient (denseSearch engine) (sparseSearch engine)⟩

end Elasticsearch

/-! ## Redis -/

namespace Redis

variable {φ : Type} (globMatches : String → String → Bool) (pack : φ → Option (List UInt8))
  (engine : Engine φ String (List (String × HashValue)))

def denseSearch (queryEmbedding : List φ) (scope : ChunkScope) (topK : Int) :
    Except SearchError (List SearchResult) := do
  (requireTopK topK).mapError .valueError
  let field ← (fieldForDims queryEmbedding.length).mapError .ofInsertError
  (requireEmbeddingModel scope.embeddingModel.toList).mapError .valueError
  let hits ← ask engine ⟨.knn field queryEmbedding (topK * candidatesMultiplier), scope, topK, 1⟩
  toResults (layout globMatches pack) .dense hits

/-- No request is made for a text without tokens. -/
def sparseSearch (queryText : String) (scope : ChunkScope) (topK : Int) :
    Except SearchError (List SearchResult) := do
  (requireTopK topK).mapError .valueError
  (requireEmbeddingModel scope.embeddingModel.toList).mapError .valueError
  let tokens := (Text.split queryText.toList).filter fun t => t.strip ≠ []
  if tokens = [] then return []
  let hits ← ask engine ⟨.tokens tokens, scope, topK, 1⟩
  toResults (layout globMatches pack) .sparse hits

def searcher : Searcher φ :=
  ⟨denseSearch globMatches pack engine, sparseSearch globMatches pack engine,
    fuseOnClient (denseSearch globMatches pack engine) (sparseSearch globMatches pack engine)⟩

end Redis

/-! ## MongoDB -/

namespace Mongo

/-- `_SPARSE_INDEX_RETRY_ATTEMPTS`. -/
def sparseIndexRetryAttempts : Nat := 3

variable {φ : Type} (objectId : ChunkDoc φ → String) (engine : Engine φ String (ChunkDoc φ))

def denseSearch (queryEmbedding : List φ) (scope : ChunkScope) (topK : Int) :
    Except SearchError (List SearchResult) := do
  let hits ← ask engine
    ⟨.knn "embedding" queryEmbedding (topK * candidatesMultiplier), scope, topK, 1⟩
  toResults (layout objectId) .dense hits

/-- The attempts of `sparse_search`, until one has hits. -/
def sparseAttempts (queryText : String) (scope : ChunkScope) (topK : Int) : Nat → Nat →
    Except SearchError (List (EngineHit String (ChunkDoc φ)))
  | 0, _ => .ok []
  | left + 1, attempt => do
      let hits ← ask engine ⟨.text queryText, scope, topK, attempt⟩
      if hits.isEmpty then sparseAttempts queryText scope topK left (attempt + 1) else return hits

def sparseSearch (queryText : String) (scope : ChunkScope) (topK : Int) :
    Except SearchError (List SearchResult) := do
  let hits ← sparseAttempts engine queryText scope topK sparseIndexRetryAttempts 1
  toResults (layout objectId) .sparse hits

def searcher : Searcher φ :=
  ⟨denseSearch objectId engine, sparseSearch objectId engine,
    fuseOnClient (denseSearch objectId engine) (sparseSearch objectId engine)⟩

end Mongo

/-! ## Postgres -/

namespace Postgres

/-- `_require_embedding_model`. -/
def requireEmbeddingModelFor (embeddingModel context : String) : Except SearchError Unit :=
  if embeddingModel = "" then
    .error (.valueError (s!"embedding_model is required for {context} — chunks from different " ++
      "models share one table and must never be compared"))
  else .ok ()

variable {φ : Type}

/-- The snapshot of a hybrid query, the two candidate lists in the order of their ranks, and the
    order in which the joined rows come to the last sort. -/
structure HybridSnapshot (φ : Type) where
  chunks : Cells String (ChunkRow φ)
  fullText : List (EngineHit String (ChunkRow φ))
  semantic : List (EngineHit String (ChunkRow φ))
  arrange : List (JoinedRow × ChunkRow φ) → List (JoinedRow × ChunkRow φ)

/-- The two lists joined, and joined with `chunks` on the chunk id. -/
def HybridSnapshot.joined (s : HybridSnapshot φ) : List (JoinedRow × ChunkRow φ) :=
  (fullOuterJoin ((s.fullText.map (·.key)).zipIdx 1) ((s.semantic.map (·.key)).zipIdx 1)).filterMap
    fun row => (s.chunks row.chunkId).map fun c => (row, c)

/-- The rows of `_hybrid_query`, with the default weights. -/
def HybridSnapshot.rows (s : HybridSnapshot φ) (topK : Nat) :
    List (EngineHit String (ChunkRow φ)) :=
  (best (fun rc : JoinedRow × ChunkRow φ => -rc.1.score rrfK 1 1) topK (s.arrange s.joined)).map
    fun rc => ⟨rc.2.chunkId, rc.2, rc.1.score rrfK 1 1⟩

variable (engine : Engine φ String (ChunkRow φ))
  (hybridEngine : String → EngineRequest φ → Except String (HybridSnapshot φ))

def denseSearch (queryEmbedding : List φ) (scope : ChunkScope) (topK : Int) :
    Except SearchError (List SearchResult) := do
  requireEmbeddingModelFor scope.embeddingModel "dense search"
  let vectorColumn ← (vectorColumnFor queryEmbedding.length).mapError .ofInsertError
  let hits ← ask engine ⟨.knn vectorColumn queryEmbedding topK, scope, topK, 1⟩
  toResults layout .dense hits

def sparseSearch (queryText : String) (scope : ChunkScope) (topK : Int) :
    Except SearchError (List SearchResult) := do
  requireEmbeddingModelFor scope.embeddingModel "sparse search"
  let hits ← ask engine ⟨.text queryText, scope, topK, 1⟩
  toResults layout .sparse hits

def hybridSearch (queryText : String) (queryEmbedding : List φ) (scope : ChunkScope)
    (topK : Int) : Except SearchError (List SearchResult) := do
  requireEmbeddingModelFor scope.embeddingModel "hybrid search"
  let vectorColumn ← (vectorColumnFor queryEmbedding.length).mapError .ofInsertError
  let limit := max (topK * candidatesMultiplier) topK
  let request := ⟨.knn vectorColumn queryEmbedding limit, scope, limit, 1⟩
  let snapshot ← (hybridEngine queryText request).mapError .engine
  toResults layout .hybrid (snapshot.rows topK.toNat)

def searcher : Searcher φ := ⟨denseSearch engine, sparseSearch engine, hybridSearch hybridEngine⟩

end Postgres

/-! ## Reranking -/

/-- How many of `n` entries `[:stop]` keeps. -/
def keptOf (stop : Int) (n : Nat) : Nat := if 0 ≤ stop then stop.toNat else (n + stop).toNat

/-- `xs[:stop]`. -/
def sliceTo {α : Type} (xs : List α) (stop : Int) : List α := xs.take (keptOf stop xs.length)

/-- The models and services that rerank. Voyage answers with positions and scores. -/
structure Rerankers where
  predict : String → List (String × String) → Except String (List Rat)
  sieClient : String → String → List String → Except SieFailure SieAnswer
  voyage : String → List String → String → Int → Except String (List (Int × Rat))

/-- `xs[i]`, counted from the end for a negative index. -/
def pyGet? {α : Type} (xs : List α) (i : Int) : Option α :=
  if 0 ≤ i then xs[i.toNat]? else if 0 ≤ xs.length + i then xs[(xs.length + i).toNat]? else none

/-- A result of `_rerank_voyage`. -/
def voyageHit (searchResults : List SearchResult) (hit : (Int × Rat) × Nat) :
    Except RerankError SearchResult :=
  match pyGet? searchResults hit.1.1 with
  | some original => .ok { original with rerankScore := some hit.1.2, rank := hit.2 }
  | none => .error .noCandidate

/-- `_rerank_voyage`. -/
def rerankVoyage (voyage : String → List String → String → Int → Except String (List (Int × Rat)))
    (query : String) (searchResults : List SearchResult) (model : String) (topK : Int) :
    Except RerankError (List SearchResult) := do
  let documents := searchResults.map fun r => r.chunk.text
  let results ← (voyage query documents model topK).mapError .crossEncoder
  (results.zipIdx 1).mapM (voyageHit searchResults)

/-- `rerank_results`. -/
def rerankResults (r : Rerankers) (query : String) (searchResults : List SearchResult)
    (model : String) (topK : Int) (provider : Provider) :
    Except RerankError (List SearchResult) :=
  if searchResults = [] then .ok []
  else
    let kept := keptOf topK searchResults.length
    match provider with
    | .localProvider => rerankLocal r.predict query searchResults model kept
    | .sie => rerankSie r.sieClient query searchResults model kept
    | .voyage | .kimchi | .doubleword => rerankVoyage r.voyage query searchResults model topK

/-! ## A query of a run -/

/-- What the query loop uses: the store's searches, the query embedder and the rerankers. -/
structure QueryTools (φ : Type) where
  searcher : Searcher φ
  embedQuery : String → Except SearchError (List φ)
  rerankers : Rerankers

section Query

variable {φ : Type} (tools : QueryTools φ) (params : RunParams) (scope : ChunkScope)

/-- `_primary_retriever`. -/
def Search.primaryRetriever : Except SearchError RetrieverConfig :=
  match params.retrievers with
  | [] => .error (.valueError "Run has no retriever configured")
  | retriever :: _ => .ok retriever

/-- The query is embedded for a dense or a hybrid search. -/
def queryEmbeddingFor (method : RetrievalMethod) (queryText : String) :
    Except SearchError (Option (List φ)) :=
  match method with
  | .sparse => .ok none
  | .dense | .hybrid => (tools.embedQuery queryText).map some

/-- `_search_traditional_retriever`, without a query embedding from before. -/
def searchTraditionalRetriever (method : RetrievalMethod) (queryText : String) (topK : Int) :
    Except SearchError (List SearchResult) := do
  let queryEmbedding ← queryEmbeddingFor tools method queryText
  tools.searcher.search method queryText scope topK queryEmbedding

/-- `_search_reranker_retriever`. -/
def searchRerankerRetriever (retriever : RetrieverConfig) (queryText : String) :
    Except SearchError (List SearchResult) :=
  match retriever.provider, retriever.model with
  | some provider, some model =>
      if model = "" then
        .error (.valueError s!"Reranker {retriever.type.value} missing provider or model")
      else do
        let candidates ← searchTraditionalRetriever tools scope .dense queryText params.topKInitial
        if candidates = [] then return []
        (rerankResults tools.rerankers queryText candidates model params.topKFinal
          provider).mapError .rerank
  | _, _ => .error (.valueError s!"Reranker {retriever.type.value} missing provider or model")

/-- The results of a query that `_run_single` records. -/
def queryResults (queryText : String) : Except SearchError (List SearchResult) := do
  let retriever ← Search.primaryRetriever params
  match retriever.type with
  | .dense => return sliceTo (← searchTraditionalRetriever tools scope .dense queryText
      params.topKInitial) params.topKFinal
  | .sparse => return sliceTo (← searchTraditionalRetriever tools scope .sparse queryText
      params.topKInitial) params.topKFinal
  | .hybrid => return sliceTo (← searchTraditionalRetriever tools scope .hybrid queryText
      params.topKInitial) params.topKFinal
  | .reranker | .crossEncoder => searchRerankerRetriever tools params scope retriever queryText

end Query

end RagParamsFinder
