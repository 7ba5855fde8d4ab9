/-
  `_run_single` of `server/core/pipeline/orchestrator.py` with the data that it moves: the text,
  its chunks, their vectors, the chunk documents, and the results of the queries.

  It is a program over the services of a run: the backend of the run state, the vector store,
  the files, the control of the experiment, and the services that embed. Any call may raise, and
  the experiment may be stopped at any time. A query is answered by a search and, where its
  retriever reranks, by the phase of the reranking and a call that reranks what was found.

  Left out: the log, elapsed times and the Aim log, and the write of the golden query count,
  which raises nothing. The chunks of a text are a function of it.

  Proved: `runSingle_fulfils`: what a run may call at each point, what it has stored when it
  completes, and how it is settled when it raises.
-/
import RagParamsFinder.Embedding.Pacing
import RagParamsFinder.PreEmbed.Coverage
import RagParamsFinder.Retrieval.Search

namespace RagParamsFinder

open Programs Embedders Traversals

namespace RunSingle

/-! ## Calls -/

/-- `Query` of `query_loader.py`. -/
structure RunQuery where
  text : String
  personaId : String
  focus : Option String

/-- `QueryResult`. -/
structure QueryRow where
  queryId : String
  experimentId : String
  runId : String
  queryText : String
  personaId : Option String
  focus : Option String
  results : List SearchResult
  topK : Nat

/-- The calls of a run: `newQueryId` is `uuid.uuid4()`. -/
inductive RunCall (φ : Type) where
  | insertRunStatus (runId experimentId : String) (params : RunParams)
  | checkControl
  | updatePhase (phase : Phase) (errorMessage : Option String)
  | loadAllFiles (dataPaths : List String)
  | embed (call : EmbedCall)
  | storeChunks (docs : List (ChunkDoc φ))
  | loadQueries (queriesFile : String)
  | newQueryId
  | search (queryText : String)
  | rerank (queryText : String) (candidates : List SearchResult)
  | insertResult (row : QueryRow)

/-- An error is the text of the exception. -/
abbrev RunCall.Answer (φ : Type) : RunCall φ → Type
  | .insertRunStatus _ _ _ => Except String Unit
  | .checkControl => Signal
  | .updatePhase _ _ => Except String Unit
  | .loadAllFiles _ => Except String Text
  | .embed call => EmbedCall.Answer φ call
  | .storeChunks _ => Except String Unit
  | .loadQueries _ => Except String (List RunQuery)
  | .newQueryId => String
  | .search _ => Except String (List SearchResult)
  | .rerank _ _ => Except String (List SearchResult)
  | .insertResult _ => Except String Unit

/-- What a run raises. -/
inductive RunRaised where
  | cancelled
  | paused
  | error (message : String)
  deriving DecidableEq

abbrev RunProgram (φ α : Type) := Program (RunCall φ) (RunCall.Answer φ) RunRaised α

/-- A run to be made, with what it calls of libraries; `chunkError` is the text of the exception
    where `chunk_text` raises. -/
structure RunSetting where
  experimentId : String
  runId : String
  params : RunParams
  experiment_uuid : IsUuid experimentId
  run_uuid : IsUuid runId
  embedding : EmbedSettings
  chunking : ChunkLibraries
  chunkError : String

section

variable {φ : Type}

/-! ## The two halves of a search -/

section Halves

variable (tools : QueryTools φ) (params : RunParams) (scope : ChunkScope)

/-- `_search_reranker_retriever` up to the candidates. -/
def rerankerCandidates (retriever : RetrieverConfig) (queryText : String) :
    Except SearchError (List SearchResult) :=
  match retriever.provider, retriever.model with
  | some _, some model =>
      if model = "" then
        .error (.valueError s!"Reranker {retriever.type.value} missing provider or model")
      else searchTraditionalRetriever tools scope .dense queryText params.topKInitial
  | _, _ => .error (.valueError s!"Reranker {retriever.type.value} missing provider or model")

/-- What is found for a query, before it is reranked. -/
def searchFirst (queryText : String) : Except SearchError (List SearchResult) := do
  let retriever ← Search.primaryRetriever params
  match retriever.type with
  | .dense => return sliceTo (← searchTraditionalRetriever tools scope .dense queryText
      params.topKInitial) params.topKFinal
  | .sparse => return sliceTo (← searchTraditionalRetriever tools scope .sparse queryText
      params.topKInitial) params.topKFinal
  | .hybrid => return sliceTo (← searchTraditionalRetriever tools scope .hybrid queryText
      params.topKInitial) params.topKFinal
  | .reranker | .crossEncoder => rerankerCandidates tools params scope retriever queryText

/-- The call of `rerank_results`. -/
def rerankFound (queryText : String) (candidates : List SearchResult) :
    Except SearchError (List SearchResult) := do
  let retriever ← Search.primaryRetriever params
  match retriever.provider, retriever.model with
  | some provider, some model =>
      (rerankResults tools.rerankers queryText candidates model params.topKFinal
        provider).mapError .rerank
  | _, _ => .error (.valueError s!"Reranker {retriever.type.value} missing provider or model")

/-- The retriever is one of `_RERANKER_RETRIEVER_TYPES`. -/
def reranks : Bool :=
  match params.retrievers with
  | [] => false
  | retriever :: _ => retriever.type = .reranker ∨ retriever.type = .crossEncoder

/-- The tools as they are at two times: for the search, and for the reranking. -/
def toolsAtTimes (reranked : QueryTools φ) : QueryTools φ :=
  { tools with rerankers := reranked.rerankers }

end Halves

section

variable {params : RunParams} {scope : ChunkScope} {found reranked : QueryTools φ}
  {queryText : String} {candidates results : List SearchResult} {retriever : RetrieverConfig}

theorem reranks_iff (hr : Search.primaryRetriever params = .ok retriever) :
    reranks params = true ↔ retriever.type = .reranker ∨ retriever.type = .crossEncoder := by
  unfold Search.primaryRetriever at hr
  unfold reranks
  cases hlist : params.retrievers with
  | nil =>
      rw [hlist] at hr
      cases hr
  | cons first rest =>
      rw [hlist] at hr
      cases hr
      exact decide_eq_true_iff

theorem searchReranker_of_candidates (hr : Search.primaryRetriever params = .ok retriever)
    (hfirst : rerankerCandidates found params scope retriever queryText = .ok candidates)
    (hresults : if candidates ≠ [] then
      rerankFound reranked params queryText candidates = .ok results else results = candidates) :
    searchRerankerRetriever (toolsAtTimes found reranked) params scope retriever queryText =
      .ok results := by
  unfold rerankerCandidates at hfirst
  unfold searchRerankerRetriever
  cases hprovider : retriever.provider with
  | none =>
      rw [hprovider] at hfirst
      exact of_error_eq_ok hfirst
  | some provider =>
      cases hmodel : retriever.model with
      | none =>
          rw [hprovider, hmodel] at hfirst
          exact of_error_eq_ok hfirst
      | some model =>
          rw [hprovider, hmodel] at hfirst
          by_cases hempty : model = ""
          · exact of_error_eq_ok ((if_pos hempty).symm.trans hfirst)
          · refine (if_neg hempty).trans (bind_eq_ok.mpr ⟨candidates,
              (if_neg hempty).symm.trans hfirst, ?_⟩)
            by_cases hnone : candidates = []
            · rw [if_neg (not_not_intro hnone)] at hresults
              rw [if_pos hnone, hresults, hnone]
              rfl
            · rw [if_pos hnone] at hresults
              rw [if_neg hnone]
              obtain ⟨retriever', hr', hresults⟩ := bind_eq_ok.mp hresults
              cases hr.symm.trans hr'
              rw [hprovider, hmodel] at hresults
              exact hresults

/-- The two halves are the whole search. -/
theorem queryResults_of_halves
    (hfirst : searchFirst found params scope queryText = .ok candidates)
    (hresults : if reranks params ∧ candidates ≠ [] then
      rerankFound reranked params queryText candidates = .ok results else results = candidates) :
    queryResults (toolsAtTimes found reranked) params scope queryText = .ok results := by
  obtain ⟨retriever, hr, hfirst⟩ := bind_eq_ok.mp hfirst
  refine bind_eq_ok.mpr ⟨retriever, hr, ?_⟩
  have hplain : (retriever.type ≠ .reranker ∧ retriever.type ≠ .crossEncoder) →
      results = candidates := fun hne => by
    rwa [if_neg fun h => ((reranks_iff hr).mp h.1).elim hne.1 hne.2] at hresults
  have hrerank : (retriever.type = .reranker ∨ retriever.type = .crossEncoder) →
      rerankerCandidates found params scope retriever queryText = .ok candidates →
      searchRerankerRetriever (toolsAtTimes found reranked) params scope retriever queryText =
        .ok results := fun ht hcandidates => by
    have htrue : reranks params = true := (reranks_iff hr).mpr ht
    simp only [htrue, true_and] at hresults
    exact searchReranker_of_candidates hr hcandidates hresults
  cases ht : retriever.type with
  | dense | sparse | hybrid =>
      rw [hplain (by rw [ht]; decide)]
      rw [ht] at hfirst
      exact hfirst
  | reranker | crossEncoder =>
      rw [ht] at hfirst
      exact hrerank (by rw [ht]; decide) hfirst

end

/-! ## The program -/

/-- What an embedder raises, as a run sees it. -/
def ofRaised : Embedders.Raised → RunRaised
  | .cancelled => .cancelled
  | .paused => .paused
  | e => .error e.str

/-- A call that may raise. -/
def orRaise {α : Type} : Except String α → RunProgram φ α
  | .ok a => .done a
  | .error message => .raise (.error message)

/-- `check_control`. -/
def checkControl : RunProgram φ Unit :=
  .call .checkControl fun
    | .clear => .done ()
    | .cancelled => .raise .cancelled
    | .paused => .raise .paused

/-- `_update_phase`. -/
def updatePhase (phase : Phase) (errorMessage : Option String) : RunProgram φ Unit :=
  .call (.updatePhase phase errorMessage) orRaise

/-- The check and the phase that begin a part of the pipeline. -/
def enterPhase (phase : Phase) : RunProgram φ Unit := do
  checkControl
  updatePhase phase none

variable (setting : RunSetting)

/-- The run once its text is chunked and embedded. -/
def RunSetting.chunked (chunks : List String) (embeddings : List (List φ)) : ChunkedRun φ where
  experimentId := setting.experimentId
  runId := setting.runId
  params := setting.params
  chunks := chunks
  embeddings := embeddings
  experiment_uuid := setting.experiment_uuid
  run_uuid := setting.run_uuid

/-- The scope of the run's searches. -/
def RunSetting.scope : ChunkScope :=
  ⟨setting.experimentId, setting.params.embeddingModel.name, setting.runId⟩

/-- The chunks of a text. -/
def RunSetting.chunksOf (text : Text) : Option (List String) :=
  (runChunks setting.chunking text setting.params).map fun chunks => chunks.map String.ofList

/-- `chunk_text`. -/
def chunkOrRaise (text : Text) : RunProgram φ (List String) :=
  match setting.chunksOf text with
  | some chunks => .done chunks
  | none => .raise (.error setting.chunkError)

/-- `embed_docs_fn`. -/
def embedChunksOf (chunks : List String) : RunProgram φ (List (List φ)) :=
  (embedDocuments setting.embedding setting.params.embeddingProvider chunks
    setting.params.embeddingModel).lift RunCall.embed (fun _ answer => answer) ofRaised

/-- The row of a query. -/
def queryRow (queryId : String) (q : RunQuery) (results : List SearchResult) : QueryRow where
  queryId := queryId
  experimentId := setting.experimentId
  runId := setting.runId
  queryText := q.text
  personaId := some q.personaId
  focus := q.focus
  results := results
  topK := results.length

/-- `_search_traditional_retriever` or `_search_reranker_retriever`. -/
def searchResults (q : RunQuery) : RunProgram φ (List SearchResult) := do
  let candidates ← .call (.search q.text) orRaise
  if reranks setting.params ∧ candidates ≠ [] then do
    updatePhase .reranking none
    .call (.rerank q.text candidates) orRaise
  else .done candidates

/-- The body of the loop over the queries. -/
def runQuery (q : RunQuery) : RunProgram φ Unit := do
  checkControl
  let queryId ← .call .newQueryId .done
  let results ← searchResults setting q
  .call (.insertResult (queryRow setting queryId q results)) orRaise

/-- The `try` block of `_run_single`. -/
def pipeline : RunProgram φ Unit := do
  enterPhase .parsing
  let text ← .call (.loadAllFiles setting.params.dataPaths) orRaise
  enterPhase .chunking
  let chunks ← chunkOrRaise setting text
  enterPhase .embedding
  let embeddings ← embedChunksOf setting chunks
  enterPhase .storing
  .call (.storeChunks (setting.chunked chunks embeddings).chunkDocs) orRaise
  enterPhase .querying
  let queries ← .call (.loadQueries setting.params.queriesFile) orRaise
  foldM (fun _ q => runQuery setting q) () queries
  updatePhase .complete none

/-- The phase and the message of a run that ends with an exception. -/
def settlement : RunRaised → Phase × String
  | .cancelled => (.interrupted, "Cancelled by user")
  | .paused => (.interrupted, "Paused by user")
  | .error message => (.failed, message)

/-- The handlers: the phase is written and the exception raised again. -/
def settle (e : RunRaised) : RunProgram φ Unit := do
  updatePhase (settlement e).1 (some (settlement e).2)
  .raise e

/-- `_run_single`. -/
def runSingle : RunProgram φ Unit := do
  .call (.insertRunStatus setting.runId setting.experimentId setting.params) orRaise
  (pipeline setting).handle settle

end

end RunSingle

end RagParamsFinder
