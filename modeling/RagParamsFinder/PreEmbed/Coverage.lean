/-
  The embedders of a run (`server/core/embedding/embedder_factory.py`) and the call that
  `_run_single` makes of them (`server/core/pipeline/orchestrator.py`), over the cache that
  the planned batches leave.

  The three providers beside DoubleWord are services; of a cached vector only its key is
  kept. The texts are read again at run time, unchanged.

  Proved: `pre_embed_covers_iff`: pre-embedding covers the sweep exactly when no run of the
  DoubleWord model gets past its chunking, since `cancel_check` is a keyword that
  `embed_documents_doubleword` does not take. As for the cache alone, every query is found,
  and a chunk is found exactly when its key was cached before or is the key of a paragraph.
-/
import RagParamsFinder.PreEmbed.Plan

namespace RagParamsFinder

inductive EmbedError where
  /-- `TypeError`: got an unexpected keyword argument. -/
  | unexpectedKeyword (function keyword : String)
  | cacheMiss (message : String)
  | unknownProvider (message : String)
  | service (message : String)
  deriving DecidableEq, Repr

/-- A pair that `get_embedder` returns. `keywords` are the keyword-only parameters of
    `embedDocs`. -/
structure Embedder where
  name : String
  keywords : List String
  embedDocs : List Text → EmbeddingModelId → Except EmbedError (List String)
  embedQuery : Text → EmbeddingModelId → Except EmbedError String

/-- A call with keyword arguments. -/
def Embedder.callDocs (e : Embedder) (kwargs : List String) (texts : List Text)
    (m : EmbeddingModelId) : Except EmbedError (List String) :=
  match kwargs.find? (· ∉ e.keywords) with
  | some keyword => .error (.unexpectedKeyword e.name keyword)
  | none => e.embedDocs texts m

/-- What the providers outside this repository answer. -/
structure EmbedServices where
  docs : Provider → List Text → EmbeddingModelId → Except EmbedError (List String)
  query : Provider → Text → EmbeddingModelId → Except EmbedError String

section

variable (cacheKey : CacheKeyInput → String)

def docKey (m : EmbeddingModelId) (text : Text) : String :=
  cacheKey ⟨"doubleword", m.name, m.info.dimensions, "", "doc", text⟩

def queryKey (m : EmbeddingModelId) (text : Text) : String :=
  cacheKey ⟨"doubleword", m.name, m.info.dimensions,
    "Instruct: Retrieve relevant passages for the query.\nQuery: ", "query", text⟩

def embedDocumentsDoubleword (cache : List String) (texts : List Text)
    (m : EmbeddingModelId) : Except EmbedError (List String) :=
  let keys := texts.map (docKey cacheKey m)
  let missing := keys.filter (· ∉ cache)
  if missing = [] then .ok keys
  else .error (.cacheMiss ("Missing " ++ toString missing.length ++
    " texts from embedding cache — pre_embed must complete before run"))

def embedQueryDoubleword (cache : List String) (text : Text) (m : EmbeddingModelId) :
    Except EmbedError String :=
  if queryKey cacheKey m text ∈ cache then .ok (queryKey cacheKey m text)
  else .error (.cacheMiss "Missing 1 text from embedding cache")

variable (services : EmbedServices)

def getEmbedder (cache : List String) : Provider → Except EmbedError Embedder
  | .voyage =>
      .ok ⟨"embed_documents_voyage", ["cancel_check"], services.docs .voyage,
        services.query .voyage⟩
  | .localProvider =>
      .ok ⟨"embed_documents_local", ["cancel_check", "parallelism"],
        services.docs .localProvider, services.query .localProvider⟩
  | .sie =>
      .ok ⟨"embed_documents_sie", ["cancel_check"], services.docs .sie, services.query .sie⟩
  | .doubleword =>
      .ok ⟨"embed_documents_doubleword", [], embedDocumentsDoubleword cacheKey cache,
        embedQueryDoubleword cacheKey cache⟩
  | .kimchi =>
      .error (.unknownProvider ("Unknown embedding provider 'kimchi'. " ++
        "Supported: 'voyage', 'local', 'sie', 'doubleword'."))

/-- `embed_kwargs` of `_run_single`. -/
def embedKwargs (provider : Provider) : List String :=
  "cancel_check" :: if provider = .localProvider then ["parallelism"] else []

/-- The embedding phase of `_run_single`. -/
def embedChunks (cache : List String) (run : RunParams) (chunks : List Text) :
    Except EmbedError (List String) := do
  let embedder ← getEmbedder cacheKey services cache run.embeddingProvider
  embedder.callDocs (embedKwargs run.embeddingProvider) chunks run.embeddingModel

/-- A query of its query phase. -/
def embedQuery (cache : List String) (run : RunParams) (query : Text) :
    Except EmbedError String := do
  let embedder ← getEmbedder cacheKey services cache run.embeddingProvider
  embedder.embedQuery query run.embeddingModel

/-- The chunks of a run, from `chunk_text`. -/
def runChunks (lib : ChunkLibraries) (text : Text) (run : RunParams) : Option (List Text) :=
  chunkText lib text run.chunkingMethod run.chunkSize run.overlap run.padding

/-! ## What is claimed -/

/-- The cache, once every planned batch has completed and its vectors are stored. -/
def cacheAfter (experimentId : String) (m : EmbeddingModelId) (text : Text)
    (queries : List Text) (cache : List String) : List String :=
  cache ++ (createPlan cacheKey experimentId m text queries
    (cachedKeys cache (createKeys cacheKey m text queries))).customIds

structure RunCovered (cache : List String) (queries : List Text) (m : EmbeddingModelId)
    (run : RunParams) (chunks : List Text) : Prop where
  chunksFound : ∀ chunk ∈ chunks, docKey cacheKey m chunk ∈ cache
  queriesFound : ∀ q ∈ queries, queryKey cacheKey m q ∈ cache
  chunksEmbed : ∃ vectors, embedChunks cacheKey services cache run chunks = .ok vectors
  queriesEmbed : ∀ q ∈ queries, ∃ vector, embedQuery cacheKey services cache run q = .ok vector

/-- Every run of the DoubleWord model that is chunked is covered. -/
def PreEmbedCovers (lib : ChunkLibraries) (cfg : ExperimentConfig) (experimentId : String)
    (text : Text) (queries : List Text) (cache : List String) : Prop :=
  ∀ m ∈ (doublewordModels cfg).head?, ∀ run ∈ expandSweep cfg, run.embeddingModel = m →
    ∀ chunks ∈ runChunks lib text run,
      RunCovered cacheKey services (cacheAfter cacheKey experimentId m text queries cache)
        queries m run chunks

/-! ## What holds -/

variable {cacheKey services}

theorem mem_cacheAfter {experimentId : String} {m : EmbeddingModelId} {text : Text}
    {queries : List Text} {cache : List String} {k : String} :
    k ∈ cacheAfter cacheKey experimentId m text queries cache ↔
      k ∈ cache ∨ k ∈ createKeys cacheKey m text queries := by
  rw [cacheAfter, List.mem_append, mem_customIds_createPlan, cachedKeys, List.mem_filter]
  constructor
  · rintro (hk | ⟨-, hk⟩)
    · exact Or.inl hk
    · exact Or.inr hk
  · rintro (hk | hk)
    · exact Or.inl hk
    · by_cases hc : k ∈ cache
      · exact Or.inl hc
      · exact Or.inr ⟨fun h => hc (of_decide_eq_true h.2), hk⟩

/-- The two paths compute the same key for a query. -/
theorem queryKey_mem_createKeys {m : EmbeddingModelId} {text : Text} {queries : List Text}
    {q : Text} (hq : q ∈ queries) :
    queryKey cacheKey m q ∈ createKeys cacheKey m text queries :=
  List.mem_append_right _ (List.mem_map.mpr ⟨q, hq, rfl⟩)

theorem mem_createKeys {m : EmbeddingModelId} {text : Text} {queries : List Text} {k : String} :
    k ∈ createKeys cacheKey m text queries ↔
      (∃ p ∈ paragraphs text, docKey cacheKey m p = k) ∨
        ∃ q ∈ queries, queryKey cacheKey m q = k := by
  rw [createKeys, List.mem_append, List.mem_map, List.mem_map]
  rfl

/-- The call of a run of the DoubleWord model raises before it looks anything up. -/
theorem embedChunks_doubleword {cache : List String} {run : RunParams} {chunks : List Text}
    (h : run.embeddingProvider = .doubleword) :
    embedChunks cacheKey services cache run chunks =
      .error (.unexpectedKeyword "embed_documents_doubleword" "cancel_check") := by
  rw [embedChunks, h]
  rfl

theorem embeddingProvider_of_mem_expandSweep {cfg : ExperimentConfig} {run : RunParams}
    (h : run ∈ expandSweep cfg) : run.embeddingProvider = providerForModel run.embeddingModel := by
  obtain ⟨c, -, rfl⟩ := (mem_expandSweep cfg run).mp h
  rfl

end

/-- When pre-embedding covers the sweep, and how far the cache does. -/
theorem pre_embed_covers_iff (cacheKey : CacheKeyInput → String) (services : EmbedServices)
    (lib : ChunkLibraries) (cfg : ExperimentConfig) (experimentId : String) (text : Text)
    (queries : List Text) (cache : List String) :
    (PreEmbedCovers cacheKey services lib cfg experimentId text queries cache ↔
      ∀ m ∈ (doublewordModels cfg).head?, ∀ run ∈ expandSweep cfg, run.embeddingModel = m →
        runChunks lib text run = none) ∧
    ∀ m ∈ (doublewordModels cfg).head?,
      (∀ q ∈ queries, queryKey cacheKey m q ∈
        cacheAfter cacheKey experimentId m text queries cache) ∧
      ∀ chunk, docKey cacheKey m chunk ∈
          cacheAfter cacheKey experimentId m text queries cache ↔
        docKey cacheKey m chunk ∈ cache ∨
          (∃ p ∈ paragraphs text, docKey cacheKey m p = docKey cacheKey m chunk) ∨
            ∃ q ∈ queries, queryKey cacheKey m q = docKey cacheKey m chunk := by
  refine ⟨⟨fun h m hm run hrun hmodel => ?_, fun h m hm run hrun hmodel chunks hchunks => ?_⟩,
    fun m hm => ⟨fun q hq => ?_, fun chunk => ?_⟩⟩
  · by_contra hsome
    obtain ⟨chunks, hchunks⟩ := Option.ne_none_iff_exists'.mp hsome
    obtain ⟨vectors, hok⟩ := (h m hm run hrun hmodel chunks hchunks).chunksEmbed
    have hprovider : run.embeddingProvider = .doubleword := by
      rw [embeddingProvider_of_mem_expandSweep hrun, hmodel]
      have hmem := List.mem_of_mem_head? hm
      exact of_decide_eq_true (List.mem_filter.mp hmem).2
    rw [embedChunks_doubleword hprovider] at hok
    cases hok
  · rw [h m hm run hrun hmodel] at hchunks
    cases hchunks
  · exact mem_cacheAfter.mpr (Or.inr (queryKey_mem_createKeys hq))
  · rw [mem_cacheAfter, mem_createKeys]

/-! ## One fixed-size sweep -/

def noLibraries : ChunkLibraries :=
  ⟨fun _ _ _ => none, fun _ _ _ => none, fun _ => none, fun _ => none⟩

def noServices : EmbedServices :=
  ⟨fun p _ _ => .error (.service p.value), fun p _ _ => .error (.service p.value)⟩

/-- The batches embed the two paragraphs; the run makes two chunks of three characters, and
    its call raises. -/
theorem doubleword_run_raises :
    (expandSweep qwenFixed).map (fun run => runChunks noLibraries twoParagraphs run) =
      [some [['a', 'b', '\n'], ['\n', 'c', 'd']]] ∧
    cacheAfter plainKey "e1" qwen twoParagraphs [['q']] [] =
      ["doc:ab", "doc:cd", "query:q"] ∧
    (expandSweep qwenFixed).map (fun run => embedChunks plainKey noServices
        (cacheAfter plainKey "e1" qwen twoParagraphs [['q']] []) run
        [['a', 'b', '\n'], ['\n', 'c', 'd']]) =
      [.error (.unexpectedKeyword "embed_documents_doubleword" "cancel_check")] ∧
    ¬ PreEmbedCovers plainKey noServices noLibraries qwenFixed "e1" twoParagraphs [['q']] [] := by
  refine ⟨by decide +kernel, by decide +kernel, by rfl, fun h => ?_⟩
  have hcovered := h qwen rfl _ (List.mem_singleton.mpr rfl) rfl _ rfl
  have hfound := hcovered.chunksFound ['a', 'b', '\n'] (by decide +kernel)
  exact absurd hfound (by decide +kernel)

end RagParamsFinder
