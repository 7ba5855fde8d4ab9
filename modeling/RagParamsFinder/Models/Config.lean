/-
  Experiment configuration and sweep expansion (`server/models/config.py`).

  A configuration is the value pydantic accepts: each `model_validator` that can raise is a
  function into `Except String Unit` with the messages of the source, and the structure
  carries the fact that it returned. Validators that only warn leave no field. The old
  `methods` / `retrieval_provider` input format is migrated to `retrievers` before a
  configuration exists, so only `retrievers` is kept.

  Proved:
  * `mem_expandSweep`, `length_expandSweep`: the runs are the product of the six lists.
  * `runParamsOf_injective`, `nodup_expandSweep`: without repeated entries in the lists no
    two runs of a sweep are equal.
-/
import Mathlib.Data.List.ProdSigma
import Mathlib.Data.List.Nodup
import RagParamsFinder.Models.Registry

namespace RagParamsFinder

/-! ## Validated configuration -/

/-- `validate_provider_model_for_rerankers`. -/
def validateProviderModelForRerankers (type : RetrieverType) (provider : Option Provider)
    (model : Option String) : Except String Unit :=
  if type = .reranker ∨ type = .crossEncoder then
    match provider, model with
    | none, _ => .error s!"{type.value} requires 'provider' field"
    | some _, none => .error s!"{type.value} requires 'model' field"
    | some p, some m =>
        match rerankerModels.lookup m with
        | none => .error s!"Unknown reranker model '{m}'. Known: {knownModels rerankerModels}"
        | some registered =>
            if registered = p then .ok ()
            else .error (s!"Reranker model '{m}' belongs to provider '{registered.value}', " ++
              s!"but config specifies provider '{p.value}'")
  else .ok ()

/-- One entry of `retrieval.retrievers`; each becomes its own run. -/
structure RetrieverConfig where
  type : RetrieverType
  provider : Option Provider
  model : Option String
  valid : validateProviderModelForRerankers type provider model = .ok ()
  deriving DecidableEq

/-- `RetrieverConfig(type=RetrieverType.DENSE)`. -/
def RetrieverConfig.dense : RetrieverConfig := ⟨.dense, none, none, rfl⟩

/-- `ChunkParams`. `min(self.chunk_sizes)` in its validator raises on an empty list. -/
structure ChunkParams where
  chunkSizes : List Int
  overlaps : List Int
  paddings : List Int
  chunkSizes_ne : chunkSizes ≠ []

/-- `validate_models_match_provider`, on models that are in the registry. -/
def validateModelsMatchProvider (provider : Option Provider) :
    List EmbeddingModelId → Except String Unit
  | [] => .ok ()
  | m :: ms =>
      match provider with
      | none => validateModelsMatchProvider none ms
      | some p =>
          if m.info.provider = p then validateModelsMatchProvider (some p) ms
          else .error (s!"Embedding model '{m.name}' belongs to provider " ++
            s!"'{m.info.provider.value}', but config specifies provider '{p.value}'")

structure EmbeddingConfig where
  provider : Option Provider
  models : List EmbeddingModelId
  valid : validateModelsMatchProvider provider models = .ok ()

structure ChunkingConfig where
  methods : List ChunkingMethod
  params : ChunkParams

structure RetrievalConfig where
  topKInitial : Int
  topKFinal : Int
  retrievers : List RetrieverConfig

inductive OnError where
  | continue
  | stop
  deriving DecidableEq, Repr

inductive SearchStrategy where
  | grid
  | bayesian
  deriving DecidableEq, Repr

/-- `ExecutionConfig`, with the bounds its fields declare. -/
structure ExecutionConfig where
  parallelism : Nat
  onError : OnError
  searchStrategy : SearchStrategy
  nTrials : Option Nat
  parallelism_pos : 1 ≤ parallelism
  parallelism_le : parallelism ≤ 16
  nTrials_pos : ∀ n, nTrials = some n → 1 ≤ n

/-- `validate_bayesian_only_tunes_chunking`. -/
def validateBayesianOnlyTunesChunking (embedding : EmbeddingConfig) (chunking : ChunkingConfig)
    (retrieval : RetrievalConfig) (execution : ExecutionConfig) : Except String Unit :=
  if execution.searchStrategy ≠ .bayesian then .ok ()
  else if embedding.models.length ≠ 1 then
    .error ("Bayesian search requires one embedding model; " ++
      "set search_strategy=grid for multi-value embedding.models")
  else if chunking.methods.length ≠ 1 then
    .error ("Bayesian search requires one chunking method; " ++
      "set search_strategy=grid for multi-value chunking.methods")
  else if chunking.params.paddings.length ≠ 1 then
    .error ("Bayesian search requires one chunking.params.paddings value; " ++
      "tune only chunk_size and overlap")
  else if retrieval.retrievers.length ≠ 1 then
    .error ("Bayesian search requires one retrieval.retrievers value; " ++
      "set search_strategy=grid for multi-value retrievers")
  else .ok ()

structure ExperimentConfig where
  databaseProvider : DatabaseProvider
  dataPaths : List String
  queriesFile : String
  embedding : EmbeddingConfig
  chunking : ChunkingConfig
  retrieval : RetrievalConfig
  execution : ExecutionConfig
  valid : validateBayesianOnlyTunesChunking embedding chunking retrieval execution = .ok ()

/-- No list that spans the sweep repeats an entry. -/
structure ExperimentConfig.NoRepeats (cfg : ExperimentConfig) : Prop where
  models : cfg.embedding.models.Nodup
  methods : cfg.chunking.methods.Nodup
  sizes : cfg.chunking.params.chunkSizes.Nodup
  overlaps : cfg.chunking.params.overlaps.Nodup
  paddings : cfg.chunking.params.paddings.Nodup
  retrievers : cfg.retrieval.retrievers.Nodup

/-! ## Sweep expansion -/

/-- `RunParams`: the single-valued parameter set of one run. -/
structure RunParams where
  databaseProvider : DatabaseProvider
  embeddingProvider : Provider
  embeddingModel : EmbeddingModelId
  chunkingMethod : ChunkingMethod
  chunkSize : Int
  overlap : Int
  padding : Int
  topKInitial : Int
  topKFinal : Int
  dataPaths : List String
  queriesFile : String
  retrievers : List RetrieverConfig
  retrievalMethod : RetrievalMethod
  retrievalProvider : Provider
  retrievalModel : Option String
  deriving DecidableEq

/-- `_legacy_retrieval_fields`. -/
def legacyRetrievalFields (r : RetrieverConfig) : RetrievalMethod × Provider × Option String :=
  match r.type with
  | .reranker => (.dense, r.provider.getD .localProvider, r.model)
  | .crossEncoder => (.dense, r.provider.getD .localProvider, r.model)
  | .dense => (.dense, .localProvider, none)
  | .sparse => (.sparse, .localProvider, none)
  | .hybrid => (.hybrid, .localProvider, none)

/-- Python's `xs or [x]`. -/
def orSingleton {α : Type} (xs : List α) (x : α) : List α :=
  match xs with
  | [] => [x]
  | y :: ys => y :: ys

theorem nodup_orSingleton {α : Type} {xs : List α} (h : xs.Nodup) (x : α) :
    (orSingleton xs x).Nodup := by
  cases xs with
  | nil => exact List.nodup_singleton x
  | cons y ys => exact h

theorem orSingleton_ne_nil {α : Type} (xs : List α) (x : α) : orSingleton xs x ≠ [] := by
  cases xs <;> exact List.cons_ne_nil _ _

/-- `config.chunking.params.paddings or [0]`. -/
def paddingsToSweep (cfg : ExperimentConfig) : List Int :=
  orSingleton cfg.chunking.params.paddings 0

/-- `config.retrieval.retrievers or [RetrieverConfig(type=RetrieverType.DENSE)]`. -/
def retrieversToSweep (cfg : ExperimentConfig) : List RetrieverConfig :=
  orSingleton cfg.retrieval.retrievers RetrieverConfig.dense

/-- One tuple of the product that `expand_sweep` walks. -/
abbrev Combo := EmbeddingModelId × ChunkingMethod × Int × Int × Int × RetrieverConfig

/-- `itertools.product` over the six lists, the last one varying fastest. -/
def combos (cfg : ExperimentConfig) : List Combo :=
  cfg.embedding.models ×ˢ cfg.chunking.methods ×ˢ cfg.chunking.params.chunkSizes ×ˢ
    cfg.chunking.params.overlaps ×ˢ paddingsToSweep cfg ×ˢ retrieversToSweep cfg

/-- The `RunParams` that `expand_sweep` builds from one tuple. -/
def runParamsOf (cfg : ExperimentConfig) (c : Combo) : RunParams :=
  let (model, method, size, overlap, padding, retriever) := c
  let (legacyMethod, legacyProvider, legacyModel) := legacyRetrievalFields retriever
  { databaseProvider := cfg.databaseProvider
    embeddingProvider := providerForModel model
    embeddingModel := model
    chunkingMethod := method
    chunkSize := size
    overlap := overlap
    padding := padding
    topKInitial := cfg.retrieval.topKInitial
    topKFinal := cfg.retrieval.topKFinal
    dataPaths := cfg.dataPaths
    queriesFile := cfg.queriesFile
    retrievers := [retriever]
    retrievalMethod := legacyMethod
    retrievalProvider := legacyProvider
    retrievalModel := legacyModel }

/-- `expand_sweep`. -/
def expandSweep (cfg : ExperimentConfig) : List RunParams :=
  (combos cfg).map (runParamsOf cfg)

theorem mem_combos (cfg : ExperimentConfig) (c : Combo) :
    c ∈ combos cfg ↔ c.1 ∈ cfg.embedding.models ∧ c.2.1 ∈ cfg.chunking.methods ∧
      c.2.2.1 ∈ cfg.chunking.params.chunkSizes ∧ c.2.2.2.1 ∈ cfg.chunking.params.overlaps ∧
      c.2.2.2.2.1 ∈ paddingsToSweep cfg ∧ c.2.2.2.2.2 ∈ retrieversToSweep cfg := by
  obtain ⟨m, k, s, o, p, r⟩ := c
  simp only [combos, List.mem_product]

theorem mem_expandSweep (cfg : ExperimentConfig) (p : RunParams) :
    p ∈ expandSweep cfg ↔ ∃ c ∈ combos cfg, runParamsOf cfg c = p := by
  simp only [expandSweep, List.mem_map]

theorem length_expandSweep (cfg : ExperimentConfig) :
    (expandSweep cfg).length = cfg.embedding.models.length * (cfg.chunking.methods.length *
      (cfg.chunking.params.chunkSizes.length * (cfg.chunking.params.overlaps.length *
        ((paddingsToSweep cfg).length * (retrieversToSweep cfg).length)))) := by
  simp only [expandSweep, combos, List.length_map, List.length_product]

/-- A tuple is read back from the run it became. -/
theorem runParamsOf_injective (cfg : ExperimentConfig) :
    Function.Injective (runParamsOf cfg) := by
  rintro ⟨m, k, s, o, p, r⟩ ⟨m', k', s', o', p', r'⟩ h
  have hm := congrArg RunParams.embeddingModel h
  have hk := congrArg RunParams.chunkingMethod h
  have hs := congrArg RunParams.chunkSize h
  have ho := congrArg RunParams.overlap h
  have hp := congrArg RunParams.padding h
  have hr := congrArg RunParams.retrievers h
  simp only [runParamsOf, List.cons.injEq, and_true] at hm hk hs ho hp hr
  rw [hm, hk, hs, ho, hp, hr]

theorem nodup_combos {cfg : ExperimentConfig} (h : cfg.NoRepeats) : (combos cfg).Nodup := by
  unfold combos
  exact h.models.product (h.methods.product (h.sizes.product (h.overlaps.product
    ((nodup_orSingleton h.paddings 0).product (nodup_orSingleton h.retrievers _)))))

theorem nodup_expandSweep {cfg : ExperimentConfig} (h : cfg.NoRepeats) :
    (expandSweep cfg).Nodup :=
  (nodup_combos h).map (runParamsOf_injective cfg)

/-- The model of the default `embedding.models`. -/
def miniLm : EmbeddingModelId := ⟨"all-MiniLM-L6-v2", ⟨.localProvider, 384⟩, by decide⟩

/-- A model of SIE. -/
def stella : EmbeddingModelId := ⟨"stella-v5", ⟨.sie, 1024⟩, by decide⟩

/-- A grid sweep on one worker. -/
def gridOnOneWorker (onError : OnError) : ExecutionConfig :=
  ⟨1, onError, .grid, none, by decide, by decide, by simp⟩

/-- A grid over chunk sizes and paddings, with one value in every other dimension. -/
def miniLmGrid (onError : OnError) (size : Int) (sizes paddings : List Int) :
    ExperimentConfig where
  databaseProvider := .mongodb
  dataPaths := ["docs"]
  queriesFile := "queries.json"
  embedding := ⟨some .localProvider, [miniLm], by decide⟩
  chunking := ⟨[.recursive], ⟨size :: sizes, [0], paddings, List.cons_ne_nil size sizes⟩⟩
  retrieval := ⟨20, 5, [RetrieverConfig.dense]⟩
  execution := gridOnOneWorker onError
  valid := rfl

theorem miniLmGrid_noRepeats {onError : OnError} {size : Int} {sizes paddings : List Int}
    (hs : (size :: sizes).Nodup) (hp : paddings.Nodup) :
    (miniLmGrid onError size sizes paddings).NoRepeats where
  models := List.nodup_singleton _
  methods := List.nodup_singleton _
  sizes := hs
  overlaps := List.nodup_singleton _
  paddings := hp
  retrievers := List.nodup_singleton _

end RagParamsFinder
