/-
  Enumerations (`server/models/enums.py`) and the model registry
  (`server/core/model_registry.py`).

  A `StrEnum` member is its string value; `value` gives it. `EmbeddingModelId` is a model
  name the registry knows, as the validator of the configuration accepts them, so
  `providerForModel`, which raises for other names in the source, is total on it.
-/

namespace RagParamsFinder

/-- `ExperimentStatus`; `partialStatus` is its member `PARTIAL`. -/
inductive ExperimentStatus where
  | running
  | paused
  | complete
  | partialStatus
  | failed
  | cancelled
  deriving DecidableEq, Repr

def ExperimentStatus.value : ExperimentStatus → String
  | .running => "running"
  | .paused => "paused"
  | .complete => "complete"
  | .partialStatus => "partial"
  | .failed => "failed"
  | .cancelled => "cancelled"

inductive ChunkingMethod where
  | fixed
  | recursive
  | token
  | sentence
  | semantic
  deriving DecidableEq, Repr

def ChunkingMethod.value : ChunkingMethod → String
  | .fixed => "fixed"
  | .recursive => "recursive"
  | .token => "token"
  | .sentence => "sentence"
  | .semantic => "semantic"

inductive RetrievalMethod where
  | dense
  | sparse
  | hybrid
  deriving DecidableEq, Repr

def RetrievalMethod.value : RetrievalMethod → String
  | .dense => "dense"
  | .sparse => "sparse"
  | .hybrid => "hybrid"

inductive RetrieverType where
  | dense
  | sparse
  | hybrid
  | reranker
  | crossEncoder
  deriving DecidableEq, Repr

def RetrieverType.value : RetrieverType → String
  | .dense => "dense"
  | .sparse => "sparse"
  | .hybrid => "hybrid"
  | .reranker => "reranker"
  | .crossEncoder => "cross_encoder"

inductive Phase where
  | queued
  | parsing
  | chunking
  | embedding
  | storing
  | querying
  | reranking
  | complete
  | failed
  | interrupted
  deriving DecidableEq, Repr

def Phase.value : Phase → String
  | .queued => "queued"
  | .parsing => "parsing"
  | .chunking => "chunking"
  | .embedding => "embedding"
  | .storing => "storing"
  | .querying => "querying"
  | .reranking => "reranking"
  | .complete => "complete"
  | .failed => "failed"
  | .interrupted => "interrupted"

theorem Phase.value_injective : Function.Injective Phase.value := by
  intro p q h
  cases p <;> cases q <;> first | rfl | exact absurd h (by decide)

theorem ChunkingMethod.value_injective : Function.Injective ChunkingMethod.value := by
  intro p q h
  cases p <;> cases q <;> first | rfl | exact absurd h (by decide)

theorem RetrievalMethod.value_injective : Function.Injective RetrievalMethod.value := by
  intro p q h
  cases p <;> cases q <;> first | rfl | exact absurd h (by decide)

/-- `Provider`; `localProvider` is the literal `"local"`. -/
inductive Provider where
  | localProvider
  | voyage
  | sie
  | kimchi
  | doubleword
  deriving DecidableEq, Repr

def Provider.value : Provider → String
  | .localProvider => "local"
  | .voyage => "voyage"
  | .sie => "sie"
  | .kimchi => "kimchi"
  | .doubleword => "doubleword"

theorem Provider.value_injective : Function.Injective Provider.value := by
  intro p q h
  cases p <;> cases q <;> first | rfl | exact absurd h (by decide)

/-- `DatabaseProvider`. `supabase` is an input alias, normalised away on validation. -/
inductive DatabaseProvider where
  | mongodb
  | postgres
  | supabase
  | elasticsearch
  | redis
  deriving DecidableEq, Repr

def DatabaseProvider.value : DatabaseProvider → String
  | .mongodb => "mongodb"
  | .postgres => "postgres"
  | .supabase => "supabase"
  | .elasticsearch => "elasticsearch"
  | .redis => "redis"

/-! ## Model registry -/

/-- The fields of `EmbeddingModelInfo` that the modelled code reads. -/
structure EmbeddingModelInfo where
  provider : Provider
  dimensions : Nat
  deriving DecidableEq, Repr

/-- `EMBEDDING_MODELS`, in the order of the source. -/
def embeddingModels : List (String × EmbeddingModelInfo) :=
  [("voyage-4-large", ⟨.voyage, 1024⟩),
   ("voyage-4", ⟨.voyage, 1024⟩),
   ("voyage-4-lite", ⟨.voyage, 1024⟩),
   ("voyage-code-3", ⟨.voyage, 1024⟩),
   ("voyage-finance-2", ⟨.voyage, 1024⟩),
   ("voyage-law-2", ⟨.voyage, 1024⟩),
   ("voyage-context-3", ⟨.voyage, 1024⟩),
   ("voyage-3-large", ⟨.voyage, 1024⟩),
   ("voyage-3.5-lite", ⟨.voyage, 1024⟩),
   ("voyage-3.5", ⟨.voyage, 1024⟩),
   ("voyage-3", ⟨.voyage, 1024⟩),
   ("voyage-multilingual-2", ⟨.voyage, 1024⟩),
   ("all-MiniLM-L6-v2", ⟨.localProvider, 384⟩),
   ("bge-m3", ⟨.sie, 1024⟩),
   ("stella-v5", ⟨.sie, 1024⟩),
   ("splade-v3", ⟨.sie, 30522⟩),
   ("Qwen/Qwen3-Embedding-8B", ⟨.doubleword, 1024⟩)]

/-- `RERANKER_MODELS`, model to provider. -/
def rerankerModels : List (String × Provider) :=
  [("rerank-2.5-lite", .voyage),
   ("rerank-2.5", .voyage),
   ("rerank-2-lite", .voyage),
   ("rerank-2", .voyage),
   ("rerank-lite-1", .voyage),
   ("rerank-1", .voyage),
   ("cross-encoder/ms-marco-MiniLM-L-6-v2", .localProvider),
   ("bge-reranker", .sie)]

/-- `", ".join(registry)` over the registry's keys. -/
def knownModels {α : Type} (registry : List (String × α)) : String :=
  ", ".intercalate (registry.map (·.1))

/-- A model name that the registry knows. -/
structure EmbeddingModelId where
  name : String
  info : EmbeddingModelInfo
  registered : embeddingModels.lookup name = some info
  deriving DecidableEq

/-- `provider_for_model`, total on registered models. -/
def providerForModel (m : EmbeddingModelId) : Provider := m.info.provider

theorem EmbeddingModelId.name_injective : Function.Injective EmbeddingModelId.name := by
  intro m m' h
  obtain ⟨n, i, hr⟩ := m
  obtain ⟨n', i', hr'⟩ := m'
  cases h
  rw [hr] at hr'
  cases hr'
  rfl

/-- Every registered name has a nonempty text, so `value or default` keeps it. -/
theorem EmbeddingModelId.name_ne_empty (m : EmbeddingModelId) : m.name ≠ "" := by
  intro h
  have hnone : embeddingModels.lookup "" = none := by decide
  have hr := m.registered
  rw [h, hnone] at hr
  cases hr

end RagParamsFinder
