/-
  Planning the embedding batches of an experiment: `plan_pre_embed`
  (`server/core/pipeline/pre_embed.py`) and the texts that the create path gives it
  (`server/api/experiments.py`).

  The cache key of a text is the SHA-256 of the JSON of a `CacheKeyInput`; the digest is the
  parameter `cacheKey`.

  Proved: `mem_customIds_createPlan`: the items of the plan are the paragraphs and the
  queries whose keys were not cached.
-/
import RagParamsFinder.Chunking.Chunkers
import RagParamsFinder.Models.Config
import RagParamsFinder.PreEmbed.Checkpoint

namespace RagParamsFinder

/-- The arguments of `cache_key`. -/
structure CacheKeyInput where
  provider : String
  model : String
  dim : Nat
  instruction : String
  role : String
  text : Text
  deriving DecidableEq, Repr

structure EmbedItem where
  customId : String
  text : Text
  role : EmbedRole
  deriving DecidableEq, Repr

structure EmbedJob where
  jobKey : String
  role : EmbedRole
  items : List EmbedItem
  deriving DecidableEq, Repr

structure PreEmbedPlan where
  experimentId : String
  model : String
  jobs : List EmbedJob
  deriving DecidableEq, Repr

def PreEmbedPlan.isEmpty (plan : PreEmbedPlan) : Bool :=
  !plan.jobs.any fun job => !job.items.isEmpty

/-- The custom ids of all items, job after job. -/
def PreEmbedPlan.customIds (plan : PreEmbedPlan) : List String :=
  plan.jobs.flatMap fun job => job.items.map (·.customId)

section

variable (cacheKey : CacheKeyInput → String)

/-- The items of one role: the texts whose key is not cached. -/
def missingItems (model : String) (dimensions : Nat) (instruction : String) (role : EmbedRole)
    (texts : List Text) (cachedKeys : List String) : List EmbedItem :=
  (texts.map fun text =>
    { customId := cacheKey ⟨"doubleword", model, dimensions, instruction, role.value, text⟩
      text := text
      role := role }).filter fun item => item.customId ∉ cachedKeys

/-- A role without items has no job. -/
def jobOf (experimentId : String) (role : EmbedRole) (items : List EmbedItem) :
    List EmbedJob :=
  if items = [] then [] else [⟨experimentId ++ ":" ++ role.value, role, items⟩]

def planPreEmbed (experimentId model : String) (sourceTexts queries : List Text)
    (cachedKeys : List String) (dimensions : Nat) (instruction : String) : PreEmbedPlan where
  experimentId := experimentId
  model := model
  jobs :=
    jobOf experimentId .doc
        (missingItems cacheKey model dimensions "" .doc sourceTexts cachedKeys) ++
      jobOf experimentId .query
        (missingItems cacheKey model dimensions instruction .query queries cachedKeys)

/-! ## The create path -/

/-- `text.split("\n\n")`. -/
def splitBlankLines : Text → List Text
  | [] => [[]]
  | '\n' :: '\n' :: cs => [] :: splitBlankLines cs
  | c :: cs =>
      match splitBlankLines cs with
      | [] => [[c]]
      | part :: parts => (c :: part) :: parts

/-- `[t.strip() for t in text.split("\n\n") if t.strip()]`. -/
def paragraphs (text : Text) : List Text :=
  ((splitBlankLines text).map Text.strip).filter (· ≠ [])

def queryInstruction : String :=
  "Instruct: Retrieve relevant passages for the query.\nQuery: "

def doublewordModels (cfg : ExperimentConfig) : List EmbeddingModelId :=
  cfg.embedding.models.filter fun m => providerForModel m = .doubleword

/-- `all_keys`: the keys that the create path looks up. -/
def createKeys (m : EmbeddingModelId) (text : Text) (queries : List Text) : List String :=
  (paragraphs text).map (fun t =>
      cacheKey ⟨"doubleword", m.name, m.info.dimensions, "", "doc", t⟩) ++
    queries.map fun t =>
      cacheKey ⟨"doubleword", m.name, m.info.dimensions, queryInstruction, "query", t⟩

/-- `cached_keys`. -/
def cachedKeys (cache keys : List String) : List String := keys.filter (· ∈ cache)

/-- The plan of the create path, over the keys that it found cached. -/
def createPlan (experimentId : String) (m : EmbeddingModelId) (text : Text)
    (queries : List Text) (cached : List String) : PreEmbedPlan :=
  planPreEmbed cacheKey experimentId m.name (paragraphs text) queries cached m.info.dimensions
    queryInstruction

variable {cacheKey}

theorem mem_missingItems {model : String} {dimensions : Nat} {instruction : String}
    {role : EmbedRole} {texts : List Text} {cached : List String} {k : String} :
    k ∈ (missingItems cacheKey model dimensions instruction role texts cached).map
        (·.customId) ↔
      k ∉ cached ∧ ∃ t ∈ texts,
        cacheKey ⟨"doubleword", model, dimensions, instruction, role.value, t⟩ = k := by
  simp only [missingItems, List.mem_map, List.mem_filter, decide_eq_true_eq]
  constructor
  · rintro ⟨_, ⟨⟨t, ht, rfl⟩, hk⟩, rfl⟩
    exact ⟨hk, t, ht, rfl⟩
  · rintro ⟨hk, t, ht, rfl⟩
    exact ⟨_, ⟨⟨t, ht, rfl⟩, hk⟩, rfl⟩

theorem flatMap_jobOf (experimentId : String) (role : EmbedRole) (items : List EmbedItem) :
    (jobOf experimentId role items).flatMap (fun job => job.items.map (·.customId)) =
      items.map (·.customId) := by
  unfold jobOf
  split
  · rename_i hnone
    rw [hnone]
    rfl
  · simp

theorem items_ne_nil_of_mem_jobOf {experimentId : String} {role : EmbedRole}
    {items : List EmbedItem} {job : EmbedJob} (h : job ∈ jobOf experimentId role items) :
    job.items ≠ [] := by
  unfold jobOf at h
  split at h
  · cases h
  · rename_i hne
    rw [List.mem_singleton.mp h]
    exact hne

/-- Every job of a plan has items. -/
theorem items_ne_nil_of_mem_jobs {experimentId model : String} {sourceTexts queries : List Text}
    {cached : List String} {dimensions : Nat} {instruction : String} {job : EmbedJob}
    (h : job ∈ (planPreEmbed cacheKey experimentId model sourceTexts queries cached dimensions
      instruction).jobs) : job.items ≠ [] := by
  rcases List.mem_append.mp h with h | h
  · exact items_ne_nil_of_mem_jobOf h
  · exact items_ne_nil_of_mem_jobOf h

/-- The items of a create plan: the paragraphs and the queries that were not cached. -/
theorem mem_customIds_createPlan {experimentId : String} {m : EmbeddingModelId} {text : Text}
    {queries : List Text} {cached : List String} {k : String} :
    k ∈ (createPlan cacheKey experimentId m text queries cached).customIds ↔
      k ∉ cached ∧ k ∈ createKeys cacheKey m text queries := by
  rw [PreEmbedPlan.customIds, createPlan, planPreEmbed, List.flatMap_append, flatMap_jobOf,
    flatMap_jobOf, List.mem_append, mem_missingItems, mem_missingItems, ← and_or_left,
    createKeys, List.mem_append, List.mem_map, List.mem_map]
  rfl

end

/-! ## A sweep of one DoubleWord model -/

def qwen : EmbeddingModelId := ⟨"Qwen/Qwen3-Embedding-8B", ⟨.doubleword, 1024⟩, by decide⟩

def qwenFixed : ExperimentConfig where
  databaseProvider := .mongodb
  dataPaths := ["docs"]
  queriesFile := "queries.json"
  embedding := ⟨some .doubleword, [qwen], by decide⟩
  chunking := ⟨[.fixed], ⟨[3], [0], [0], List.cons_ne_nil 3 []⟩⟩
  retrieval := ⟨20, 5, [RetrieverConfig.dense]⟩
  execution := gridOnOneWorker .continue
  valid := rfl

def plainKey (i : CacheKeyInput) : String := i.role ++ ":" ++ String.ofList i.text

def twoParagraphs : Text := ['a', 'b', '\n', '\n', 'c', 'd']

end RagParamsFinder
