/-
  The plan of `plan_pre_embed` for any source texts and queries: which items it has.

  An item is made for every occurrence of a text whose key is not cached, and the key is its
  custom id. Keys of different inputs are taken to differ, as far as the given texts go.

  Proved: `planExact_iff`: the ids of every job are distinct exactly when no text that is not
  cached occurs twice in its role. The ids are exactly the missing keys, each text hashes to
  its id, and nothing is left to plan once they are cached, whatever is repeated.
-/
import RagParamsFinder.PreEmbed.Plan

namespace RagParamsFinder

/-- The instruction that a role's keys are made with. -/
def EmbedRole.instruction (instruction : String) : EmbedRole → String
  | .doc => ""
  | .query => instruction

/-- What is hashed for a text in a role. -/
def roleInput (model : String) (dimensions : Nat) (instruction : String) (role : EmbedRole)
    (text : Text) : CacheKeyInput :=
  ⟨"doubleword", model, dimensions, role.instruction instruction, role.value, text⟩

/-- What is hashed for the given texts. -/
def planInputs (model : String) (dimensions : Nat) (instruction : String)
    (sourceTexts queries : List Text) : List CacheKeyInput :=
  sourceTexts.map (roleInput model dimensions instruction .doc) ++
    queries.map (roleInput model dimensions instruction .query)

/-- No two of some inputs have the same key. -/
def NoCollision (cacheKey : CacheKeyInput → String) (inputs : List CacheKeyInput) : Prop :=
  ∀ a ∈ inputs, ∀ b ∈ inputs, cacheKey a = cacheKey b → a = b

instance (cacheKey : CacheKeyInput → String) (inputs : List CacheKeyInput) :
    Decidable (NoCollision cacheKey inputs) := inferInstanceAs (Decidable (∀ _ ∈ inputs, _))

section

variable (cacheKey : CacheKeyInput → String) (experimentId model : String)
  (sourceTexts queries : List Text) (cached : List String) (dimensions : Nat)
  (instruction : String)

/-- What a plan is to be: one item for each missing key, and nothing left once they are
    cached. -/
structure PlanExact (plan : PreEmbedPlan) : Prop where
  distinct : ∀ job ∈ plan.jobs, (job.items.map (·.customId)).Nodup
  exact : ∀ k, k ∈ plan.customIds ↔
    k ∉ cached ∧ ∃ i ∈ planInputs model dimensions instruction sourceTexts queries, cacheKey i = k
  hashes : ∀ job ∈ plan.jobs, ∀ item ∈ job.items,
    item.customId = cacheKey (roleInput model dimensions instruction job.role item.text)
  settled : (planPreEmbed cacheKey experimentId model sourceTexts queries
    (cached ++ plan.customIds) dimensions instruction).isEmpty = true

/-- The texts of a role whose keys are not cached. -/
def uncachedTexts (role : EmbedRole) (texts : List Text) : List Text :=
  texts.filter fun t => cacheKey (roleInput model dimensions instruction role t) ∉ cached

/-- No text that is not cached occurs twice among the source texts or among the queries. -/
def MissingOnce : Prop :=
  (uncachedTexts cacheKey model cached dimensions instruction .doc sourceTexts).Nodup ∧
    (uncachedTexts cacheKey model cached dimensions instruction .query queries).Nodup

end

variable {cacheKey : CacheKeyInput → String} {experimentId model : String}
  {sourceTexts queries : List Text} {cached : List String} {dimensions : Nat}
  {instruction : String}

/-- The items of a role. -/
def roleItems (cacheKey : CacheKeyInput → String) (model : String) (cached : List String)
    (dimensions : Nat) (instruction : String) (role : EmbedRole) (texts : List Text) :
    List EmbedItem :=
  missingItems cacheKey model dimensions (role.instruction instruction) role texts cached

theorem planPreEmbed_jobs :
    (planPreEmbed cacheKey experimentId model sourceTexts queries cached dimensions
      instruction).jobs =
      jobOf experimentId .doc
          (roleItems cacheKey model cached dimensions instruction .doc sourceTexts) ++
        jobOf experimentId .query
          (roleItems cacheKey model cached dimensions instruction .query queries) := rfl

theorem mem_jobOf {role : EmbedRole} {items : List EmbedItem} {job : EmbedJob}
    (h : job ∈ jobOf experimentId role items) : job.role = role ∧ job.items = items := by
  unfold jobOf at h
  split at h
  · cases h
  · rw [List.mem_singleton.mp h]
    exact ⟨rfl, rfl⟩

theorem forall_nodup_jobOf {role : EmbedRole} {items : List EmbedItem} :
    (∀ job ∈ jobOf experimentId role items, (job.items.map (·.customId)).Nodup) ↔
      (items.map (·.customId)).Nodup := by
  unfold jobOf
  split
  · rename_i hitems
    rw [hitems]
    exact iff_of_true (fun _ h => absurd h List.not_mem_nil) List.nodup_nil
  · exact List.forall_mem_singleton

/-! ## The items of a role -/

theorem customIds_roleItems (role : EmbedRole) (texts : List Text) :
    (roleItems cacheKey model cached dimensions instruction role texts).map (·.customId) =
      (uncachedTexts cacheKey model cached dimensions instruction role texts).map fun t =>
        cacheKey (roleInput model dimensions instruction role t) := by
  rw [roleItems, missingItems, uncachedTexts, List.filter_map, List.map_map]
  rfl

/-- Without collisions the ids of a role are distinct exactly when its uncached texts are. -/
theorem nodup_roleItems_iff {role : EmbedRole} {texts : List Text}
    (hinj : ∀ s ∈ texts, ∀ t ∈ texts,
      cacheKey (roleInput model dimensions instruction role s) =
        cacheKey (roleInput model dimensions instruction role t) → s = t) :
    ((roleItems cacheKey model cached dimensions instruction role texts).map
        (·.customId)).Nodup ↔
      (uncachedTexts cacheKey model cached dimensions instruction role texts).Nodup := by
  rw [customIds_roleItems]
  constructor
  · exact List.Nodup.of_map _
  · intro hnodup
    refine hnodup.map_on fun s hs t ht heq => ?_
    exact hinj s (List.mem_of_mem_filter hs) t (List.mem_of_mem_filter ht) heq

theorem customId_of_mem_roleItems {role : EmbedRole} {texts : List Text} {item : EmbedItem}
    (h : item ∈ roleItems cacheKey model cached dimensions instruction role texts) :
    item.customId = cacheKey (roleInput model dimensions instruction role item.text) := by
  obtain ⟨t, -, rfl⟩ := List.mem_map.mp (List.mem_of_mem_filter h)
  rfl

theorem roleInput_inj {role : EmbedRole} {s t : Text}
    (h : roleInput model dimensions instruction role s =
      roleInput model dimensions instruction role t) : s = t :=
  congrArg CacheKeyInput.text h

/-! ## The plan -/

theorem mem_customIds_planPreEmbed (k : String) :
    k ∈ (planPreEmbed cacheKey experimentId model sourceTexts queries cached dimensions
        instruction).customIds ↔
      k ∉ cached ∧
        ∃ i ∈ planInputs model dimensions instruction sourceTexts queries, cacheKey i = k := by
  rw [PreEmbedPlan.customIds, planPreEmbed, List.flatMap_append, flatMap_jobOf, flatMap_jobOf,
    List.mem_append, mem_missingItems, mem_missingItems, ← and_or_left]
  refine and_congr_right fun _ => ?_
  simp only [planInputs, List.mem_append, List.mem_map, or_and_right, exists_or,
    exists_exists_and_eq_and]
  rfl

theorem hashes_planPreEmbed {job : EmbedJob}
    (hjob : job ∈ (planPreEmbed cacheKey experimentId model sourceTexts queries cached dimensions
      instruction).jobs) {item : EmbedItem} (hitem : item ∈ job.items) :
    item.customId = cacheKey (roleInput model dimensions instruction job.role item.text) := by
  rw [planPreEmbed_jobs] at hjob
  rcases List.mem_append.mp hjob with hjob | hjob
  · obtain ⟨hrole, hitems⟩ := mem_jobOf hjob
    rw [hrole]
    exact customId_of_mem_roleItems (hitems ▸ hitem)
  · obtain ⟨hrole, hitems⟩ := mem_jobOf hjob
    rw [hrole]
    exact customId_of_mem_roleItems (hitems ▸ hitem)

/-- Once the ids of a plan are cached, there is nothing to plan. -/
theorem settled_planPreEmbed :
    (planPreEmbed cacheKey experimentId model sourceTexts queries
      (cached ++ (planPreEmbed cacheKey experimentId model sourceTexts queries cached dimensions
        instruction).customIds) dimensions instruction).isEmpty = true := by
  have hnone : ∀ k, k ∉ (planPreEmbed cacheKey experimentId model sourceTexts queries
      (cached ++ (planPreEmbed cacheKey experimentId model sourceTexts queries cached dimensions
        instruction).customIds) dimensions instruction).customIds := by
    intro k hk
    obtain ⟨hout, hin⟩ := (mem_customIds_planPreEmbed k).mp hk
    obtain ⟨hcached, hplanned⟩ := not_or.mp (mt List.mem_append.mpr hout)
    exact hplanned ((mem_customIds_planPreEmbed k).mpr ⟨hcached, hin⟩)
  unfold PreEmbedPlan.isEmpty
  rw [Bool.not_eq_true', List.any_eq_false]
  intro job hjob hitems
  obtain ⟨item, rest, hcons⟩ := List.exists_cons_of_ne_nil (items_ne_nil_of_mem_jobs hjob)
  exact hnone item.customId (List.mem_flatMap.mpr ⟨job, hjob, by simp [hcons]⟩)

theorem distinct_planPreEmbed_iff
    (hinj : NoCollision cacheKey (planInputs model dimensions instruction sourceTexts queries)) :
    (∀ job ∈ (planPreEmbed cacheKey experimentId model sourceTexts queries cached dimensions
        instruction).jobs, (job.items.map (·.customId)).Nodup) ↔
      MissingOnce cacheKey model sourceTexts queries cached dimensions instruction := by
  rw [planPreEmbed_jobs, List.forall_mem_append, forall_nodup_jobOf, forall_nodup_jobOf]
  refine and_congr (nodup_roleItems_iff fun s hs t ht heq => ?_)
    (nodup_roleItems_iff fun s hs t ht heq => ?_)
  · exact roleInput_inj (hinj _ (List.mem_append_left _ (List.mem_map_of_mem hs)) _
      (List.mem_append_left _ (List.mem_map_of_mem ht)) heq)
  · exact roleInput_inj (hinj _ (List.mem_append_right _ (List.mem_map_of_mem hs)) _
      (List.mem_append_right _ (List.mem_map_of_mem ht)) heq)

/-- A plan is exact if and only if no text that is not cached is repeated within its role. -/
theorem planExact_iff
    (hinj : NoCollision cacheKey (planInputs model dimensions instruction sourceTexts queries)) :
    PlanExact cacheKey experimentId model sourceTexts queries cached dimensions instruction
        (planPreEmbed cacheKey experimentId model sourceTexts queries cached dimensions
          instruction) ↔
      MissingOnce cacheKey model sourceTexts queries cached dimensions instruction := by
  constructor
  · exact fun h => (distinct_planPreEmbed_iff hinj).mp h.distinct
  · exact fun h => ⟨(distinct_planPreEmbed_iff hinj).mpr h, mem_customIds_planPreEmbed,
      fun _ hjob _ hitem => hashes_planPreEmbed hjob hitem, settled_planPreEmbed⟩

/-- A paragraph that occurs twice has two items with one id. -/
theorem repeated_paragraph_planned_twice :
    ¬∀ (cacheKey : CacheKeyInput → String) (experimentId model : String)
      (sourceTexts queries : List Text) (cached : List String) (dimensions : Nat)
      (instruction : String),
      NoCollision cacheKey (planInputs model dimensions instruction sourceTexts queries) →
        PlanExact cacheKey experimentId model sourceTexts queries cached dimensions instruction
          (planPreEmbed cacheKey experimentId model sourceTexts queries cached dimensions
            instruction) := by
  intro h
  have hexact := h plainKey "e" "m" [['a'], ['a']] [] [] 4 "" (by decide +kernel)
  exact absurd hexact.distinct (by decide +kernel)

/-- Two paragraphs and a query that differ, under keys that differ. -/
theorem distinct_texts_planned_once :
    NoCollision plainKey (planInputs "m" 4 "i" [['a'], ['b']] [['a']]) ∧
      (PlanExact plainKey "e" "m" [['a'], ['b']] [['a']] [] 4 "i"
          (planPreEmbed plainKey "e" "m" [['a'], ['b']] [['a']] [] 4 "i") ↔
        MissingOnce plainKey "m" [['a'], ['b']] [['a']] [] 4 "i") := by
  have hinj : NoCollision plainKey (planInputs "m" 4 "i" [['a'], ['b']] [['a']]) := by
    decide +kernel
  exact ⟨hinj, planExact_iff hinj⟩

end RagParamsFinder
