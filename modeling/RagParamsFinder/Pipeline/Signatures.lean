/-
  Parameter signatures and the runs that a resumed sweep executes
  (`server/core/pipeline/signatures.py`, `resume_sweep` and the run list of
  `_run_sweep_inner`).

  A signature names the database, the embedding model, the chunking method, size and
  overlap, and the legacy retrieval fields. It names neither the padding nor the retriever
  itself, so two parameter sets of one sweep can share it (`paramsSignature_eq_iff`).

  Proved:
  * `runDocSignature_settledRun`: the signature of a stored run, read back through any
    adapter, is the signature of the parameters it was made from.
  * `resumeSweep_runTable`: the runs of a resumed sweep are those whose signature no
    completed run has.
  * `paramsSignature_injOn_iff`: which configurations have a signature for each parameter
    set; for those, and for no others, a resume executes exactly the unfinished sets.
-/
import RagParamsFinder.Lib.Grouping
import RagParamsFinder.Store.RunDocs

namespace RagParamsFinder

open Documents

/-! ## Signatures -/

/-- `ParamSignature`, the nine components of the source's tuple. -/
structure ParamSignature where
  databaseProvider : String
  embeddingProvider : String
  embeddingModel : String
  chunkingMethod : String
  chunkSize : Int
  overlap : Int
  retrievalMethod : String
  retrievalProvider : String
  retrievalModel : Option String
  deriving DecidableEq, Repr

/-- `_params_signature`. -/
def paramsSignature (p : RunParams) : ParamSignature where
  databaseProvider := p.databaseProvider.value
  embeddingProvider := p.embeddingProvider.value
  embeddingModel := p.embeddingModel.name
  chunkingMethod := p.chunkingMethod.value
  chunkSize := p.chunkSize
  overlap := p.overlap
  retrievalMethod := p.retrievalMethod.value
  retrievalProvider := p.retrievalProvider.value
  retrievalModel := p.retrievalModel

/-- `str(value)` on the scalars a run document holds. -/
def pyStr : Value → Option String
  | .null => some "None"
  | .bool b => some (if b then "True" else "False")
  | .int i => some (toString i)
  | .str s => some s
  | _ => none

/-- `int(value)` on numbers. -/
def pyInt : Value → Option Int
  | .bool b => some (if b then 1 else 0)
  | .int i => some i
  | _ => none

/-- `_stored_enum_value`; a store gives back the text of an enum, not the member. -/
def storedEnumValue : Value → Option String
  | .null => some ""
  | v => pyStr v

/-- A value that is a text or absent. -/
def optionalText : Value → Option (Option String)
  | .null => some none
  | .str s => some (some s)
  | _ => none

/-- `_run_doc_signature`; `defaultDatabase` is `settings.default_database_provider()`. -/
def runDocSignature (defaultDatabase : String) (run : Doc) : Option ParamSignature := do
  let databaseProvider ← pyStr ((run.get "database_provider").orElse (.str defaultDatabase))
  let embeddingProvider ← pyStr ((run.get "embedding_provider").orElse (.str ""))
  let embeddingModel ← pyStr ((run.get "embedding_model").orElse (.str ""))
  let chunkingMethod ← storedEnumValue (run.get "chunking_method")
  let chunkSize ← pyInt ((run.get "chunk_size").orElse (.int 0))
  let overlap ← pyInt ((run.get "overlap").orElse (.int 0))
  let retrievalMethod ← storedEnumValue (run.get "retrieval_method")
  let retrievalProvider ← pyStr ((run.get "retrieval_provider").orElse (.str ""))
  let retrievalModel ← optionalText (run.get "retrieval_model")
  return { databaseProvider, embeddingProvider, embeddingModel, chunkingMethod, chunkSize,
           overlap, retrievalMethod, retrievalProvider, retrievalModel }

/-- `_completed_param_signatures`: the set, as the list of its elements. -/
def completedParamSignatures (defaultDatabase : String) (table : RunTable)
    (experimentId : String) : Option (List ParamSignature) :=
  (findCompletedRunSigs table experimentId).mapM (runDocSignature defaultDatabase)

/-- `runs` of `_run_sweep_inner`. -/
def runnableRuns (cfg : ExperimentConfig) (skipSignatures : List ParamSignature) :
    List RunParams :=
  (expandSweep cfg).filter fun p => paramsSignature p ∉ skipSignatures

/-- The runs that `resume_sweep` has the sweep loop of a grid experiment submit. -/
def resumeSweep (defaultDatabase : String) (cfg : ExperimentConfig) (table : RunTable)
    (experimentId : String) : Option (List RunParams) :=
  (completedParamSignatures defaultDatabase table experimentId).map (runnableRuns cfg)

/-! ## The signature of a stored run -/

theorem orElse_str {s : String} (h : s ≠ "") (v : Value) :
    Value.orElse (.str s) v = .str s := by
  simp [Value.orElse, Value.truthy, h]

theorem orElse_int_zero (i : Int) : Value.orElse (.int i) (.int 0) = .int i := by
  by_cases h : i = 0 <;> simp [Value.orElse, Value.truthy, h]

theorem Provider.value_ne_empty (p : Provider) : p.value ≠ "" := by
  cases p <;> decide

theorem DatabaseProvider.value_ne_empty (p : DatabaseProvider) : p.value ≠ "" := by
  cases p <;> decide

theorem optionalText_map (o : Option String) :
    optionalText ((o.map Value.str).getD .null) = some o := by
  cases o <;> rfl

/-- A run is read back with the signature of its parameters, whatever the adapter. -/
theorem runDocSignature_settledRun (st : RunStateStore) (defaultDatabase e : String)
    (a : RunAttempt) :
    runDocSignature defaultDatabase (settledRun st e a).readSig =
      some (paramsSignature a.params) := by
  have hget := fun k (hk : k ∈ sigKeys) => get_readSig_settledRun st e a hk
  unfold runDocSignature
  rw [hget "database_provider" (by decide), hget "embedding_provider" (by decide),
    hget "embedding_model" (by decide), hget "chunking_method" (by decide),
    hget "chunk_size" (by decide), hget "overlap" (by decide),
    hget "retrieval_method" (by decide), hget "retrieval_provider" (by decide),
    hget "retrieval_model" (by decide)]
  simp [runStatusDump, Doc.get, List.lookup_cons, orElse_str, orElse_int_zero, optionalText_map,
    DatabaseProvider.value_ne_empty, Provider.value_ne_empty, EmbeddingModelId.name_ne_empty,
    pyStr, pyInt, storedEnumValue, paramsSignature]

/-- The parameter sets that a history has completed. -/
def completedParams (as : List RunAttempt) : List RunParams :=
  (as.filter (·.phase = .complete)).map (·.params)

theorem completedParamSignatures_runTable (st : RunStateStore) (defaultDatabase e : String)
    {as : List RunAttempt} (h : (as.map (·.runId)).Nodup) :
    completedParamSignatures defaultDatabase (runTable st e as) e =
      some ((completedParams as).map paramsSignature) := by
  have hsig : runDocSignature defaultDatabase ∘ (fun a => (settledRun st e a).readSig) =
      fun a => some (paramsSignature a.params) :=
    funext fun a => runDocSignature_settledRun st defaultDatabase e a
  rw [completedParamSignatures, findCompletedRunSigs_runTable st e h, List.mapM_map, hsig,
    completedParams, List.map_map]
  exact List.mapM_pure

theorem resumeSweep_runTable (st : RunStateStore) (defaultDatabase e : String)
    (cfg : ExperimentConfig) {as : List RunAttempt} (h : (as.map (·.runId)).Nodup) :
    resumeSweep defaultDatabase cfg (runTable st e as) e =
      some (runnableRuns cfg ((completedParams as).map paramsSignature)) := by
  rw [resumeSweep, completedParamSignatures_runTable st defaultDatabase e h, Option.map_some]

/-! ## Which parameter sets share a signature -/

/-- Equal in all that a signature keeps of the sweep's dimensions. -/
structure RunParams.SameSkipFields (p q : RunParams) : Prop where
  model : p.embeddingModel = q.embeddingModel
  method : p.chunkingMethod = q.chunkingMethod
  size : p.chunkSize = q.chunkSize
  overlap : p.overlap = q.overlap
  retrievalMethod : p.retrievalMethod = q.retrievalMethod
  retrievalProvider : p.retrievalProvider = q.retrievalProvider
  retrievalModel : p.retrievalModel = q.retrievalModel

/-- The database is one for the whole sweep, and the embedding provider that of the model. -/
theorem paramsSignature_eq_iff {cfg : ExperimentConfig} {p q : RunParams}
    (hp : p ∈ expandSweep cfg) (hq : q ∈ expandSweep cfg) :
    paramsSignature p = paramsSignature q ↔ p.SameSkipFields q := by
  obtain ⟨c, -, rfl⟩ := (mem_expandSweep cfg p).mp hp
  obtain ⟨d, -, rfl⟩ := (mem_expandSweep cfg q).mp hq
  constructor
  · intro h
    simp only [paramsSignature, ParamSignature.mk.injEq, EmbeddingModelId.name_injective.eq_iff,
      ChunkingMethod.value_injective.eq_iff, RetrievalMethod.value_injective.eq_iff,
      Provider.value_injective.eq_iff] at h
    obtain ⟨-, -, hm, hk, hs, ho, hrm, hrp, hrn⟩ := h
    exact ⟨hm, hk, hs, ho, hrm, hrp, hrn⟩
  · rintro ⟨hm, hk, hs, ho, hrm, hrp, hrn⟩
    have hprovider :
        (runParamsOf cfg c).embeddingProvider = (runParamsOf cfg d).embeddingProvider :=
      congrArg providerForModel hm
    simp only [paramsSignature, hprovider, hm, hk, hs, ho, hrm, hrp, hrn]
    rfl

/-- No two swept parameter sets share a signature: there are none, or one padding is swept
    and the legacy retrieval fields tell the retrievers apart. -/
def ExperimentConfig.SignaturesSeparate (cfg : ExperimentConfig) : Prop :=
  cfg.embedding.models = [] ∨ cfg.chunking.methods = [] ∨ cfg.chunking.params.overlaps = [] ∨
    (cfg.chunking.params.paddings.length ≤ 1 ∧
      ∀ r ∈ retrieversToSweep cfg, ∀ r' ∈ retrieversToSweep cfg,
        legacyRetrievalFields r = legacyRetrievalFields r' → r = r')

theorem paddingsToSweep_subsingleton {cfg : ExperimentConfig}
    (h : cfg.chunking.params.paddings.length ≤ 1) {x y : Int} (hx : x ∈ paddingsToSweep cfg)
    (hy : y ∈ paddingsToSweep cfg) : x = y := by
  unfold paddingsToSweep at hx hy
  match hps : cfg.chunking.params.paddings with
  | [] =>
      rw [hps] at hx hy
      rw [List.mem_singleton.mp hx, List.mem_singleton.mp hy]
  | [z] =>
      rw [hps] at hx hy
      rw [List.mem_singleton.mp hx, List.mem_singleton.mp hy]
  | z :: w :: zs =>
      rw [hps] at h
      simp at h

/-- Two tuples with one signature differ in padding and retriever only. -/
theorem sameSkipFields_runParamsOf (cfg : ExperimentConfig) (c d : Combo) :
    (runParamsOf cfg c).SameSkipFields (runParamsOf cfg d) ↔
      c.1 = d.1 ∧ c.2.1 = d.2.1 ∧ c.2.2.1 = d.2.2.1 ∧ c.2.2.2.1 = d.2.2.2.1 ∧
        legacyRetrievalFields c.2.2.2.2.2 = legacyRetrievalFields d.2.2.2.2.2 := by
  constructor
  · rintro ⟨hm, hk, hs, ho, hrm, hrp, hrn⟩
    exact ⟨hm, hk, hs, ho, Prod.ext hrm (Prod.ext hrp hrn)⟩
  · rintro ⟨hm, hk, hs, ho, hr⟩
    exact ⟨hm, hk, hs, ho, congrArg (·.1) hr, congrArg (·.2.1) hr, congrArg (·.2.2) hr⟩

theorem paramsSignature_injOn_iff {cfg : ExperimentConfig} (h : cfg.NoRepeats) :
    Set.InjOn paramsSignature {p | p ∈ expandSweep cfg} ↔ cfg.SignaturesSeparate := by
  constructor
  · intro hinj
    by_contra hsep
    simp only [ExperimentConfig.SignaturesSeparate, not_or] at hsep
    obtain ⟨hm, hk, ho, hpr⟩ := hsep
    obtain ⟨m, hm⟩ := List.exists_mem_of_ne_nil _ hm
    obtain ⟨k, hk⟩ := List.exists_mem_of_ne_nil _ hk
    obtain ⟨o, ho⟩ := List.exists_mem_of_ne_nil _ ho
    obtain ⟨s, hs⟩ := List.exists_mem_of_ne_nil _ cfg.chunking.params.chunkSizes_ne
    obtain ⟨pad₀, hpad₀⟩ := List.exists_mem_of_ne_nil _
      (orSingleton_ne_nil cfg.chunking.params.paddings 0)
    obtain ⟨r₀, hr₀⟩ := List.exists_mem_of_ne_nil _
      (orSingleton_ne_nil cfg.retrieval.retrievers RetrieverConfig.dense)
    -- tuples that agree before the padding are told apart by the signature
    have hsep : ∀ pad ∈ paddingsToSweep cfg, ∀ pad' ∈ paddingsToSweep cfg,
        ∀ r ∈ retrieversToSweep cfg, ∀ r' ∈ retrieversToSweep cfg,
        legacyRetrievalFields r = legacyRetrievalFields r' → pad = pad' ∧ r = r' := by
      intro pad hpad pad' hpad' r hr r' hr' hl
      have hc := (mem_combos cfg (m, k, s, o, pad, r)).mpr ⟨hm, hk, hs, ho, hpad, hr⟩
      have hc' := (mem_combos cfg (m, k, s, o, pad', r')).mpr ⟨hm, hk, hs, ho, hpad', hr'⟩
      have hp := List.mem_map_of_mem (f := runParamsOf cfg) hc
      have hp' := List.mem_map_of_mem (f := runParamsOf cfg) hc'
      have heq := hinj hp hp' ((paramsSignature_eq_iff hp hp').mpr
        ((sameSkipFields_runParamsOf cfg _ _).mpr ⟨rfl, rfl, rfl, rfl, hl⟩))
      have hcc := runParamsOf_injective cfg heq
      simpa using hcc
    refine hpr ⟨?_, fun r hr r' hr' hl => (hsep pad₀ hpad₀ pad₀ hpad₀ r hr r' hr' hl).2⟩
    have hnd : cfg.chunking.params.paddings.Nodup := h.paddings
    match hps : cfg.chunking.params.paddings with
    | [] => simp
    | [_] => simp
    | x :: y :: zs =>
        have hpads : paddingsToSweep cfg = x :: y :: zs := by
          rw [paddingsToSweep, hps]
          rfl
        have hxy : x = y :=
          (hsep x (by simp [hpads]) y (by simp [hpads]) r₀ hr₀ r₀ hr₀ rfl).1
        rw [hps] at hnd
        simp [hxy] at hnd
  · intro hsep p hp q hq hsig
    have hsame := (paramsSignature_eq_iff hp hq).mp hsig
    obtain ⟨c, hc, rfl⟩ := (mem_expandSweep cfg p).mp hp
    obtain ⟨d, hd, rfl⟩ := (mem_expandSweep cfg q).mp hq
    obtain ⟨hm, hk, hs, ho, hl⟩ := (sameSkipFields_runParamsOf cfg c d).mp hsame
    obtain ⟨hcm, hck, -, hco, hcp, hcr⟩ := (mem_combos cfg c).mp hc
    obtain ⟨-, -, -, -, hdp, hdr⟩ := (mem_combos cfg d).mp hd
    rcases hsep with hnil | hnil | hnil | ⟨hpad, hret⟩
    · rw [hnil] at hcm; cases hcm
    · rw [hnil] at hck; cases hck
    · rw [hnil] at hco; cases hco
    · have hpeq := paddingsToSweep_subsingleton hpad hcp hdp
      have hreq := hret _ hcr _ hdr hl
      congr 1
      exact Prod.ext hm (Prod.ext hk (Prod.ext hs (Prod.ext ho (Prod.ext hpeq hreq))))

/-! ## What a resume executes -/

/-- The resumed sweep executes the parameter sets without a completed run, and no others. -/
def ResumesExactly (cfg : ExperimentConfig) (st : RunStateStore) (defaultDatabase e : String)
    (as : List RunAttempt) : Prop :=
  resumeSweep defaultDatabase cfg (runTable st e as) e =
    some ((expandSweep cfg).filter fun p => p ∉ completedParams as)

theorem completedParams_subset {cfg : ExperimentConfig} {as : List RunAttempt}
    (h : ∀ a ∈ as, a.params ∈ expandSweep cfg) {q : RunParams} (hq : q ∈ completedParams as) :
    q ∈ expandSweep cfg := by
  obtain ⟨a, ha, rfl⟩ := List.mem_map.mp hq
  exact h a (List.mem_filter.mp ha).1

theorem resumesExactly_iff {cfg : ExperimentConfig} (st : RunStateStore)
    (defaultDatabase e : String) {as : List RunAttempt} (hids : (as.map (·.runId)).Nodup)
    (hparams : ∀ a ∈ as, a.params ∈ expandSweep cfg) :
    ResumesExactly cfg st defaultDatabase e as ↔
      ∀ p ∈ expandSweep cfg, ∀ q ∈ completedParams as, p.SameSkipFields q →
        p ∈ completedParams as := by
  rw [ResumesExactly, resumeSweep_runTable st defaultDatabase e cfg hids, Option.some_inj,
    runnableRuns, Grouping.filter_key_notMem_iff]
  have hsub := fun q => completedParams_subset (q := q) hparams
  constructor
  · intro h p hp q hq hs
    exact h p hp q hq ((paramsSignature_eq_iff hp (hsub q hq)).mpr hs)
  · intro h p hp q hq hs
    exact h p hp q hq ((paramsSignature_eq_iff hp (hsub q hq)).mp hs)

theorem completedParams_singleton (a : RunAttempt) (h : a.phase = .complete) :
    completedParams [a] = [a.params] := by
  simp [completedParams, h]

/-- One completed run is history enough to tell whether signatures separate. -/
theorem forall_resumesExactly_iff (cfg : ExperimentConfig) :
    (∀ (st : RunStateStore) (defaultDatabase e : String) (as : List RunAttempt),
        (as.map (·.runId)).Nodup → (∀ a ∈ as, a.params ∈ expandSweep cfg) →
          ResumesExactly cfg st defaultDatabase e as) ↔
      Set.InjOn paramsSignature {p | p ∈ expandSweep cfg} := by
  constructor
  · intro h p hp q hq hsig
    have hids : ([⟨"", q, .complete, 0, 0, 0, none⟩] : List RunAttempt).map (·.runId) = [""] := rfl
    have hparams : ∀ a ∈ ([⟨"", q, .complete, 0, 0, 0, none⟩] : List RunAttempt),
        a.params ∈ expandSweep cfg := by
      intro a ha
      rw [List.mem_singleton.mp ha]
      exact hq
    have hexact := h .sqlite "" "" _ (hids ▸ List.nodup_singleton _) hparams
    rw [resumesExactly_iff _ _ _ (hids ▸ List.nodup_singleton _) hparams,
      completedParams_singleton _ rfl] at hexact
    exact List.mem_singleton.mp
      (hexact p hp q (List.mem_singleton_self q) ((paramsSignature_eq_iff hp hq).mp hsig))
  · intro hinj st defaultDatabase e as hids hparams
    refine (resumesExactly_iff st defaultDatabase e hids hparams).mpr fun p hp q hq hs => ?_
    have hqm := completedParams_subset hparams hq
    have hpq := hinj hp hqm ((paramsSignature_eq_iff hp hqm).mpr hs)
    exact hpq ▸ hq

/-- When a resume executes exactly the unfinished parameter sets: after a given history,
    and after every history of a configuration. -/
theorem resume_exact_iff {cfg : ExperimentConfig} (h : cfg.NoRepeats) :
    (∀ (st : RunStateStore) (defaultDatabase e : String) (as : List RunAttempt),
        (as.map (·.runId)).Nodup → (∀ a ∈ as, a.params ∈ expandSweep cfg) →
          (ResumesExactly cfg st defaultDatabase e as ↔
            ∀ p ∈ expandSweep cfg, ∀ q ∈ completedParams as, p.SameSkipFields q →
              p ∈ completedParams as)) ∧
      ((∀ (st : RunStateStore) (defaultDatabase e : String) (as : List RunAttempt),
          (as.map (·.runId)).Nodup → (∀ a ∈ as, a.params ∈ expandSweep cfg) →
            ResumesExactly cfg st defaultDatabase e as) ↔ cfg.SignaturesSeparate) ∧
      (Set.InjOn paramsSignature {p | p ∈ expandSweep cfg} ↔ cfg.SignaturesSeparate) ∧
      ∀ (st : RunStateStore) (defaultDatabase e : String) (a : RunAttempt),
        runDocSignature defaultDatabase (settledRun st e a).readSig =
          some (paramsSignature a.params) := by
  refine ⟨?_, ?_, paramsSignature_injOn_iff h, runDocSignature_settledRun⟩
  · intro st defaultDatabase e as hids hparams
    exact resumesExactly_iff st defaultDatabase e hids hparams
  · rw [forall_resumesExactly_iff, paramsSignature_injOn_iff h]

/-- A grid over the paddings 0 and 200, with one value for each other dimension. -/
def twoPaddings : ExperimentConfig := miniLmGrid .continue 512 [] [0, 200]

theorem twoPaddings_noRepeats : twoPaddings.NoRepeats :=
  miniLmGrid_noRepeats (by decide) (by decide)

/-- The combinations of `twoPaddings`: one for each padding. -/
def paddedRun (padding : Int) : RunParams :=
  runParamsOf twoPaddings (miniLm, .recursive, 512, 0, padding, RetrieverConfig.dense)

/-- A history of `twoPaddings`: the run of padding 0 completed, and the sweep was paused. -/
def firstPaddingDone : List RunAttempt :=
  [⟨"r1", paddedRun 0, .complete, 0, 60, 60, none⟩]

theorem resume_exact_iff_twoPaddings :
    ResumesExactly twoPaddings .sqlite "mongodb" "e1" firstPaddingDone ↔
      ∀ p ∈ expandSweep twoPaddings, ∀ q ∈ completedParams firstPaddingDone,
        p.SameSkipFields q → p ∈ completedParams firstPaddingDone :=
  (resume_exact_iff twoPaddings_noRepeats).1 .sqlite "mongodb" "e1" firstPaddingDone
    (by decide) (by decide)

/-- The padding 200 was never run, and the resume skips it. -/
theorem resume_skips_padding :
    twoPaddings.NoRepeats ∧ twoPaddings.execution.searchStrategy = .grid ∧
      expandSweep twoPaddings = [paddedRun 0, paddedRun 200] ∧
      (firstPaddingDone.map (·.runId)).Nodup ∧
      completedParams firstPaddingDone = [paddedRun 0] ∧
      resumeSweep "mongodb" twoPaddings (runTable .sqlite "e1" firstPaddingDone) "e1" = some [] ∧
      ¬ ResumesExactly twoPaddings .sqlite "mongodb" "e1" firstPaddingDone := by
  have hids : (firstPaddingDone.map (·.runId)).Nodup := by decide
  have hresume : resumeSweep "mongodb" twoPaddings (runTable .sqlite "e1" firstPaddingDone) "e1" =
      some [] := by
    rw [resumeSweep_runTable _ _ _ _ hids]
    decide
  refine ⟨twoPaddings_noRepeats, rfl, by decide, hids, by decide, hresume, ?_⟩
  rw [ResumesExactly, hresume]
  decide

end RagParamsFinder
