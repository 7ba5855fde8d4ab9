/-
  What pauses leave in the explorer: the query results of a sweep whose runs may end before
  their last query (`_run_single`), the resumes that finish it, and `analyze_results` over
  all of it.

  `_run_single` stores one result for each query, in order, before the run's outcome is
  known, and nothing removes the results of a run that did not complete. Retrieval is a
  function of the parameter set and the query text. A resume is taken to run again exactly
  the unfinished parameter sets.

  Proved: `pause_transparent_iff`. Once every listed parameter set has completed, the
  explorer shows what an unpaused sweep shows if and only if no unfinished run stored a hit.
-/
import RagParamsFinder.Explore.ResultsAnalyzer
import RagParamsFinder.Lib.Worklist

namespace RagParamsFinder

open Documents Grouping

/-! ## The key of a stored run -/

/-- `model or default` on an optional text. -/
def textOr (model : Option String) (default : String) : String :=
  match model with
  | some s => if s = "" then default else s
  | none => default

/-- The configuration key of the runs of a parameter set. -/
def configKey (p : RunParams) : ConfigKey where
  databaseProvider := p.databaseProvider.value
  embeddingProvider := p.embeddingProvider.value
  embeddingModel := p.embeddingModel.name
  chunkingMethod := p.chunkingMethod.value
  chunkSize := p.chunkSize
  overlap := p.overlap
  padding := p.padding
  retrieverType := .text ((p.retrievers.head?.map (·.type.value)).getD p.retrievalMethod.value)
  retrievalProvider := p.retrievalProvider.value
  retrieverModel :=
    .text (textOr (p.retrievers.head?.bind (·.model)) (textOr p.retrievalModel ""))

theorem orElse_textOr (model : Option String) (default : String) :
    ((model.map Value.str).getD .null).orElse (.str default) = .str (textOr model default) := by
  cases model with
  | none => rfl
  | some s =>
      by_cases h : s = ""
      · subst h
        rfl
      · simp [Value.orElse, Value.truthy, textOr, h]

theorem primaryRetriever_of_get {run : Doc} {rs : List RetrieverConfig}
    (h : run.get "retrievers" = .list (rs.map retrieverDump)) (method model : String) :
    primaryRetriever run (.str method) (.str model) =
      .ok (.str ((rs.head?.map (·.type.value)).getD method),
        .str (textOr (rs.head?.bind (·.model)) model)) := by
  unfold primaryRetriever
  rw [h]
  cases rs with
  | nil => rfl
  | cons r rs =>
      simp [retrieverDump, Doc.getDefault, Doc.get, List.lookup_cons, orElse_textOr]

/-- The run document read back through any adapter has the key of its parameters. -/
theorem hashedKey_settledRun (st : RunStateStore) (defaultDatabase e : String)
    (a : RunAttempt) :
    hashedKey defaultDatabase (settledRun st e a).readDoc = .ok (configKey a.params) := by
  have hget := fun k (hup : k ∉ settledKeys) (hid : k ∉ derivedKeys) =>
    get_readDoc_settledRun st e a hup hid
  generalize (settledRun st e a).readDoc = run at hget
  have hmethod : run.item "retrieval_method" = some (.str a.params.retrievalMethod.value) :=
    Doc.item_of_get (hget _ (by decide) (by decide)) (by simp)
  have hmodel : run.get "retrieval_model" =
      (a.params.retrievalModel.map Value.str).getD .null :=
    hget _ (by decide) (by decide)
  have hretrievers : run.get "retrievers" = .list (a.params.retrievers.map retrieverDump) :=
    hget _ (by decide) (by decide)
  have hdb : ∀ d, run.getDefault "database_provider" d =
      .str a.params.databaseProvider.value :=
    Doc.getDefault_of_get (hget _ (by decide) (by decide)) (by simp)
  have hprovider : ∀ d, run.getDefault "embedding_provider" d =
      .str a.params.embeddingProvider.value :=
    Doc.getDefault_of_get (hget _ (by decide) (by decide)) (by simp)
  have hname : run.item "embedding_model" = some (.str a.params.embeddingModel.name) :=
    Doc.item_of_get (hget _ (by decide) (by decide)) (by simp)
  have hchunking : run.item "chunking_method" = some (.str a.params.chunkingMethod.value) :=
    Doc.item_of_get (hget _ (by decide) (by decide)) (by simp)
  have hsize : run.item "chunk_size" = some (.int a.params.chunkSize) :=
    Doc.item_of_get (hget _ (by decide) (by decide)) (by simp)
  have hoverlap : run.item "overlap" = some (.int a.params.overlap) :=
    Doc.item_of_get (hget _ (by decide) (by decide)) (by simp)
  have hpadding : ∀ d, run.getDefault "padding" d = .int a.params.padding :=
    Doc.getDefault_of_get (hget _ (by decide) (by decide)) (by simp)
  have hretrieval : ∀ d, run.getDefault "retrieval_provider" d =
      .str a.params.retrievalProvider.value :=
    Doc.getDefault_of_get (hget _ (by decide) (by decide)) (by simp)
  unfold hashedKey runConfigKey
  rw [hmethod, hmodel, orElse_textOr, hname, hchunking, hsize, hoverlap, hdb, hprovider, hpadding,
    hretrieval]
  simp only [raising, bind, Except.bind, primaryRetriever_of_get hretrievers]
  rfl

/-! ## Runs and the results they store -/

/-- How a run ended, and after how many stored query results when it did not complete.
    `check_control` stands before each query, an error may come from anywhere in the loop. -/
inductive RunEnd where
  | complete
  | interrupted (stored : Nat)
  | failed (stored : Nat)
  deriving DecidableEq, Repr

def RunEnd.phase : RunEnd → Phase
  | .complete => .complete
  | .interrupted _ => .interrupted
  | .failed _ => .failed

/-- The queries whose result a run stored. -/
def RunEnd.answered (queries : List String) : RunEnd → List String
  | .complete => queries
  | .interrupted n => queries.take n
  | .failed n => queries.take n

structure QueriedRun where
  runId : String
  params : RunParams
  ending : RunEnd
  startedAt : Int
  settledAt : Int
  elapsedMs : Int
  errorMessage : Option String

def QueriedRun.attempt (a : QueriedRun) : RunAttempt where
  runId := a.runId
  params := a.params
  phase := a.ending.phase
  startedAt := a.startedAt
  settledAt := a.settledAt
  elapsedMs := a.elapsedMs
  errorMessage := a.errorMessage

def QueriedRun.outcome (a : QueriedRun) : RunParams × RunEnd := (a.params, a.ending)

section Results

variable (retrieve : RunParams → String → List Hit) (queries : List String)

/-- The result rows of one run. -/
def QueriedRun.results (a : QueriedRun) : List QueryResult :=
  (a.ending.answered queries).map fun q => ⟨a.runId, q, retrieve a.params q⟩

/-- Everything stored for an experiment: its runs, and their result rows in the order in
    which the store returns them. -/
structure StoredHistory where
  runs : List QueriedRun
  rows : List QueryResult
  ids : (runs.map (·.runId)).Nodup
  stored : rows.Perm (runs.flatMap (·.results retrieve queries))

variable {retrieve queries}

def StoredHistory.log (h : StoredHistory retrieve queries) : List (RunParams × RunEnd) :=
  h.runs.map (·.outcome)

/-- `analyze_results` over `load_explore_source`. -/
def StoredHistory.explored (h : StoredHistory retrieve queries) (st : RunStateStore)
    (defaultDatabase e : String) (useQueryAvg : Bool) : Option Explored :=
  analyzeResults useQueryAvg defaultDatabase h.rows
    (findRunStatuses (runTable st e (h.runs.map (·.attempt))) e) none

variable (retrieve)

/-- The hits of a parameter set for some queries, under its configuration key. -/
def hitsFor (p : RunParams) (qs : List String) : List MatchedHit :=
  qs.flatMap fun q => (retrieve p q).map fun h => ⟨configKey p, q, h⟩

variable (queries)

/-- The hits that a log leaves stored. -/
def logHits (log : List (RunParams × RunEnd)) : List MatchedHit :=
  log.flatMap fun x => hitsFor retrieve x.1 (x.2.answered queries)

/-- No run that did not complete stored a hit. -/
def NoUnfinishedHits (log : List (RunParams × RunEnd)) : Prop :=
  ∀ x ∈ log, x.2 ≠ .complete → ∀ q ∈ x.2.answered queries, retrieve x.1 q = []

/-! ## The explorer over a stored history -/

/-- The key under which the explorer files the results of a run id. -/
def keyOfRunId (runs : List QueriedRun) (runId : String) : ConfigKey :=
  ((runs.reverse.find? fun a => a.runId == runId).map fun a => configKey a.params).getD
    unknownConfigKey

theorem configKeyOfRun_runTable (st : RunStateStore) (defaultDatabase e : String)
    {runs : List QueriedRun} (h : (runs.map (·.runId)).Nodup) (runId : String) :
    configKeyOfRun defaultDatabase
        (findRunStatuses (runTable st e (runs.map (·.attempt))) e) runId =
      .ok (some (keyOfRunId runs runId)) := by
  have hids : ((runs.map (·.attempt)).map (·.runId)).Nodup := by
    rw [List.map_map]
    exact h
  have hfield : ∀ a : QueriedRun,
      ((settledRun st e a.attempt).readDoc.get "run_id").isStr runId = (a.runId == runId) := by
    intro a
    rw [get_readDoc_settledRun st e a.attempt (by decide) (by decide)]
    rfl
  rw [findRunStatuses_runTable st e hids, List.map_map]
  have hfind : ((runs.map fun a => (settledRun st e a.attempt).readDoc).reverse.find?
      fun run => (run.get "run_id").isStr runId) =
        (runs.reverse.find? fun a => a.runId == runId).map
          fun a => (settledRun st e a.attempt).readDoc := by
    rw [← List.map_reverse, List.find?_map]
    simp only [Function.comp_def, hfield]
  unfold keyOfRunId
  cases hrun : runs.reverse.find? fun a => a.runId == runId with
  | none =>
      rw [hrun] at hfind
      exact configKeyOfRun_of_none hfind
  | some a =>
      rw [hrun] at hfind
      exact configKeyOfRun_of_find hfind (hashedKey_settledRun st defaultDatabase e a.attempt)

/-- The run of a stored result is found again by its id. -/
theorem keyOfRunId_of_mem {runs : List QueriedRun} (h : (runs.map (·.runId)).Nodup)
    {a : QueriedRun} (ha : a ∈ runs) : keyOfRunId runs a.runId = configKey a.params := by
  have hids : (runs.reverse.map (·.runId)).Nodup := by
    rw [List.map_reverse]
    exact List.nodup_reverse.mpr h
  have hfind := (find?_key_eq_some_iff (·.runId) hids).mpr ⟨List.mem_reverse.mpr ha, rfl⟩
  unfold keyOfRunId
  rw [hfind]
  rfl

variable {retrieve queries}

/-- The hits that the explorer matches to their configurations, row by row. -/
def matchedRows (runs : List QueriedRun) (rows : List QueryResult) :
    List (String × MatchedHit) :=
  rows.flatMap fun r =>
    r.results.map fun hit => (r.runId, ⟨keyOfRunId runs r.runId, r.queryText, hit⟩)

theorem StoredHistory.explored_eq (h : StoredHistory retrieve queries) (st : RunStateStore)
    (defaultDatabase e : String) (useQueryAvg : Bool) :
    h.explored st defaultDatabase e useQueryAvg =
      some (explore useQueryAvg (h.rows.map (·.queryText)) (matchedRows h.runs h.rows)) := by
  have hall : selectedResults h.rows none = h.rows := List.filter_eq_self.mpr fun _ _ => rfl
  have heq := analyzeResults_of_keys useQueryAvg defaultDatabase h.rows _ none
    (configKeyOfRun_runTable st defaultDatabase e h.ids)
  rw [hall] at heq
  exact heq

theorem map_snd_matchedRows (runs : List QueriedRun) (rows : List QueryResult) :
    (matchedRows runs rows).map (·.2) = rows.flatMap fun r =>
      r.results.map fun hit => MatchedHit.mk (keyOfRunId runs r.runId) r.queryText hit := by
  simp only [matchedRows, List.map_flatMap, List.map_map, Function.comp_def]

/-- Rows stored run after run are matched to the hits of the log. -/
theorem StoredHistory.matched_in_order (h : StoredHistory retrieve queries) :
    (matchedRows h.runs (h.runs.flatMap (·.results retrieve queries))).map (·.2) =
      logHits retrieve queries h.log := by
  have hrows : ∀ a ∈ h.runs, ((a.results retrieve queries).flatMap fun r =>
      r.results.map fun hit => MatchedHit.mk (keyOfRunId h.runs r.runId) r.queryText hit) =
        hitsFor retrieve a.params (a.ending.answered queries) := by
    intro a ha
    simp only [QueriedRun.results, hitsFor, List.flatMap_map, keyOfRunId_of_mem h.ids ha]
  rw [map_snd_matchedRows, List.flatMap_assoc, List.flatMap_congr hrows]
  simp only [logHits, StoredHistory.log, QueriedRun.outcome, List.flatMap_map]

/-- Whatever order the rows come in, the hits are those of the log. -/
theorem StoredHistory.matched_perm (h : StoredHistory retrieve queries) :
    ((matchedRows h.runs h.rows).map (·.2)).Perm (logHits retrieve queries h.log) := by
  rw [← h.matched_in_order, map_snd_matchedRows, map_snd_matchedRows]
  exact h.stored.flatMap_right _

/-! ## Finished and unfinished runs -/

theorem logHits_append (log log' : List (RunParams × RunEnd)) :
    logHits retrieve queries (log ++ log') =
      logHits retrieve queries log ++ logHits retrieve queries log' :=
  List.flatMap_append

/-- The finished runs of a log stored the hits of their parameter sets for all queries. -/
theorem logHits_finished (log : List (RunParams × RunEnd)) :
    logHits retrieve queries (log.filter (·.2 = .complete)) =
      (Worklist.done .complete log).flatMap fun p => hitsFor retrieve p queries := by
  rw [Worklist.done, List.flatMap_map, logHits]
  refine List.flatMap_congr fun x hx => ?_
  have hc := (List.mem_filter.mp hx).2
  rw [decide_eq_true_iff] at hc
  rw [hc]
  rfl

theorem hitsFor_eq_nil_iff (p : RunParams) (qs : List String) :
    hitsFor retrieve p qs = [] ↔ ∀ q ∈ qs, retrieve p q = [] := by
  simp [hitsFor, List.flatMap_eq_nil_iff]

theorem logHits_unfinished_eq_nil_iff (log : List (RunParams × RunEnd)) :
    logHits retrieve queries (log.filter fun x => !decide (x.2 = .complete)) = [] ↔
      NoUnfinishedHits retrieve queries log := by
  rw [logHits, List.flatMap_eq_nil_iff]
  constructor
  · intro h x hx hne
    exact (hitsFor_eq_nil_iff x.1 _).mp (h x (List.mem_filter.mpr ⟨hx, by simpa using hne⟩))
  · intro h x hx
    obtain ⟨hm, hne⟩ := List.mem_filter.mp hx
    exact (hitsFor_eq_nil_iff x.1 _).mpr (h x hm (by simpa using hne))

/-- What a log leaves stored: the hits of what finished, and those of what did not. -/
theorem logHits_split (log : List (RunParams × RunEnd)) :
    (logHits retrieve queries log).Perm
      ((Worklist.done .complete log).flatMap (fun p => hitsFor retrieve p queries) ++
        logHits retrieve queries (log.filter fun x => !decide (x.2 = .complete))) := by
  rw [← logHits_finished, ← logHits_append]
  exact (List.filter_append_perm (fun x => decide (x.2 = RunEnd.complete)) log).symm.flatMap_right _

/-- Runs without a stored hit leave no trace between the others. -/
theorem logHits_of_noUnfinishedHits {log : List (RunParams × RunEnd)}
    (h : NoUnfinishedHits retrieve queries log) :
    logHits retrieve queries log =
      (Worklist.done .complete log).flatMap fun p => hitsFor retrieve p queries := by
  rw [← logHits_finished]
  induction log with
  | nil => rfl
  | cons x log ih =>
      have hrest := ih fun y hy => h y (List.mem_cons_of_mem _ hy)
      by_cases hx : x.2 = .complete
      · rw [List.filter_cons_of_pos (by simpa using hx)]
        exact congrArg (hitsFor retrieve x.1 (x.2.answered queries) ++ ·) hrest
      · rw [List.filter_cons_of_neg (by simpa using hx), ← hrest]
        have hnil := (hitsFor_eq_nil_iff x.1 _).mpr (h x (List.mem_cons_self ..) hx)
        exact congrArg (· ++ logHits retrieve queries log) hnil

/-! ## Paused against unpaused -/

/-- The runs of a sweep over its pauses, each resume running the unfinished parameter sets. -/
def pausedLog (cfg : ExperimentConfig) (sweeps : List (List RunEnd)) :
    List (RunParams × RunEnd) :=
  Worklist.passes id .complete (expandSweep cfg) sweeps

/-- The runs of the same sweep without any pause. -/
def unpausedLog (cfg : ExperimentConfig) : List (RunParams × RunEnd) :=
  (expandSweep cfg).map fun p => (p, .complete)

theorem logHits_unpausedLog (cfg : ExperimentConfig) :
    logHits retrieve queries (unpausedLog cfg) =
      (expandSweep cfg).flatMap fun p => hitsFor retrieve p queries := by
  simp only [logHits, unpausedLog, List.flatMap_map, RunEnd.answered]

/-- The explorer shows the same for both histories, positions among full ties aside. -/
def ExploredAlike (paused plain : StoredHistory retrieve queries) (st : RunStateStore)
    (defaultDatabase e e₀ : String) (useQueryAvg : Bool) : Prop :=
  ∃ x x₀, paused.explored st defaultDatabase e useQueryAvg = some x ∧
    plain.explored st defaultDatabase e₀ useQueryAvg = some x₀ ∧ SameRanking useQueryAvg x x₀

theorem exploredAlike_iff (paused plain : StoredHistory retrieve queries) (st : RunStateStore)
    (defaultDatabase e e₀ : String) (useQueryAvg : Bool) :
    ExploredAlike paused plain st defaultDatabase e e₀ useQueryAvg ↔
      SameRanking useQueryAvg
        (explore useQueryAvg (paused.rows.map (·.queryText))
          (matchedRows paused.runs paused.rows))
        (explore useQueryAvg (plain.rows.map (·.queryText))
          (matchedRows plain.runs plain.rows)) := by
  unfold ExploredAlike
  rw [paused.explored_eq, plain.explored_eq]
  constructor
  · rintro ⟨x, x₀, hx, hx₀, hs⟩
    cases hx
    cases hx₀
    exact hs
  · intro hs
    exact ⟨_, _, rfl, rfl, hs⟩

theorem exploredAlike_iff_noUnfinishedHits {cfg : ExperimentConfig}
    {paused plain : StoredHistory retrieve queries}
    (hdone : (Worklist.done .complete paused.log).Perm (expandSweep cfg))
    (hplain : plain.log.Perm (unpausedLog cfg)) (st : RunStateStore)
    (defaultDatabase e e₀ : String) (useQueryAvg : Bool) :
    ExploredAlike paused plain st defaultDatabase e e₀ useQueryAvg ↔
      NoUnfinishedHits retrieve queries paused.log := by
  have hall : (logHits retrieve queries plain.log).Perm
      ((Worklist.done .complete paused.log).flatMap fun p => hitsFor retrieve p queries) := by
    refine (hplain.flatMap_right _).trans ?_
    have hflat := @logHits_unpausedLog retrieve queries cfg
    rw [logHits] at hflat
    rw [hflat]
    exact (hdone.flatMap_right _).symm
  have hsplit := @logHits_split retrieve queries paused.log
  rw [exploredAlike_iff, ← logHits_unfinished_eq_nil_iff]
  constructor
  · intro hs
    have htotal := hs.total
    have hp := paused.matched_perm.length_eq
    have hq := plain.matched_perm.length_eq
    have hs₁ := hsplit.length_eq
    have hs₂ := hall.length_eq
    simp only [explore, List.length_map, List.length_append] at htotal hp hq hs₁ hs₂
    rw [← List.length_eq_zero_iff]
    omega
  · intro hnil
    rw [hnil, List.append_nil] at hsplit
    exact sameRanking_of_perm useQueryAvg
      (paused.matched_perm.trans (hsplit.trans (hall.symm.trans plain.matched_perm.symm))) _ _

/-- The rows come as runs one after the other stored them. -/
def StoredHistory.InOrder (h : StoredHistory retrieve queries) : Prop :=
  h.rows = h.runs.flatMap (·.results retrieve queries)

/-- The same list of ranked configurations, and as many matches. -/
def ExploredEqually (paused plain : StoredHistory retrieve queries) (st : RunStateStore)
    (defaultDatabase e e₀ : String) (useQueryAvg : Bool) : Prop :=
  ∃ x x₀, paused.explored st defaultDatabase e useQueryAvg = some x ∧
    plain.explored st defaultDatabase e₀ useQueryAvg = some x₀ ∧
    x.rankedConfigs = x₀.rankedConfigs ∧ x.totalMatches = x₀.totalMatches

theorem exploredAlike_of_equally {paused plain : StoredHistory retrieve queries}
    {st : RunStateStore} {defaultDatabase e e₀ : String} {useQueryAvg : Bool}
    (h : ExploredEqually paused plain st defaultDatabase e e₀ useQueryAvg) :
    ExploredAlike paused plain st defaultDatabase e e₀ useQueryAvg := by
  obtain ⟨x, x₀, hx, hx₀, hr, ht⟩ := h
  exact ⟨x, x₀, hx, hx₀, hr ▸ List.Perm.refl _, by rw [hr], ht⟩

/-- Stored in the sweep's order, without unfinished hits, the lists are the same. -/
theorem exploredEqually_of_inOrder {cfg : ExperimentConfig}
    {paused plain : StoredHistory retrieve queries}
    (hdone : Worklist.done .complete paused.log = expandSweep cfg)
    (hplain : plain.log = unpausedLog cfg) (hp : paused.InOrder) (hq : plain.InOrder)
    (h : NoUnfinishedHits retrieve queries paused.log) (st : RunStateStore)
    (defaultDatabase e e₀ : String) (useQueryAvg : Bool) :
    ExploredEqually paused plain st defaultDatabase e e₀ useQueryAvg := by
  have hhits : (matchedRows paused.runs paused.rows).map (·.2) =
      (matchedRows plain.runs plain.rows).map (·.2) := by
    rw [hp, hq, paused.matched_in_order, plain.matched_in_order, hplain, logHits_unpausedLog,
      logHits_of_noUnfinishedHits h, hdone]
  refine ⟨_, _, paused.explored_eq st defaultDatabase e useQueryAvg,
    plain.explored_eq st defaultDatabase e₀ useQueryAvg, ?_, ?_⟩
  · exact congrArg (rankedConfigs useQueryAvg) hhits
  · have hlen := congrArg List.length hhits
    rwa [List.length_map, List.length_map] at hlen

end Results

/-- Pauses and resumes leave the explorer as an unpaused sweep would, if and only if no
    unfinished run stored a hit: for a configuration without repeated entries whose
    parameter sets have all completed; for any configuration once each parameter set has
    completed as often as listed; and to the letter, when the rows come in sweep order. -/
theorem pause_transparent_iff (retrieve : RunParams → String → List Hit) (queries : List String)
    {cfg : ExperimentConfig} {sweeps : List (List RunEnd)}
    {paused plain : StoredHistory retrieve queries} (hpaused : paused.log = pausedLog cfg sweeps)
    (hplain : plain.log.Perm (unpausedLog cfg)) (st : RunStateStore)
    (defaultDatabase e e₀ : String) (useQueryAvg : Bool) :
    (cfg.NoRepeats → (∀ p ∈ expandSweep cfg, (p, .complete) ∈ paused.log) →
      (ExploredAlike paused plain st defaultDatabase e e₀ useQueryAvg ↔
        NoUnfinishedHits retrieve queries paused.log)) ∧
    ((Worklist.done .complete paused.log).Perm (expandSweep cfg) →
      (ExploredAlike paused plain st defaultDatabase e e₀ useQueryAvg ↔
        NoUnfinishedHits retrieve queries paused.log)) ∧
    (Worklist.done .complete paused.log = expandSweep cfg → plain.log = unpausedLog cfg →
      paused.InOrder → plain.InOrder →
      (ExploredEqually paused plain st defaultDatabase e e₀ useQueryAvg ↔
        NoUnfinishedHits retrieve queries paused.log)) := by
  refine ⟨fun hn hall => ?_, fun hdone => ?_, fun hdone hlog hp hq => ?_⟩
  · rw [hpaused] at hall
    have hdone := Worklist.done_perm (nodup_expandSweep hn) hall
    rw [← pausedLog, ← hpaused] at hdone
    exact exploredAlike_iff_noUnfinishedHits hdone hplain st defaultDatabase e e₀ useQueryAvg
  · exact exploredAlike_iff_noUnfinishedHits hdone hplain st defaultDatabase e e₀ useQueryAvg
  · constructor
    · intro h
      exact (exploredAlike_iff_noUnfinishedHits (hdone ▸ List.Perm.refl _) hplain st
        defaultDatabase e e₀ useQueryAvg).mp (exploredAlike_of_equally h)
    · intro h
      exact exploredEqually_of_inOrder hdone hlog hp hq h st defaultDatabase e e₀ useQueryAvg

/-! ## One run, interrupted after its first query -/

/-- A sweep of one run. -/
def singleRun : ExperimentConfig := miniLmGrid .continue 512 [] [0]

def singleParams : RunParams :=
  runParamsOf singleRun (miniLm, .recursive, 512, 0, 0, RetrieverConfig.dense)

/-- One hit for each query. -/
def oneHit (_ : RunParams) (q : String) : List Hit := [⟨q, "dense", 1 / 2, none⟩]

/-- The run was paused after its first query, and completed on resume. -/
def pausedRuns : List QueriedRun :=
  [⟨"r1", singleParams, .interrupted 1, 0, 5, 5, some "Paused by user"⟩,
   ⟨"r2", singleParams, .complete, 9, 15, 6, none⟩]

def pausedOnce : StoredHistory oneHit ["q1", "q2"] where
  runs := pausedRuns
  rows := pausedRuns.flatMap (·.results oneHit ["q1", "q2"])
  ids := by decide
  stored := List.Perm.refl _

def neverPaused : StoredHistory oneHit ["q1", "q2"] where
  runs := [⟨"r1", singleParams, .complete, 0, 6, 6, none⟩]
  rows := [⟨"r1", singleParams, .complete, 0, 6, 6, none⟩].flatMap
    (QueriedRun.results oneHit ["q1", "q2"])
  ids := by decide
  stored := List.Perm.refl _

theorem pausedOnce_log : pausedOnce.log = pausedLog singleRun [[.interrupted 1], [.complete]] := by
  decide

theorem neverPaused_log : neverPaused.log = unpausedLog singleRun := by
  decide

theorem pause_transparent_iff_pausedOnce :
    ExploredAlike pausedOnce neverPaused .sqlite "mongodb" "e1" "e2" true ↔
      NoUnfinishedHits oneHit ["q1", "q2"] pausedOnce.log :=
  (pause_transparent_iff oneHit ["q1", "q2"] pausedOnce_log
      (neverPaused_log ▸ List.Perm.refl _) .sqlite "mongodb" "e1" "e2" true).1
    (miniLmGrid_noRepeats (by decide) (by decide)) (by decide)

/-- The hit of the interrupted attempt is counted beside the two of the completed one. -/
theorem interrupted_hit_counted :
    pausedOnce.log = pausedLog singleRun [[.interrupted 1], [.complete]] ∧
      (∀ p ∈ expandSweep singleRun, (p, .complete) ∈ pausedOnce.log) ∧
      neverPaused.log = unpausedLog singleRun ∧
      (pausedOnce.explored .sqlite "mongodb" "e1" true).map (·.totalMatches) = some 3 ∧
      (neverPaused.explored .sqlite "mongodb" "e2" true).map (·.totalMatches) = some 2 ∧
      ¬ ExploredAlike pausedOnce neverPaused .sqlite "mongodb" "e1" "e2" true := by
  have hp : (pausedOnce.explored .sqlite "mongodb" "e1" true).map (·.totalMatches) = some 3 := by
    rw [pausedOnce.explored_eq]
    rfl
  have hq : (neverPaused.explored .sqlite "mongodb" "e2" true).map (·.totalMatches) = some 2 := by
    rw [neverPaused.explored_eq]
    rfl
  refine ⟨pausedOnce_log, by decide, neverPaused_log, hp, hq, ?_⟩
  rintro ⟨x, x₀, hx, hx₀, hs⟩
  rw [hx, Option.map_some, Option.some_inj] at hp
  rw [hx₀, Option.map_some, Option.some_inj] at hq
  have htotal := hs.total
  rw [hp, hq] at htotal
  cases htotal

end RagParamsFinder
