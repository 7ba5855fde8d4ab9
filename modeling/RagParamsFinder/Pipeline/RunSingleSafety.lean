/-
  What `_run_single` calls, stores and writes, over every run of it.

  A trace is read as a view: the phases that were written, the text, the chunk documents and
  the result rows that were stored, and whether a control check said stop. The program is
  followed along its view; the embedder is a part of it with a specification of its own.

  Proved: `runSingle_fulfils`, as long as the services that embed answer with one vector for
  each text. A run makes each call in its turn and none after a stop but the write of its phase.
  When it completes, each chunk of its text went into the one insertion, with its own vector,
  and each query has one row with what was found for it; otherwise the run is settled as
  interrupted exactly when a check said stop, unless the write of that phase raised.
-/
import RagParamsFinder.Lifecycle.Runs
import RagParamsFinder.Pipeline.RunSingle

namespace RagParamsFinder

open Programs Embedders Traversals

namespace RunSingle

abbrev RunTrace (σ φ : Type) := Trace σ (RunCall φ) (RunCall.Answer φ)

section

variable {σ φ : Type}

/-! ## Views -/

/-- What a run has done: `stopped` says that a check of its own said stop, `ops` are its
    operations as the lifecycle of a run counts them, without the embedding and the reranking. -/
structure RunView (φ : Type) where
  phases : List (Phase × Option String)
  texts : List Text
  stored : List (List (ChunkDoc φ))
  queries : List (List RunQuery)
  recorded : List QueryRow
  stopped : Bool
  ops : List RunOp

def RunView.start : RunView φ := ⟨[], [], [], [], [], false, []⟩

def RunView.next (v : RunView φ) : Event σ (RunCall φ) (RunCall.Answer φ) → RunView φ
  | ⟨_, .checkControl, signal⟩ =>
      { v with
        stopped := v.stopped || decide (signal ≠ .clear)
        ops := v.ops ++ [.checkControl] }
  | ⟨_, .updatePhase phase message, .ok ()⟩ =>
      { v with
        phases := v.phases ++ [(phase, message)]
        ops := if phase = .reranking then v.ops else v.ops ++ [.updatePhase phase] }
  | ⟨_, .loadAllFiles _, .ok text⟩ => { v with texts := v.texts ++ [text] }
  | ⟨_, .storeChunks docs, .ok ()⟩ =>
      { v with stored := v.stored ++ [docs], ops := v.ops ++ [.storeChunks] }
  | ⟨_, .loadQueries _, .ok queries⟩ => { v with queries := v.queries ++ [queries] }
  | ⟨_, .insertResult row, .ok ()⟩ =>
      { v with recorded := v.recorded ++ [row], ops := v.ops ++ [.insertResult row.queryText] }
  | _ => v

def view (tr : RunTrace σ φ) : RunView φ := tr.foldl RunView.next .start

theorem view_append (tr : RunTrace σ φ) (event : Event σ (RunCall φ) (RunCall.Answer φ)) :
    view (tr ++ [event]) = (view tr).next event := by
  rw [view, List.foldl_append]
  rfl

def embedEvent : Event σ (RunCall φ) (RunCall.Answer φ) →
    Option (Event σ EmbedCall (EmbedCall.Answer φ))
  | ⟨s, .embed call, answer⟩ => some ⟨s, call, answer⟩
  | _ => none

/-- The calls of the embedder. -/
def embedPart (tr : RunTrace σ φ) : EmbedTrace σ φ := tr.filterMap embedEvent

theorem embedPart_append (tr : RunTrace σ φ) (event : Event σ (RunCall φ) (RunCall.Answer φ)) :
    embedPart (tr ++ [event]) = embedPart tr ++ [event].filterMap embedEvent :=
  List.filterMap_append

/-- No check has said stop. -/
def Running (tr : RunTrace σ φ) : Prop :=
  (view tr).stopped = false ∧ AllPassed (embedPart tr)

/-! ## The specification -/

/-- The phases of a run that completes. -/
def pipelinePhases : List (Phase × Option String) :=
  [(.parsing, none), (.chunking, none), (.embedding, none), (.storing, none), (.querying, none),
    (.complete, none)]

/-- The phases without those of the reranking, which may come with each query. -/
def mainPhases (phases : List (Phase × Option String)) : List (Phase × Option String) :=
  phases.filter fun p => p.1 ≠ .reranking

def IsStop : RunRaised → Prop
  | .error _ => False
  | _ => True

variable (setting : RunSetting) (tools : σ → QueryTools φ) (vectorOf : VectorOf φ)

/-- The services that embed keep their promise, and a search and a reranking are answered as the
    store and the models are then. -/
def RunServes (s : σ) : (op : RunCall φ) → RunCall.Answer φ op → Prop
  | .embed call, answer => ServesVectors vectorOf s call answer
  | .search queryText, .ok candidates =>
      searchFirst (tools s) setting.params setting.scope queryText = .ok candidates
  | .rerank queryText candidates, .ok results =>
      rerankFound (tools s) setting.params queryText candidates = .ok results
  | _, _ => True

/-- The requests and the policy of the run's embedder. -/
def RunSetting.requests (chunks : List String) : List EmbedRequest :=
  documentRequests setting.embedding chunks setting.params.embeddingModel
    setting.params.embeddingProvider

def RunSetting.policy : RetryPolicy :=
  retryPolicy setting.embedding setting.params.embeddingProvider

/-- The text has been read, and these are its chunks. -/
def Chunked (tr : RunTrace σ φ) (chunks : List String) : Prop :=
  ∃ text, (view tr).texts = [text] ∧ setting.chunksOf text = some chunks

/-- The chunks have been embedded. -/
def ChunksEmbedded (tr : RunTrace σ φ) (chunks : List String) (embeddings : List (List φ)) :
    Prop :=
  Chunked setting tr chunks ∧
    Embedded vectorOf setting.policy (setting.requests chunks) chunks (embedPart tr) embeddings

/-- The one write of chunks: a document for each chunk, with its vector. -/
def ChunksStored (tr : RunTrace σ φ) : Prop :=
  ∃ chunks embeddings, ChunksEmbedded setting vectorOf tr chunks embeddings ∧
    (view tr).stored = [(setting.chunked chunks embeddings).chunkDocs]

/-- What the first half of a search found for a query. -/
def FoundFirst (q : RunQuery) (candidates : List SearchResult) : Prop :=
  ∃ s, searchFirst (tools s) setting.params setting.scope q.text = .ok candidates

/-- What a search of the store found for a query. -/
def Found (q : RunQuery) (results : List SearchResult) : Prop :=
  ∃ s s', queryResults (toolsAtTimes (tools s) (tools s')) setting.params setting.scope q.text =
    .ok results

/-- The row of a query. -/
def RowOf (q : RunQuery) (row : QueryRow) : Prop :=
  ∃ queryId results, row = queryRow setting queryId q results ∧ Found setting tools q results

/-- The query is the next one that has no row. -/
def NextQuery (tr : RunTrace σ φ) (q : RunQuery) : Prop :=
  ∃ done rest, (view tr).queries = [done ++ q :: rest] ∧
    List.Forall₂ (RowOf setting tools) done (view tr).recorded

/-- What a run may call. -/
inductive RunAllowed (tr : RunTrace σ φ) : RunCall φ → Prop
  | insertRunStatus (first : tr = []) :
      RunAllowed tr (.insertRunStatus setting.runId setting.experimentId setting.params)
  | checkControl (running : Running tr) : RunAllowed tr .checkControl
  | enterPhase {phase : Phase} (running : Running tr)
      (next : mainPhases (view tr).phases ++ [(phase, none)] <+: pipelinePhases)
      (complete : phase = .complete → ∃ queries, (view tr).queries = [queries] ∧
        List.Forall₂ (RowOf setting tools) queries (view tr).recorded) :
      RunAllowed tr (.updatePhase phase none)
  | rerankPhase {q : RunQuery} (running : Running tr) (stored : ChunksStored setting vectorOf tr)
      (next : NextQuery setting tools tr q) (reranks : reranks setting.params = true) :
      RunAllowed tr (.updatePhase .reranking none)
  | settle (e : RunRaised) (unsettled : mainPhases (view tr).phases <+: pipelinePhases)
      (stop : IsStop e ↔ ¬Running tr) :
      RunAllowed tr (.updatePhase (settlement e).1 (some (settlement e).2))
  | loadAllFiles (running : Running tr) : RunAllowed tr (.loadAllFiles setting.params.dataPaths)
  | embed {chunks : List String} {call : EmbedCall} (running : Running tr)
      (chunked : Chunked setting tr chunks)
      (allowed : Allowed setting.policy vectorOf (setting.requests chunks) (embedPart tr) call) :
      RunAllowed tr (.embed call)
  | storeChunks {chunks : List String} {embeddings : List (List φ)} (running : Running tr)
      (embedded : ChunksEmbedded setting vectorOf tr chunks embeddings)
      (once : (view tr).stored = []) :
      RunAllowed tr (.storeChunks (setting.chunked chunks embeddings).chunkDocs)
  | loadQueries (running : Running tr) (stored : ChunksStored setting vectorOf tr) :
      RunAllowed tr (.loadQueries setting.params.queriesFile)
  | newQueryId (running : Running tr) : RunAllowed tr .newQueryId
  | search {q : RunQuery} (running : Running tr) (stored : ChunksStored setting vectorOf tr)
      (next : NextQuery setting tools tr q) : RunAllowed tr (.search q.text)
  | rerank {q : RunQuery} {candidates : List SearchResult} (running : Running tr)
      (next : NextQuery setting tools tr q) (found : FoundFirst setting tools q candidates)
      (some : candidates ≠ []) : RunAllowed tr (.rerank q.text candidates)
  | insertResult {q : RunQuery} {row : QueryRow} (running : Running tr)
      (next : NextQuery setting tools tr q) (own : RowOf setting tools q row) :
      RunAllowed tr (.insertResult row)

/-- The phases of the rerankings of so many queries. -/
def rerankings (n : Nat) : List (Phase × Option String) := List.replicate n (.reranking, none)

/-- A run that returns: `answered` are its queries and its rows. -/
structure Completed (tr : RunTrace σ φ) : Prop where
  running : Running tr
  stored : ChunksStored setting vectorOf tr
  answered : ∃ queries, (view tr).queries = [queries] ∧
    List.Forall₂ (RowOf setting tools) queries (view tr).recorded ∧
    (view tr).ops = (runOps (queries.map (·.text))).filter (· ≠ .embed) ∧
    ∃ n ≤ queries.length, (n ≠ 0 → reranks setting.params = true) ∧
      (view tr).phases = pipelinePhases.take 5 ++ rerankings n ++ [(.complete, none)]

/-- A run that raises: its status row was not inserted, or its phase is written, or that write
    raised. -/
inductive Ended : RunTrace σ φ → RunRaised → Prop
  | noRow (s : σ) (message : String) :
      Ended [⟨s, .insertRunStatus setting.runId setting.experimentId setting.params,
        .error message⟩] (.error message)
  | settled {before : RunTrace σ φ} {e : RunRaised} (s : σ)
      (broken : mainPhases (view before).phases <+: pipelinePhases)
      (stop : IsStop e ↔ ¬Running before) :
      Ended (before ++ [⟨s, .updatePhase (settlement e).1 (some (settlement e).2), .ok ()⟩]) e
  | unsettled {before : RunTrace σ φ} {e : RunRaised} (s : σ) (message : String)
      (broken : mainPhases (view before).phases <+: pipelinePhases)
      (stop : IsStop e ↔ ¬Running before) :
      Ended (before ++ [⟨s, .updatePhase (settlement e).1 (some (settlement e).2),
        .error message⟩]) (.error message)

/-! ## One call -/

/-- The run goes on with the phases in their order. -/
structure Going (v : RunView φ) (inner : EmbedTrace σ φ) : Prop where
  stopped : v.stopped = false
  passed : AllPassed inner
  phases : mainPhases v.phases <+: pipelinePhases

/-- Where a run stands. -/
structure Stands (v : RunView φ) (inner : EmbedTrace σ φ) (tr : RunTrace σ φ) : Prop where
  viewed : view tr = v
  embedded : embedPart tr = inner
  going : Going v inner

/-- What the pipeline raises, before it is settled. -/
def Broken (tr : RunTrace σ φ) (e : RunRaised) : Prop :=
  mainPhases (view tr).phases <+: pipelinePhases ∧ (IsStop e ↔ ¬Running tr)

variable {setting tools vectorOf} {v : RunView φ} {inner : EmbedTrace σ φ} {tr : RunTrace σ φ}

theorem Stands.running (h : Stands v inner tr) : Running tr :=
  ⟨h.viewed ▸ h.going.stopped, h.embedded ▸ h.going.passed⟩

theorem Stands.broken (h : Stands v inner tr) (message : String) :
    Broken tr (.error message) :=
  ⟨h.viewed ▸ h.going.phases, iff_of_false id (not_not_intro h.running)⟩

/-- A call that is none of the embedder's. -/
theorem Stands.append (h : Stands v inner tr) (event : Event σ (RunCall φ) (RunCall.Answer φ))
    (hevent : embedEvent event = none) (hgoing : Going (v.next event) inner) :
    Stands (v.next event) inner (tr ++ [event]) := by
  refine ⟨?_, ?_, hgoing⟩
  · rw [view_append, h.viewed]
  · rw [embedPart_append, List.filterMap_cons_none hevent, h.embedded]
    exact List.append_nil inner

/-- A call that changes nothing, as one that raises. -/
theorem Stands.same (h : Stands v inner tr) (event : Event σ (RunCall φ) (RunCall.Answer φ))
    (hevent : embedEvent event = none) (hnext : v.next event = v) :
    Stands v inner (tr ++ [event]) := by
  have hgoing : Going (v.next event) inner := hnext.symm ▸ h.going
  have happend := h.append event hevent hgoing
  rwa [hnext] at happend

def RunView.checked (v : RunView φ) : RunView φ := { v with ops := v.ops ++ [.checkControl] }

theorem next_clear (v : RunView φ) (s : σ) :
    v.next ⟨s, .checkControl, .clear⟩ = v.checked := by
  simp [RunView.next, RunView.checked]

theorem fulfils_checkControl (h : Stands v inner tr) :
    Fulfils (RunServes setting tools vectorOf) (RunAllowed setting tools vectorOf)
      (fun tr _ => Stands v.checked inner tr) Broken tr (checkControl (φ := φ)) := by
  have hstop : ∀ (s : σ) (signal : Signal), signal ≠ .clear →
      mainPhases (view (tr ++ [⟨s, .checkControl, signal⟩])).phases <+: pipelinePhases ∧
        ¬Running (tr ++ [⟨s, .checkControl, signal⟩]) := by
    intro s signal hsignal
    rw [Running, view_append, h.viewed]
    refine ⟨h.going.phases, fun hrun => ?_⟩
    have hfalse : (v.stopped || decide (signal ≠ .clear)) = false := hrun.1
    simp [hsignal] at hfalse
  refine ⟨.checkControl h.running, fun s signal _ => ?_⟩
  cases signal with
  | clear =>
      rw [← next_clear v s]
      refine h.append _ rfl ?_
      rw [next_clear]
      exact ⟨h.going.stopped, h.going.passed, h.going.phases⟩
  | cancelled =>
      obtain ⟨hphases, hnot⟩ := hstop s .cancelled nofun
      exact ⟨hphases, iff_of_true trivial hnot⟩
  | paused =>
      obtain ⟨hphases, hnot⟩ := hstop s .paused nofun
      exact ⟨hphases, iff_of_true trivial hnot⟩

def RunView.wrote (v : RunView φ) (phase : Phase) : RunView φ :=
  { v with
    phases := v.phases ++ [(phase, none)]
    ops := if phase = .reranking then v.ops else v.ops ++ [.updatePhase phase] }

theorem mainPhases_append (xs ys : List (Phase × Option String)) :
    mainPhases (xs ++ ys) = mainPhases xs ++ mainPhases ys :=
  List.filter_append xs ys

theorem fulfils_wrote {phase : Phase} (h : Stands v inner tr)
    (hallowed : RunAllowed setting tools vectorOf tr (.updatePhase phase none))
    (hnext : mainPhases (v.phases ++ [(phase, none)]) <+: pipelinePhases) :
    Fulfils (RunServes setting tools vectorOf) (RunAllowed setting tools vectorOf)
      (fun tr _ => Stands (v.wrote phase) inner tr) Broken tr
      (updatePhase (φ := φ) phase none) := by
  refine ⟨hallowed, fun s answer _ => ?_⟩
  cases answer with
  | ok u =>
      exact h.append ⟨s, .updatePhase phase none, .ok ()⟩ rfl
        ⟨h.going.stopped, h.going.passed, hnext⟩
  | error message =>
      exact (h.same ⟨s, .updatePhase phase none, .error message⟩ rfl rfl).broken message

theorem fulfils_updatePhase {phase : Phase} (h : Stands v inner tr)
    (hphase : phase ≠ .reranking)
    (hnext : mainPhases v.phases ++ [(phase, none)] <+: pipelinePhases)
    (hcomplete : phase = .complete → ∃ queries, v.queries = [queries] ∧
      List.Forall₂ (RowOf setting tools) queries v.recorded) :
    Fulfils (RunServes setting tools vectorOf) (RunAllowed setting tools vectorOf)
      (fun tr _ => Stands (v.wrote phase) inner tr) Broken tr
      (updatePhase (φ := φ) phase none) := by
  refine fulfils_wrote h (.enterPhase h.running (h.viewed ▸ hnext) (h.viewed ▸ hcomplete)) ?_
  have hmain : mainPhases [(phase, none)] = [(phase, none)] :=
    List.filter_cons_of_pos (by simpa using hphase)
  rw [mainPhases_append, hmain]
  exact hnext

theorem fulfils_enterPhase {phase : Phase} (h : Stands v inner tr)
    (hphase : phase ≠ .reranking ∧ phase ≠ .complete)
    (hnext : mainPhases v.phases ++ [(phase, none)] <+: pipelinePhases) :
    Fulfils (RunServes setting tools vectorOf) (RunAllowed setting tools vectorOf)
      (fun tr _ => Stands (v.checked.wrote phase) inner tr) Broken tr
      (enterPhase (φ := φ) phase) :=
  fulfils_bind (fulfils_checkControl h) fun _ _ h =>
    fulfils_updatePhase h hphase.1 hnext fun heq => absurd heq hphase.2

/-! ## The embedding -/

/-- A check of the embedder that says stop ends it. -/
theorem not_allPassed {before : EmbedTrace σ φ} {s : σ} {signal : Signal}
    (hsignal : signal ≠ .clear) : ¬AllPassed (before ++ [⟨s, .cancelCheck, signal⟩]) := fun h =>
  hsignal (h ⟨s, .cancelCheck, signal⟩ (List.mem_append_right _ (List.mem_singleton_self _)))

theorem isStop_ofRaised {policy : RetryPolicy} {requests : List EmbedRequest}
    (hrun : (view tr).stopped = false) {e : Embedders.Raised}
    (hexplained : Explained policy vectorOf requests (embedPart tr) e)
    (hstopped : StoppedOr (embedPart tr) e) : IsStop (ofRaised e) ↔ ¬Running tr := by
  have hgoes : ∀ message, StoppedOr (embedPart tr) e → e ≠ .cancelled → e ≠ .paused →
      (IsStop (.error message) ↔ ¬Running tr) := fun message h hcancelled hpaused =>
    iff_of_false id (not_not_intro ⟨hrun, (h.resolve_left hcancelled).resolve_left hpaused⟩)
  cases hexplained with
  | cancelled h =>
      have hne : Signal.cancelled ≠ .clear := by decide
      exact iff_of_true trivial fun hrunning => not_allPassed hne (h ▸ hrunning.2)
  | paused h =>
      have hne : Signal.paused ≠ .clear := by decide
      exact iff_of_true trivial fun hrunning => not_allPassed hne (h ▸ hrunning.2)
  | service | indexError | keyError | typeError | valueError | sieUnavailable =>
      exact hgoes _ hstopped nofun nofun

theorem fulfils_embedChunksOf {chunks : List String} (h : Stands v [] tr)
    (hchunked : Chunked setting tr chunks) :
    Fulfils (RunServes setting tools vectorOf) (RunAllowed setting tools vectorOf)
      (fun tr embeddings => ∃ inner, Stands v inner tr ∧
        ChunksEmbedded setting vectorOf tr chunks embeddings) Broken tr
      (embedChunksOf setting chunks) := by
  have htexts : ∀ tr : RunTrace σ φ, view tr = v → Chunked setting tr chunks := by
    intro tr' hview
    rw [Chunked, hview, ← h.viewed]
    exact hchunked
  have hembed : Fulfils (ServesVectors vectorOf)
      (fun tr op => Allowed setting.policy vectorOf (setting.requests chunks) tr op ∧
        Heeds (sendLimit setting.params.embeddingProvider) tr op)
      (fun tr embeddings => Embedded vectorOf setting.policy (setting.requests chunks) chunks tr
        embeddings ∧ AllPassed tr)
      (fun tr e => Explained setting.policy vectorOf (setting.requests chunks) tr e ∧
        StoppedOr tr e) (embedPart tr) (embedDocuments setting.embedding
        setting.params.embeddingProvider chunks setting.params.embeddingModel) := by
    rw [h.embedded]
    exact (fulfils_embedDocuments setting.embedding vectorOf _ chunks _).and
      (heeds_embedDocuments setting.embedding _ chunks _)
  refine (fulfils_lift embedPart (fun tr => view tr = v) (fun tr s op answer => ?_)
    (fun s op answer ha => ha) (fun tr op hview hok => ?_) (fun tr s op answer hview => ?_)
    h.viewed hembed).mono (fun tr embeddings hpost => ?_) fun tr e hexc => ?_
  · exact embedPart_append tr _
  · exact .embed ⟨hview ▸ h.going.stopped, hok.2.1⟩ (htexts tr hview) hok.1
  · rw [view_append, hview]
    rfl
  · obtain ⟨hview, hembedded, hpassed⟩ := hpost
    exact ⟨embedPart tr, ⟨hview, rfl, h.going.stopped, hpassed, h.going.phases⟩,
      htexts tr hview, hembedded⟩
  · obtain ⟨hview, raised, rfl, hexplained, hstopped⟩ := hexc
    exact ⟨hview ▸ h.going.phases,
      isStop_ofRaised (hview ▸ h.going.stopped) hexplained hstopped⟩

/-! ## The queries -/

def RunView.reranked (v : RunView φ) (n : Nat) : RunView φ :=
  { v with phases := v.phases ++ rerankings n }

def RunView.answered (v : RunView φ) (row : QueryRow) : RunView φ :=
  { v with recorded := v.recorded ++ [row], ops := v.ops ++ [.insertResult row.queryText] }

variable (setting tools vectorOf) in
/-- The chunks are stored and the query is the next one, wherever the view is as in `v`. -/
structure Querying (v : RunView φ) (inner : EmbedTrace σ φ) (q : RunQuery) : Prop where
  stored : ∀ tr : RunTrace σ φ, (view tr).texts = v.texts → (view tr).stored = v.stored →
    embedPart tr = inner → ChunksStored setting vectorOf tr
  next : ∃ done rest, v.queries = [done ++ q :: rest] ∧
    List.Forall₂ (RowOf setting tools) done v.recorded

theorem Querying.nextQuery {q : RunQuery} (hq : Querying setting tools vectorOf v inner q)
    (h : Stands v inner tr) : NextQuery setting tools tr q := by
  obtain ⟨done, rest, hqueries, hrows⟩ := hq.next
  exact ⟨done, rest, h.viewed ▸ hqueries, h.viewed ▸ hrows⟩

theorem Querying.chunksStored {q : RunQuery} (hq : Querying setting tools vectorOf v inner q)
    (h : Stands v inner tr) : ChunksStored setting vectorOf tr :=
  hq.stored tr (h.viewed ▸ rfl) (h.viewed ▸ rfl) h.embedded

theorem mainPhases_rerankings (n : Nat) : mainPhases (rerankings n) = [] := by
  refine List.filter_eq_nil_iff.mpr fun p hp => ?_
  rw [List.eq_of_mem_replicate hp]
  decide

theorem fulfils_rerank {q : RunQuery} {candidates : List SearchResult} (h : Stands v inner tr)
    (hq : Querying setting tools vectorOf v inner q) (hreranks : reranks setting.params = true)
    (hsome : candidates ≠ []) {s : σ}
    (hfirst : searchFirst (tools s) setting.params setting.scope q.text = .ok candidates) :
    Fulfils (RunServes setting tools vectorOf) (RunAllowed setting tools vectorOf)
      (fun tr results => Found setting tools q results ∧ Stands (v.reranked 1) inner tr) Broken tr
      (updatePhase (φ := φ) .reranking none >>= fun _ =>
        .call (.rerank q.text candidates) orRaise) := by
  have hmain : mainPhases (v.phases ++ rerankings 1) <+: pipelinePhases := by
    rw [mainPhases_append, mainPhases_rerankings, List.append_nil]
    exact h.going.phases
  have hq' : Querying setting tools vectorOf (v.reranked 1) inner q := ⟨hq.stored, hq.next⟩
  refine fulfils_bind (fulfils_wrote h (.rerankPhase h.running (hq.chunksStored h)
    (hq.nextQuery h) hreranks) hmain) fun tr₁ _ h₁ => ?_
  have h₁ : Stands (v.reranked 1) inner tr₁ := h₁
  refine ⟨.rerank h₁.running (hq'.nextQuery h₁) ⟨s, hfirst⟩ hsome, fun s' answer ha => ?_⟩
  cases answer with
  | error message =>
      exact (h₁.same ⟨s', .rerank q.text candidates, .error message⟩ rfl rfl).broken message
  | ok results =>
      refine ⟨⟨s, s', queryResults_of_halves hfirst ?_⟩,
        h₁.same ⟨s', .rerank q.text candidates, .ok results⟩ rfl rfl⟩
      rw [if_pos ⟨hreranks, hsome⟩]
      exact ha

theorem fulfils_searchResults {q : RunQuery} (h : Stands v inner tr)
    (hq : Querying setting tools vectorOf v inner q) :
    Fulfils (RunServes setting tools vectorOf) (RunAllowed setting tools vectorOf)
      (fun tr results => Found setting tools q results ∧
        ∃ n ≤ 1, (n ≠ 0 → reranks setting.params = true) ∧ Stands (v.reranked n) inner tr)
      Broken tr (searchResults setting q) := by
  refine ⟨.search h.running (hq.chunksStored h) (hq.nextQuery h), fun s answer ha => ?_⟩
  cases answer with
  | error message =>
      exact (h.same ⟨s, .search q.text, .error message⟩ rfl rfl).broken message
  | ok candidates =>
      have h₁ := h.same ⟨s, .search q.text, .ok candidates⟩ rfl rfl
      change Fulfils _ _ _ _ _ (if reranks setting.params ∧ candidates ≠ [] then _ else _)
      by_cases hrerank : reranks setting.params = true ∧ candidates ≠ []
      · rw [if_pos hrerank]
        exact (fulfils_rerank h₁ hq hrerank.1 hrerank.2 ha).mono
          (fun _ _ ⟨hfound, h₂⟩ => ⟨hfound, 1, le_rfl, fun _ => hrerank.1, h₂⟩) fun _ _ he => he
      · rw [if_neg hrerank]
        refine ⟨⟨s, s, queryResults_of_halves ha ?_⟩, 0, Nat.zero_le _, absurd rfl, ?_⟩
        · rw [if_neg hrerank]
        · rw [RunView.reranked, rerankings, List.replicate_zero, List.append_nil]
          exact h₁

/-- The body of the loop adds the row of its query. -/
theorem fulfils_runQuery {q : RunQuery} (h : Stands v inner tr)
    (hq : Querying setting tools vectorOf v inner q) :
    Fulfils (RunServes setting tools vectorOf) (RunAllowed setting tools vectorOf)
      (fun tr _ => ∃ row, RowOf setting tools q row ∧ row.queryText = q.text ∧
        ∃ n ≤ 1, (n ≠ 0 → reranks setting.params = true) ∧
          Stands ((v.checked.reranked n).answered row) inner tr) Broken tr
      (runQuery setting q) := by
  refine fulfils_bind (fulfils_checkControl h) fun tr₁ _ h₁ => ?_
  refine ⟨.newQueryId h₁.running, fun s queryId _ => ?_⟩
  have h₂ := h₁.same ⟨s, .newQueryId, queryId⟩ rfl rfl
  change Fulfils _ _ _ _ _ (searchResults setting q >>= _)
  refine fulfils_bind (fulfils_searchResults h₂ ⟨hq.stored, hq.next⟩) fun tr₃ results hpost => ?_
  obtain ⟨hfound, n, hn, hreranks, h₃⟩ := hpost
  have hq' : Querying setting tools vectorOf (v.checked.reranked n) inner q :=
    ⟨hq.stored, hq.next⟩
  have hrow : RowOf setting tools q (queryRow setting queryId q results) :=
    ⟨queryId, results, rfl, hfound⟩
  refine ⟨.insertResult h₃.running (hq'.nextQuery h₃) hrow, fun s' answer _ => ?_⟩
  cases answer with
  | error message =>
      exact (h₃.same ⟨s', .insertResult (queryRow setting queryId q results),
        .error message⟩ rfl rfl).broken message
  | ok u =>
      exact ⟨_, hrow, rfl, n, hn, hreranks, h₃.append
        ⟨s', .insertResult (queryRow setting queryId q results), .ok ()⟩ rfl
        ⟨h₃.going.stopped, h₃.going.passed, h₃.going.phases⟩⟩

/-- The operations of a query. -/
def queryOps (q : RunQuery) : List RunOp := [.checkControl, .insertResult q.text]

/-- The view after some queries, `n` of which were reranked. -/
def RunView.queried (v : RunView φ) (done : List RunQuery) (rows : List QueryRow) (n : Nat) :
    RunView φ :=
  { v with
    phases := v.phases ++ rerankings n
    recorded := rows
    ops := v.ops ++ done.flatMap queryOps }

theorem answered_queried (v : RunView φ) {done : List RunQuery} {rows : List QueryRow} (m n : Nat)
    {q : RunQuery} {row : QueryRow} (htext : row.queryText = q.text) :
    (((v.queried done rows m).checked.reranked n).answered row) =
      v.queried (done ++ [q]) (rows ++ [row]) (m + n) := by
  have hphases : v.phases ++ rerankings m ++ rerankings n = v.phases ++ rerankings (m + n) := by
    rw [List.append_assoc, rerankings, rerankings, rerankings, List.replicate_append_replicate]
  have hops : v.ops ++ done.flatMap queryOps ++ [.checkControl] ++ [.insertResult row.queryText] =
      v.ops ++ (done ++ [q]).flatMap queryOps := by
    rw [List.flatMap_append, List.flatMap_singleton, htext]
    simp only [queryOps, List.append_assoc, List.cons_append, List.nil_append]
  change RunView.mk _ _ _ _ _ _ _ = RunView.mk _ _ _ _ _ _ _
  rw [← hphases, ← hops]
  rfl

variable (setting tools) in
/-- After these queries: a row for each, and no more rerankings than queries. -/
def Queried (v : RunView φ) (inner : EmbedTrace σ φ) (done : List RunQuery) (tr : RunTrace σ φ) :
    Prop :=
  ∃ rows, List.Forall₂ (RowOf setting tools) done rows ∧
    ∃ n ≤ done.length, (n ≠ 0 → reranks setting.params = true) ∧
      Stands (v.queried done rows n) inner tr

/-- The loop answers all queries, in order. -/
theorem fulfils_queries {queries : List RunQuery} (h : Stands v inner tr)
    (hstored : ∀ tr : RunTrace σ φ, (view tr).texts = v.texts → (view tr).stored = v.stored →
      embedPart tr = inner → ChunksStored setting vectorOf tr)
    (hqueries : v.queries = [queries]) (hnone : v.recorded = []) :
    Fulfils (RunServes setting tools vectorOf) (RunAllowed setting tools vectorOf)
      (fun tr _ => Queried setting tools v inner queries tr) Broken tr
      (foldM (fun _ q => runQuery setting q) () queries) := by
  refine fulfils_foldM (fun done tr _ => Queried setting tools v inner done tr) queries
    (fun done q rest hdone tr _ hinv => ?_) [] queries rfl tr ()
    ⟨[], .nil, 0, le_rfl, absurd rfl, ?_⟩
  · obtain ⟨rows, hrows, m, hm, hreranks, hstands⟩ := hinv
    have hq : Querying setting tools vectorOf (v.queried done rows m) inner q :=
      ⟨hstored, done, rest, hdone ▸ hqueries, hrows⟩
    refine (fulfils_runQuery hstands hq).mono (fun tr _ hpost => ?_) fun _ _ he => he
    obtain ⟨row, hrow, htext, n, hn, hreranks', hstands'⟩ := hpost
    rw [answered_queried v m n htext] at hstands'
    refine ⟨rows ++ [row], List.rel_append hrows (.cons hrow .nil), m + n, ?_, ?_, hstands'⟩
    · rw [List.length_append]
      exact Nat.add_le_add hm hn
    · intro hne
      by_cases hm0 : m = 0
      · exact hreranks' fun hn0 => hne (by rw [hm0, hn0])
      · exact hreranks hm0
  · rw [RunView.queried, ← hnone, List.flatMap_nil, rerankings, List.replicate_zero,
      List.append_nil, List.append_nil]
    exact h

/-! ## The pipeline -/

/-- A run that embeds its chunks. -/
def embeddingView (text : Text) : RunView φ where
  phases := pipelinePhases.take 3
  texts := [text]
  stored := []
  queries := []
  recorded := []
  stopped := false
  ops := [.checkControl, .updatePhase .parsing, .checkControl, .updatePhase .chunking,
    .checkControl, .updatePhase .embedding]

/-- A run that has stored its chunks. -/
def storedView (text : Text) (docs : List (ChunkDoc φ)) : RunView φ where
  phases := pipelinePhases.take 4
  texts := [text]
  stored := [docs]
  queries := []
  recorded := []
  stopped := false
  ops := (embeddingView (φ := φ) text).ops ++ [.checkControl, .updatePhase .storing, .storeChunks]

theorem ChunksEmbedded.congr {chunks : List String} {embeddings : List (List φ)}
    (h : ChunksEmbedded setting vectorOf tr chunks embeddings) {tr' : RunTrace σ φ}
    (htexts : (view tr').texts = (view tr).texts) (hpart : embedPart tr' = embedPart tr) :
    ChunksEmbedded setting vectorOf tr' chunks embeddings := by
  obtain ⟨⟨text, htext, hchunks⟩, hembedded⟩ := h
  exact ⟨⟨text, htexts.trans htext, hchunks⟩, hpart ▸ hembedded⟩

theorem runOps_eq (queries : List RunQuery) :
    (runOps (queries.map (·.text))).filter (· ≠ .embed) =
      (embeddingView (φ := φ) []).ops ++ [.checkControl, .updatePhase .storing, .storeChunks] ++
        [.checkControl] ++ [.updatePhase .querying] ++ queries.flatMap queryOps ++
        [.updatePhase .complete] := by
  have hqueries : ∀ queries : List RunQuery,
      ((queries.map (·.text)).flatMap fun q => [RunOp.checkControl, .insertResult q]).filter
        (· ≠ .embed) = queries.flatMap queryOps := by
    intro queries
    induction queries with
    | nil => rfl
    | cons q rest ih =>
        rw [List.map_cons, List.flatMap_cons, List.filter_append, ih]
        rfl
  rw [runOps, List.filter_append, List.filter_append, hqueries]
  rfl

/-- From the stored chunks on. -/
theorem fulfils_queryPhase {text : Text} {docs : List (ChunkDoc φ)}
    (h : Stands (storedView text docs) inner tr)
    (hstored : ∀ tr : RunTrace σ φ, (view tr).texts = [text] → (view tr).stored = [docs] →
      embedPart tr = inner → ChunksStored setting vectorOf tr) :
    Fulfils (RunServes setting tools vectorOf) (RunAllowed setting tools vectorOf)
      (fun tr _ => Completed setting tools vectorOf tr) Broken tr (do
        enterPhase .querying
        let queries ← .call (.loadQueries setting.params.queriesFile) orRaise
        foldM (fun _ q => runQuery setting q) () queries
        updatePhase .complete none) := by
  refine fulfils_bind (fulfils_enterPhase h ⟨by decide, by decide⟩
    ⟨[(.complete, none)], rfl⟩) fun tr₁ _ h₁ => ?_
  refine ⟨.loadQueries h₁.running (hstored tr₁ (h₁.viewed ▸ rfl) (h₁.viewed ▸ rfl) h₁.embedded),
    fun s answer _ => ?_⟩
  cases answer with
  | error message =>
      exact (h₁.same ⟨s, .loadQueries setting.params.queriesFile, .error message⟩ rfl
        rfl).broken message
  | ok queries =>
      have h₂ := h₁.append ⟨s, .loadQueries setting.params.queriesFile, .ok queries⟩ rfl
        ⟨h₁.going.stopped, h₁.going.passed, h₁.going.phases⟩
      change Fulfils _ _ _ _ _ (foldM (fun _ q => runQuery setting q) () queries >>= _)
      refine fulfils_bind (fulfils_queries h₂ hstored rfl rfl) fun tr₃ _ hqueried => ?_
      obtain ⟨rows, hrows, n, hn, hreranks, h₃⟩ := hqueried
      have hmain : mainPhases (pipelinePhases.take 5 ++ rerankings n) = pipelinePhases.take 5 := by
        rw [mainPhases_append, mainPhases_rerankings, List.append_nil]
        rfl
      have hnext : mainPhases (pipelinePhases.take 5 ++ rerankings n) ++ [(.complete, none)] <+:
          pipelinePhases := by
        rw [hmain]
        exact ⟨[], rfl⟩
      refine (fulfils_updatePhase h₃ (by decide) hnext fun _ => ⟨queries, rfl, hrows⟩).mono
        (fun tr _ h₄ => ?_) fun _ _ he => he
      refine ⟨h₄.running, hstored tr (h₄.viewed ▸ rfl) (h₄.viewed ▸ rfl) h₄.embedded, queries, ?_⟩
      rw [h₄.viewed, runOps_eq (φ := φ)]
      exact ⟨rfl, hrows, rfl, n, hn, hreranks, rfl⟩

/-- From the embedded chunks on. -/
theorem fulfils_storePhase {text : Text} {chunks : List String} {embeddings : List (List φ)}
    (h : Stands (embeddingView text) inner tr)
    (hembedded : ChunksEmbedded setting vectorOf tr chunks embeddings) :
    Fulfils (RunServes setting tools vectorOf) (RunAllowed setting tools vectorOf)
      (fun tr _ => Completed setting tools vectorOf tr) Broken tr (do
        enterPhase .storing
        .call (.storeChunks (setting.chunked chunks embeddings).chunkDocs) orRaise
        enterPhase .querying
        let queries ← .call (.loadQueries setting.params.queriesFile) orRaise
        foldM (fun _ q => runQuery setting q) () queries
        updatePhase .complete none) := by
  have hlater : ∀ tr' : RunTrace σ φ, (view tr').texts = [text] → embedPart tr' = inner →
      ChunksEmbedded setting vectorOf tr' chunks embeddings := fun tr' htexts hpart =>
    hembedded.congr (htexts.trans (h.viewed ▸ rfl)) (hpart.trans h.embedded.symm)
  refine fulfils_bind (fulfils_enterPhase h ⟨by decide, by decide⟩
    ⟨pipelinePhases.drop 4, rfl⟩) fun tr₁ _ h₁ => ?_
  refine ⟨.storeChunks h₁.running (hlater tr₁ (h₁.viewed ▸ rfl) h₁.embedded) (h₁.viewed ▸ rfl),
    fun s answer _ => ?_⟩
  cases answer with
  | error message =>
      exact (h₁.same ⟨s, .storeChunks _, .error message⟩ rfl rfl).broken message
  | ok u =>
      have h₂ : Stands (storedView text (setting.chunked chunks embeddings).chunkDocs) inner _ :=
        h₁.append ⟨s, .storeChunks _, .ok ()⟩ rfl
          ⟨h₁.going.stopped, h₁.going.passed, h₁.going.phases⟩
      exact fulfils_queryPhase h₂ fun tr' htexts hdocs hpart =>
        ⟨chunks, embeddings, hlater tr' htexts hpart, hdocs⟩

theorem fulfils_pipeline (h : Stands .start [] tr) :
    Fulfils (RunServes setting tools vectorOf) (RunAllowed setting tools vectorOf)
      (fun tr _ => Completed setting tools vectorOf tr) Broken tr (pipeline setting) := by
  refine fulfils_bind (fulfils_enterPhase h ⟨by decide, by decide⟩
    ⟨pipelinePhases.drop 1, rfl⟩) fun tr₁ _ h₁ => ?_
  refine ⟨.loadAllFiles h₁.running, fun s answer _ => ?_⟩
  cases answer with
  | error message =>
      exact (h₁.same ⟨s, .loadAllFiles setting.params.dataPaths, .error message⟩ rfl
        rfl).broken message
  | ok text =>
      have h₂ := h₁.append ⟨s, .loadAllFiles setting.params.dataPaths, .ok text⟩ rfl
        ⟨h₁.going.stopped, h₁.going.passed, h₁.going.phases⟩
      change Fulfils _ _ _ _ _ (enterPhase .chunking >>= _)
      refine fulfils_bind (fulfils_enterPhase h₂ ⟨by decide, by decide⟩
        ⟨pipelinePhases.drop 2, rfl⟩) fun tr₃ _ h₃ => ?_
      cases hchunks : setting.chunksOf text with
      | none =>
          rw [chunkOrRaise, hchunks]
          exact h₃.broken setting.chunkError
      | some chunks =>
          rw [chunkOrRaise, hchunks]
          change Fulfils _ _ _ _ _ (enterPhase .embedding >>= _)
          refine fulfils_bind (fulfils_enterPhase h₃ ⟨by decide, by decide⟩
            ⟨pipelinePhases.drop 3, rfl⟩) fun tr₄ _ h₄ => ?_
          have h₄ : Stands (embeddingView text) [] tr₄ := h₄
          have hchunked : Chunked setting tr₄ chunks := ⟨text, h₄.viewed ▸ rfl, hchunks⟩
          refine fulfils_bind (fulfils_embedChunksOf h₄ hchunked) fun tr₅ embeddings hpost => ?_
          obtain ⟨inner, h₅, hembedded⟩ := hpost
          exact fulfils_storePhase h₅ hembedded

/-! ## The run -/

/-- The handlers write the phase and raise again. -/
theorem fulfils_settle {e : RunRaised} (h : Broken tr e) :
    Fulfils (RunServes setting tools vectorOf) (RunAllowed setting tools vectorOf)
      (fun tr _ => Completed setting tools vectorOf tr) (Ended setting) tr
      (settle (φ := φ) e) := by
  refine ⟨.settle e h.1 h.2, fun s answer _ => ?_⟩
  cases answer with
  | ok u => exact .settled s h.1 h.2
  | error message => exact .unsettled s message h.1 h.2

/-- **A run of the pipeline.** The services that embed keep their promise; the stores and the
    control answer anything. Each call of a run is made in its turn. When the run returns, the one
    insertion, which returned, held each chunk of its text with its own vector, and each query has
    one row, with what a search found for it. When it raises, its phase is written last:
    interrupted exactly when a check said stop. -/
theorem runSingle_fulfils (setting : RunSetting) (tools : σ → QueryTools φ)
    (vectorOf : VectorOf φ) :
    Fulfils (RunServes setting tools vectorOf) (RunAllowed setting tools vectorOf)
      (fun tr _ => Completed setting tools vectorOf tr) (Ended setting) [] (runSingle setting) := by
  refine ⟨.insertRunStatus rfl, fun s answer _ => ?_⟩
  cases answer with
  | error message => exact .noRow s message
  | ok u =>
      have h : Stands (σ := σ) (.start : RunView φ) []
          [⟨s, .insertRunStatus setting.runId setting.experimentId setting.params, .ok ()⟩] :=
        ⟨rfl, rfl, rfl, nofun, List.nil_prefix⟩
      exact fulfils_handle (fulfils_pipeline h) fun tr e he => fulfils_settle he

end

/-! ## A run that completes and a run that is cancelled -/

section Aid

/-- Dense retrieval with a cross-encoder behind it. -/
def crossEncoded : RetrieverConfig :=
  ⟨.crossEncoder, some .localProvider, some "cross-encoder/ms-marco-MiniLM-L-6-v2", rfl⟩

/-- Chunks of ten characters, embedded with SIE. -/
def aidConfig : ExperimentConfig where
  databaseProvider := .mongodb
  dataPaths := ["docs"]
  queriesFile := "queries.json"
  embedding := ⟨some .sie, [stella], rfl⟩
  chunking := ⟨[.fixed], ⟨[10], [0], [], List.cons_ne_nil 10 []⟩⟩
  retrieval := ⟨20, 5, [crossEncoded]⟩
  execution := gridOnOneWorker .stop
  valid := rfl

def aidSetting : RunSetting where
  experimentId := "ad"
  runId := "c0"
  params := runParamsOf aidConfig (stella, .fixed, 10, 0, 0, crossEncoded)
  experiment_uuid := by decide
  run_uuid := by decide
  embedding := ⟨"", 0, String.length, fun _ => none⟩
  chunking := ⟨fun _ _ _ => none, fun _ _ _ => none, fun _ => none, fun _ => none⟩
  chunkError := ""

/-- A chunk of the run, as a dense search finds it. -/
def aidHit (i : Nat) (text : String) : SearchResult where
  chunk := ⟨chunkIdOf aidSetting.runId i, text, i, stella.name, "fixed"⟩
  denseScore := 1 / 2
  rerankScore := none
  retrievalMethod := "dense"
  rank := i + 1

/-- A dense search finds both chunks; the cross-encoder prefers the one that begins as the query
    does. -/
def aidTools : QueryTools Nat where
  searcher := ⟨fun _ _ _ => .ok [aidHit 0 "pell grant", aidHit 1 "loan forms"],
    fun _ _ _ => .ok [], fun _ _ _ _ => .ok []⟩
  embedQuery text := .ok [text.length]
  rerankers :=
    ⟨fun _ pairs => .ok (pairs.map fun p => if p.1.toList <+: p.2.toList then 1 else 0),
      fun _ _ _ => .error .stopped, fun _ _ _ _ => .ok []⟩

/-- Services for an experiment that is cancelled after so many calls. SIE is busy twice. -/
def aidService (calls : Nat) (tr : RunTrace (Option SweepControl) Nat) (op : RunCall Nat) :
    Option SweepControl × RunCall.Answer Nat op :=
  let control := if tr.length < calls then none else some ⟨true, false, 0⟩
  (control, match op with
    | .insertRunStatus .. => .ok ()
    | .checkControl => RagParamsFinder.checkControl control
    | .updatePhase .. => .ok ()
    | .loadAllFiles _ => .ok "pell grantloan forms".toList
    | .embed call => (busyTwice control (embedPart tr) call).2
    | .storeChunks _ => .ok ()
    | .loadQueries _ => .ok [⟨"loan", "p", none⟩, ⟨"pell", "p", none⟩]
    | .newQueryId => "q"
    | .search queryText =>
        (searchFirst aidTools aidSetting.params aidSetting.scope queryText).mapError fun _ => ""
    | .rerank queryText candidates =>
        (rerankFound aidTools aidSetting.params queryText candidates).mapError fun _ => ""
    | .insertResult _ => .ok ())

/-- The run, with such services. -/
def aidRun (calls : Nat) : RunTrace (Option SweepControl) Nat × Except RunRaised Unit :=
  (runSingle aidSetting).run (aidService calls) []

theorem runs_aidRun (calls : Nat) :
    Runs (RunServes aidSetting (fun _ => aidTools) LengthOf) (runSingle aidSetting)
      (aidRun calls).1 (.ended (aidRun calls).2) := by
  refine runs_run (fun tr op => ?_) _
  cases op with
  | embed call => exact servesVectors_busyTwice _ (embedPart tr) call
  | search queryText =>
      show RunServes _ _ _ _ (.search queryText) ((searchFirst aidTools aidSetting.params
        aidSetting.scope queryText).mapError fun _ => "")
      cases hfound : searchFirst aidTools aidSetting.params aidSetting.scope queryText with
      | ok candidates => exact hfound
      | error e => trivial
  | rerank queryText candidates =>
      show RunServes _ _ _ _ (.rerank queryText candidates) ((rerankFound aidTools
        aidSetting.params queryText candidates).mapError fun _ => "")
      cases hfound : rerankFound aidTools aidSetting.params queryText candidates with
      | ok results => exact hfound
      | error e => trivial
  | insertRunStatus | checkControl | updatePhase | loadAllFiles | storeChunks | loadQueries
  | newQueryId | insertResult => trivial

/-- The texts of the results of each query. -/
def foundTexts (tr : RunTrace (Option SweepControl) Nat) : List (String × List String) :=
  (view tr).recorded.map fun row => (row.queryText, row.results.map fun r => r.chunk.text)

/-- A run that is left alone stores two chunks and reranks what its two queries find; one that is
    cancelled while SIE is busy stores nothing. -/
theorem aidRun_fulfilled :
    (Completed aidSetting (fun _ => aidTools) LengthOf (aidRun 50).1 ∧
      foundTexts (aidRun 50).1 =
        [("loan", ["loan forms", "pell grant"]), ("pell", ["pell grant", "loan forms"])]) ∧
    (Ended aidSetting (aidRun 10).1 .cancelled ∧ (view (aidRun 10).1).stored.length = 0 ∧
      (view (aidRun 10).1).phases.getLast? = some (.interrupted, some "Cancelled by user")) := by
  have hfulfils := runSingle_fulfils aidSetting (fun _ : Option SweepControl => aidTools) LengthOf
  have hcompletes : (aidRun 50).2 = .ok () := toOption_eq_some.mp (by decide +kernel)
  have hcancelled : (aidRun 10).2 = .error .cancelled := by decide +kernel
  have hdone := (runs_aidRun 50).fulfils hfulfils
  have hstopped := (runs_aidRun 10).fulfils hfulfils
  rw [hcompletes] at hdone
  rw [hcancelled] at hstopped
  exact ⟨⟨hdone, by decide +kernel⟩, hstopped, by decide +kernel, by decide +kernel⟩

end Aid

end RunSingle

end RagParamsFinder
