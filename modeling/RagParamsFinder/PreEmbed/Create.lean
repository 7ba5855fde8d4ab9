/-
  Creating an experiment (`create_experiment` and `_maybe_pre_embed_and_schedule` of
  `server/api/experiments.py`, `submit_pre_embed` of `server/core/pipeline/pre_embed.py`),
  beside the watcher and the cancel requests.

  The request is followed from its insert on, one access at a time, and each may raise,
  which ends it with status 500. The batch service gives every batch an id of its own:
  `owner` is the experiment that a batch id was made for. Other requests add entries of
  their own experiments to the checkpoint file.
-/
import RagParamsFinder.PreEmbed.Plan
import RagParamsFinder.PreEmbed.Watcher

namespace RagParamsFinder

/-! ## Submission -/

structure SubmittedJob where
  jobKey : String
  batchId : String
  role : EmbedRole
  n : Nat
  submittedAt : Nat
  deriving DecidableEq, Repr

/-- The entry that `submit_pre_embed` writes for a job and its batch. -/
def checkpointEntry (experimentId : String) (now : Nat) (sent : EmbedJob × String) :
    CheckpointEntry where
  experimentId := some experimentId
  jobKey := sent.1.jobKey
  batchId := some sent.2
  role := sent.1.role
  n := sent.1.items.length
  submittedAt := now

def submittedJob (now : Nat) (sent : EmbedJob × String) : SubmittedJob where
  jobKey := sent.1.jobKey
  batchId := sent.2
  role := sent.1.role
  n := sent.1.items.length
  submittedAt := now

def batchRecord (job : SubmittedJob) : BatchRecord where
  batchId := job.batchId
  role := job.role
  status := "in_progress"
  completed := 0
  total := job.n
  dashboardUrl := "https://app.doubleword.ai/batches/" ++ job.batchId

/-! ## The request -/

/-- The access that the request makes next. -/
inductive CreatePc where
  | inserting
  | loading (m : EmbeddingModelId)
  | loadingQueries (m : EmbeddingModelId) (text : Text)
  | lookingUp (m : EmbeddingModelId) (text : Text) (queries : List Text)
  | submitting (jobs : List EmbedJob) (sent : List (EmbedJob × String))
  | checkpointing (sent : List (EmbedJob × String))
  | waiting (submitted : List SubmittedJob)
  | scheduling
  | returned
  | failed
  deriving DecidableEq

def CreatePc.over : CreatePc → Bool
  | .returned => true
  | .failed => true
  | _ => false

/-- Without a DoubleWord model the sweep is scheduled at once. -/
def afterInsert (cfg : ExperimentConfig) : CreatePc :=
  match (doublewordModels cfg).head? with
  | none => .scheduling
  | some m => .loading m

def afterSubmit (jobs : List EmbedJob) (sent : List (EmbedJob × String)) : CreatePc :=
  if jobs = [] then .checkpointing sent else .submitting jobs sent

/-- With everything cached the sweep is scheduled; jobs without items are not submitted. -/
def afterPlan (plan : PreEmbedPlan) : CreatePc :=
  if plan.isEmpty then .scheduling else afterSubmit (plan.jobs.filter (·.items ≠ [])) []

theorem afterInsert_cases (cfg : ExperimentConfig) :
    afterInsert cfg = .scheduling ∨ ∃ m, afterInsert cfg = .loading m := by
  unfold afterInsert
  split
  · exact Or.inl rfl
  · exact Or.inr ⟨_, rfl⟩

theorem afterPlan_cases (plan : PreEmbedPlan) :
    afterPlan plan = .scheduling ∨ ∃ jobs, afterPlan plan = .submitting jobs [] := by
  unfold afterPlan
  split
  · exact Or.inl rfl
  · rename_i hsome
    have hjobs : plan.jobs.filter (·.items ≠ []) ≠ [] := by
      intro hnone
      refine hsome ?_
      rw [PreEmbedPlan.isEmpty, Bool.not_eq_true', List.any_eq_false]
      intro job hjob hitems
      have hempty := List.filter_eq_nil_iff.mp hnone job hjob
      exact hempty (decide_eq_true (by simpa using hitems))
    exact Or.inr ⟨_, if_neg hjobs⟩

inductive CreateLabel (ι : Type) where
  | watcher (l : WatcherLabel ι)
  | others (new : List CheckpointEntry)
  /-- `none`: the access raised. -/
  | load (text : Option Text)
  | loadQueries (queries : Option (List Text))
  | submit (batchId : Option String)
  /-- Any other access of the request, which succeeds at the time `now` or raises. -/
  | access (ok : Bool) (now : Nat)

/-- `batches` is history: the batches that have been submitted for the experiment. -/
structure CreateState (ι : Type) where
  watcher : WatcherState ι
  request : CreatePc
  batches : List String

/-- An entry of another experiment, for a batch of another experiment. -/
def CheckpointEntry.Foreign (owner : String → String) (id : String) (x : CheckpointEntry) :
    Prop :=
  x.experimentId ≠ some id ∧ ∀ b ∈ x.batchId, owner b ≠ id

instance (owner : String → String) (id : String) (x : CheckpointEntry) :
    Decidable (x.Foreign owner id) :=
  inferInstanceAs (Decidable (_ ∧ ∀ b ∈ x.batchId, owner b ≠ id))

namespace CreateState

variable {ι : Type}

def goTo (s : CreateState ι) (pc : CreatePc) : CreateState ι := { s with request := pc }

def fail (s : CreateState ι) : CreateState ι := s.goTo .failed

def withWatcher (s : CreateState ι) (w : WatcherState ι) : CreateState ι :=
  { s with watcher := w }

/-- `insert_experiment_doc`. -/
def insert (s : CreateState ι) (id : String) : CreateState ι :=
  let docs := Function.update s.watcher.docs id (some ⟨.running, none, .valid⟩)
  s.withWatcher { s.watcher with docs := docs }

/-- `add_entries`, under the lock of the file. -/
def addEntries (s : CreateState ι) (new : List CheckpointEntry) : CreateState ι :=
  s.withWatcher { s.watcher with file := s.watcher.file.addEntries new }

/-- The update that sets `pre_embed` to waiting. -/
def markWaiting (s : CreateState ι) (id : String) (submitted : List SubmittedJob) :
    CreateState ι :=
  let preEmbed : PreEmbed :=
    { state := "waiting", batches := some (submitted.map batchRecord) }
  s.withWatcher (s.watcher.updateDoc id fun d => { d with preEmbed := some preEmbed })

def schedule (s : CreateState ι) (id : String) : CreateState ι :=
  let sweeps := Function.update s.watcher.sweeps id (s.watcher.sweeps id + 1)
  s.withWatcher { s.watcher with sweeps := sweeps }

section

variable (cacheKey : CacheKeyInput → String) (owner : String → String)
  (cfg : ExperimentConfig) (id : String)

/-- An access of the request that succeeds. -/
def accessStep (s : CreateState ι) (now : Nat) : CreatePc → Option (CreateState ι)
  | .inserting => some ((s.insert id).goTo (afterInsert cfg))
  | .lookingUp m text queries =>
      some (s.goTo (afterPlan (createPlan cacheKey id m text queries
        (cachedKeys s.watcher.cache (createKeys cacheKey m text queries)))))
  | .checkpointing sent =>
      some ((s.addEntries (sent.map (checkpointEntry id now))).goTo
        (.waiting (sent.map (submittedJob now))))
  | .waiting submitted => some ((s.markWaiting id submitted).goTo .returned)
  | .scheduling => some ((s.schedule id).goTo .returned)
  | _ => none

def requestStep (s : CreateState ι) : CreatePc → CreateLabel ι → Option (CreateState ι)
  | .loading m, .load text =>
      some ((text.map fun text => s.goTo (.loadingQueries m text)).getD s.fail)
  | .loadingQueries m text, .loadQueries queries =>
      some ((queries.map fun queries => s.goTo (.lookingUp m text queries)).getD s.fail)
  | .submitting (_ :: _) _, .submit none => some s.fail
  | .submitting (job :: jobs) sent, .submit (some b) =>
      if owner b = id then
        some { s with
          request := afterSubmit jobs (sent ++ [(job, b)])
          batches := s.batches ++ [b] }
      else none
  | pc, .access ok now =>
      (s.accessStep cacheKey cfg id now pc).map fun t => if ok then t else s.fail
  | _, _ => none

variable [DecidableEq ι]

def step (s : CreateState ι) : CreateLabel ι → Option (CreateState ι)
  | .watcher l => (s.watcher.step l).map s.withWatcher
  | .others new =>
      if ∀ x ∈ new, x.Foreign owner id then some (s.addEntries new) else none
  | l => s.requestStep cacheKey owner cfg id s.request l

/-! ## The steps, one by one -/

/-- What a step can be; a request that raises is `notLoaded` or `notAccessed`. From
    `inserted` on these are the accesses of the request. -/
inductive CreateMove (s : CreateState ι) : CreateLabel ι → CreateState ι → Prop where
  | watched (l : WatcherLabel ι) (w : WatcherState ι) (move : s.watcher.step l = some w) :
      CreateMove s (.watcher l) (s.withWatcher w)
  | added (new : List CheckpointEntry) (foreign : ∀ x ∈ new, x.Foreign owner id) :
      CreateMove s (.others new) (s.addEntries new)
  | loaded (m : EmbeddingModelId) (text : Text) (pc : s.request = .loading m) :
      CreateMove s (.load (some text)) (s.goTo (.loadingQueries m text))
  | queriesLoaded (m : EmbeddingModelId) (text : Text) (queries : List Text)
      (pc : s.request = .loadingQueries m text) :
      CreateMove s (.loadQueries (some queries)) (s.goTo (.lookingUp m text queries))
  | submitted (job : EmbedJob) (jobs : List EmbedJob) (sent : List (EmbedJob × String))
      (b : String) (pc : s.request = .submitting (job :: jobs) sent) (own : owner b = id) :
      CreateMove s (.submit (some b))
        { s with
          request := afterSubmit jobs (sent ++ [(job, b)])
          batches := s.batches ++ [b] }
  | inserted (now : Nat) (pc : s.request = .inserting) :
      CreateMove s (.access true now) ((s.insert id).goTo (afterInsert cfg))
  | planned (now : Nat) (m : EmbeddingModelId) (text : Text) (queries : List Text)
      (pc : s.request = .lookingUp m text queries) :
      CreateMove s (.access true now)
        (s.goTo (afterPlan (createPlan cacheKey id m text queries
          (cachedKeys s.watcher.cache (createKeys cacheKey m text queries)))))
  | checkpointed (now : Nat) (sent : List (EmbedJob × String))
      (pc : s.request = .checkpointing sent) :
      CreateMove s (.access true now)
        ((s.addEntries (sent.map (checkpointEntry id now))).goTo
          (.waiting (sent.map (submittedJob now))))
  | markedWaiting (now : Nat) (submitted : List SubmittedJob)
      (pc : s.request = .waiting submitted) :
      CreateMove s (.access true now) ((s.markWaiting id submitted).goTo .returned)
  | scheduled (now : Nat) (pc : s.request = .scheduling) :
      CreateMove s (.access true now) ((s.schedule id).goTo .returned)
  | notLoaded (l : CreateLabel ι)
      (raises : l = .load none ∨ l = .loadQueries none ∨ l = .submit none) :
      CreateMove s l s.fail
  | notAccessed (now : Nat) : CreateMove s (.access false now) s.fail

theorem accessStep_move {s t : CreateState ι} {now : Nat}
    (ht : s.accessStep cacheKey cfg id now s.request = some t) :
    CreateMove cacheKey owner cfg id s (.access true now) t := by
  unfold accessStep at ht
  split at ht
  · rename_i hpc
    cases ht
    exact .inserted now hpc
  · rename_i m text queries hpc
    cases ht
    exact .planned now m text queries hpc
  · rename_i sent hpc
    cases ht
    exact .checkpointed now sent hpc
  · rename_i submitted hpc
    cases ht
    exact .markedWaiting now submitted hpc
  · rename_i hpc
    cases ht
    exact .scheduled now hpc
  · cases ht

theorem requestStep_move {s t : CreateState ι} {l : CreateLabel ι}
    (ht : s.requestStep cacheKey owner cfg id s.request l = some t) :
    CreateMove cacheKey owner cfg id s l t := by
  unfold requestStep at ht
  split at ht
  · rename_i m text hpc
    cases ht
    cases text with
    | none => exact .notLoaded _ (Or.inl rfl)
    | some text => exact .loaded m text hpc
  · rename_i m text queries hpc
    cases ht
    cases queries with
    | none => exact .notLoaded _ (Or.inr (Or.inl rfl))
    | some queries => exact .queriesLoaded m text queries hpc
  · cases ht
    exact .notLoaded _ (Or.inr (Or.inr rfl))
  · rename_i job jobs sent b hpc
    split at ht
    · rename_i hown
      cases ht
      exact .submitted job jobs sent b hpc hown
    · cases ht
  · rename_i ok now
    obtain ⟨u, hu, rfl⟩ := Option.map_eq_some_iff.mp ht
    cases ok with
    | true => exact accessStep_move cacheKey owner cfg id hu
    | false => exact .notAccessed now
  · cases ht

theorem step_move {s t : CreateState ι} {l : CreateLabel ι}
    (ht : s.step cacheKey owner cfg id l = some t) : CreateMove cacheKey owner cfg id s l t := by
  cases l with
  | watcher l =>
      obtain ⟨w, hw, rfl⟩ := Option.map_eq_some_iff.mp ht
      exact .watched l w hw
  | others new =>
      simp only [step] at ht
      split at ht
      · rename_i hforeign
        cases ht
        exact .added new hforeign
      · cases ht
  | _ => exact requestStep_move cacheKey owner cfg id ht

end

end CreateState

end RagParamsFinder
