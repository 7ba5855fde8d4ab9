/-
  The watcher of pending embedding batches (`server/core/pipeline/doubleword_watcher.py`),
  with the download it uses (`server/core/embedding/doubleword_client.py`) and the cancel
  requests that run beside it (`server/api/experiments.py`).

  One step is one access of the batch service, the checkpoint file, the embedding cache, the
  store or the sweep executor; any of them may raise. The watcher goes through the entries
  that it loaded at the start of its round, whatever has happened to the file since. What a
  remote cancel does is seen in later polls only. Of a vector only its cache key is kept,
  which is the custom id of its item.

  `completed` and `ended` are history: the batches that a poll has seen completed, and the
  experiments that were cancelled or had a batch that ended badly.
-/
import Mathlib.Logic.Function.Basic
import RagParamsFinder.PreEmbed.Checkpoint

namespace RagParamsFinder

/-! ## The batch service -/

inductive BatchStatus where
  | completed
  | failed
  | expired
  | cancelled
  | pending (status : String)
  deriving DecidableEq, Repr

def BatchStatus.value : BatchStatus → String
  | .completed => "completed"
  | .failed => "failed"
  | .expired => "expired"
  | .cancelled => "cancelled"
  | .pending status => status

/-- `snapshot.status in ("failed", "expired", "cancelled")`. -/
def BatchStatus.terminal : BatchStatus → Bool
  | .failed => true
  | .expired => true
  | .cancelled => true
  | _ => false

/-- The fields of a `BatchSnapshot` that the watcher reads. -/
structure BatchSnapshot where
  status : BatchStatus
  outputFileId : Option String
  errorFileId : Option String
  deriving DecidableEq, Repr

/-- A line of an output file. `malformed` raises an exception that skips the line. `broken`
    raises any other exception, which ends the reading of the file; when it is the count of
    tokens that raises, the vector has been kept. -/
inductive OutputLine where
  | blank
  | parsed (customId : String) (promptTokens : Nat)
  | malformed
  | broken (kept : Option String)
  deriving DecidableEq, Repr

inductive ErrorLine where
  | blank
  | parsed (customId : String)
  | malformed
  | broken
  deriving DecidableEq, Repr

/-- The remote files; `none` when `files.content` raises. -/
structure BatchFiles where
  output : String → Option (List OutputLine)
  error : String → Option (List ErrorLine)

structure Downloaded where
  vectors : List String
  errorIds : List String
  promptTokens : Nat
  deriving DecidableEq, Repr

/-- `vectors[custom_id] = embedding`. -/
def Downloaded.keep (d : Downloaded) (customId : String) : Downloaded :=
  { d with vectors := if customId ∈ d.vectors then d.vectors else d.vectors ++ [customId] }

def readOutput : List OutputLine → Downloaded → Downloaded
  | [], d => d
  | .blank :: lines, d => readOutput lines d
  | .parsed customId tokens :: lines, d =>
      readOutput lines { d.keep customId with promptTokens := d.promptTokens + tokens }
  | .malformed :: lines, d => readOutput lines d
  | .broken none :: _, d => d
  | .broken (some customId) :: _, d => d.keep customId

def readErrors : List ErrorLine → Downloaded → Downloaded
  | [], d => d
  | .blank :: lines, d => readErrors lines d
  | .parsed customId :: lines, d =>
      readErrors lines
        { d with
          errorIds := if customId ∈ d.errorIds then d.errorIds else d.errorIds ++ [customId] }
  | .malformed :: lines, d => readErrors lines d
  | .broken :: _, d => d

/-- `download_vectors`: a file that cannot be read counts as empty, so it never raises. -/
def downloadVectors (files : BatchFiles) (outputFileId errorFileId : Option String) :
    Downloaded :=
  readErrors ((errorFileId.bind files.error).getD [])
    (readOutput ((outputFileId.bind files.output).getD []) ⟨[], [], 0⟩)

/-- The custom ids whose vectors a file gives before its first broken line. -/
def deliveredIds : List OutputLine → List String
  | [] => []
  | .blank :: lines => deliveredIds lines
  | .parsed customId _ :: lines => customId :: deliveredIds lines
  | .malformed :: lines => deliveredIds lines
  | .broken kept :: _ => kept.toList

theorem Downloaded.mem_keep {d : Downloaded} {customId k : String} :
    k ∈ (d.keep customId).vectors ↔ k ∈ d.vectors ∨ k = customId := by
  unfold Downloaded.keep
  split
  · rename_i h
    constructor
    · exact Or.inl
    · rintro (hk | rfl)
      · exact hk
      · exact h
  · simp

theorem mem_readOutput {lines : List OutputLine} {d : Downloaded} {k : String} :
    k ∈ (readOutput lines d).vectors ↔ k ∈ d.vectors ∨ k ∈ deliveredIds lines := by
  induction lines generalizing d with
  | nil => simp [readOutput, deliveredIds]
  | cons line lines ih =>
      cases line with
      | blank => exact ih
      | parsed customId tokens =>
          rw [readOutput, ih, deliveredIds, List.mem_cons, ← or_assoc]
          exact or_congr_left Downloaded.mem_keep
      | malformed => exact ih
      | broken kept =>
          cases kept with
          | none => simp [readOutput, deliveredIds]
          | some customId => simp [readOutput, deliveredIds, Downloaded.mem_keep]

theorem readErrors_vectors (lines : List ErrorLine) (d : Downloaded) :
    (readErrors lines d).vectors = d.vectors := by
  induction lines generalizing d with
  | nil => rfl
  | cons line lines ih =>
      cases line with
      | blank => exact ih d
      | parsed customId => exact ih _
      | malformed => exact ih d
      | broken => rfl

/-- A download returns a vector for the ids that the output file delivers, and no other. -/
theorem mem_downloadVectors {files : BatchFiles} {outputFileId errorFileId : Option String}
    {k : String} :
    k ∈ (downloadVectors files outputFileId errorFileId).vectors ↔
      k ∈ deliveredIds ((outputFileId.bind files.output).getD []) := by
  rw [downloadVectors, readErrors_vectors, mem_readOutput]
  simp

/-! ## The state -/

inductive StoredConfig where
  | absent
  | invalid
  | valid
  deriving DecidableEq, Repr

/-- The fields of an experiment document that the watcher and a cancel request touch. -/
structure WatchedExperiment where
  status : ExperimentStatus
  preEmbed : Option PreEmbed
  config : StoredConfig
  deriving DecidableEq, Repr

/-- The two ids of an entry that is being processed. -/
structure Handled where
  experimentId : String
  batchId : String
  deriving DecidableEq, Repr

/-- An entry without one of its ids is passed over. -/
def CheckpointEntry.handled (x : CheckpointEntry) : Option Handled :=
  match x.batchId, x.experimentId with
  | some batchId, some experimentId =>
      if batchId = "" ∨ experimentId = "" then none else some ⟨experimentId, batchId⟩
  | _, _ => none

theorem CheckpointEntry.handled_eq_some {x : CheckpointEntry} {h : Handled}
    (hx : x.handled = some h) :
    x.batchId = some h.batchId ∧ x.experimentId = some h.experimentId := by
  unfold CheckpointEntry.handled at hx
  split at hx
  · rename_i b e hb he
    split at hx
    · cases hx
    · cases hx
      exact ⟨hb, he⟩
  · cases hx

/-- The accesses of `_on_batch_completed`, of `_trigger_sweep` and, the last two, of
    `_on_batch_terminal`. -/
inductive WatcherStage where
  | downloading (snapshot : BatchSnapshot)
  | caching (vectors : List String)
  | removing
  | checking
  | reading
  | readying
  | scheduling
  | dropping (status : BatchStatus)
  | failing (status : BatchStatus)
  deriving DecidableEq, Repr

inductive WatcherPc where
  | sleeping
  | polling (entries : List CheckpointEntry)
  | handling (stage : WatcherStage) (h : Handled) (rest : List CheckpointEntry)
  deriving DecidableEq, Repr

/-- The entries that the round has still to poll. -/
def WatcherPc.pending : WatcherPc → List CheckpointEntry
  | .sleeping => []
  | .polling entries => entries
  | .handling _ _ rest => rest

def WatcherPc.handled : WatcherPc → Option Handled
  | .handling _ h _ => some h
  | _ => none

/-- A cancel request; `waiting` is what it read of `pre_embed`. -/
inductive CancelPc where
  | idle
  | marking (experimentId : String) (waiting : Bool)
  | listing (experimentId : String)
  | dropping (experimentId : String)
  | done
  deriving DecidableEq, Repr

/-- The experiment that a cancel is about. -/
def CancelPc.about : CancelPc → Option String
  | .marking e _ => some e
  | .listing e => some e
  | .dropping e => some e
  | _ => none

/-- How `put_many` ends. The Redis backend logs an error of the server and returns. -/
inductive PutOutcome where
  | stored
  | swallowed (written : Nat)
  | raised (written : Nat)
  deriving DecidableEq, Repr

inductive WatcherLabel (ι : Type) where
  | load (ok : Bool)
  | sleep
  | skip
  /-- `none`: the poll timed out or raised. -/
  | poll (snapshot : Option BatchSnapshot)
  | download (files : BatchFiles)
  | put (outcome : PutOutcome)
  /-- Any other access of the watcher, which succeeds or raises. -/
  | access (ok : Bool)
  | cancelBegin (i : ι) (experimentId : String) (ok : Bool)
  | cancelAccess (i : ι) (ok : Bool)
  /-- The cache loses a key: it expired, or was evicted. -/
  | evict (key : String)

structure WatcherState (ι : Type) where
  file : CheckpointFile
  docs : String → Option WatchedExperiment
  cache : List String
  sweeps : String → Nat
  pc : WatcherPc
  cancels : ι → CancelPc
  completed : List String
  ended : List String

namespace WatcherState

variable {ι : Type}

/-! ## The watcher -/

/-- `update_experiment`; it changes nothing when the document is not there. -/
def updateDoc (s : WatcherState ι) (id : String)
    (f : WatchedExperiment → WatchedExperiment) : WatcherState ι :=
  { s with docs := Function.update s.docs id ((s.docs id).map f) }

/-- An exception that ends the round. -/
def abort (s : WatcherState ι) : WatcherState ι := { s with pc := .sleeping }

def next (s : WatcherState ι) (rest : List CheckpointEntry) : WatcherState ι :=
  { s with pc := .polling rest }

def goTo (s : WatcherState ι) (stage : WatcherStage) (h : Handled)
    (rest : List CheckpointEntry) : WatcherState ι :=
  { s with pc := .handling stage h rest }

/-- `_process_entries`, at one entry that has been polled. -/
def polled (s : WatcherState ι) (h : Handled) (rest : List CheckpointEntry)
    (snapshot : BatchSnapshot) : WatcherState ι :=
  match snapshot.status with
  | .completed =>
      { s with completed := h.batchId :: s.completed }.goTo (.downloading snapshot) h rest
  | .pending _ => s.next rest
  | status => { s with ended := h.experimentId :: s.ended }.goTo (.dropping status) h rest

/-- `_on_batch_completed`, once the vectors are there. -/
def downloaded (s : WatcherState ι) (h : Handled) (rest : List CheckpointEntry)
    (vectors : List String) : WatcherState ι :=
  if vectors.isEmpty then s.goTo .removing h rest else s.goTo (.caching vectors) h rest

def putMany (s : WatcherState ι) (h : Handled) (rest : List CheckpointEntry)
    (vectors : List String) : PutOutcome → WatcherState ι
  | .stored => { s with cache := vectors ++ s.cache }.goTo .removing h rest
  | .swallowed written =>
      { s with cache := vectors.take written ++ s.cache }.goTo .removing h rest
  | .raised written => { s with cache := vectors.take written ++ s.cache }.abort

/-- An access that raises in `_trigger_sweep`, or in the update of `_on_batch_terminal`, is
    caught, and the round goes on. -/
def raisedAt (s : WatcherState ι) (rest : List CheckpointEntry) : WatcherStage → WatcherState ι
  | .reading => s.next rest
  | .readying => s.next rest
  | .scheduling => s.next rest
  | .failing _ => s.next rest
  | _ => s.abort

/-- `"DoubleWord batch {status}: batch_id={batch_id}"`. -/
def batchEnded (status : BatchStatus) (batchId : String) : PreEmbed where
  state := "failed"
  reason := some ("DoubleWord batch " ++ status.value ++ ": batch_id=" ++ batchId)

/-- The access of a stage, when it succeeds. -/
def stageStep (s : WatcherState ι) (h : Handled) (rest : List CheckpointEntry) :
    WatcherStage → Option (WatcherState ι)
  | .downloading _ => none
  | .caching _ => none
  | .removing =>
      some ({ s with file := s.file.removeByBatchId h.batchId }.goTo .checking h rest)
  | .checking =>
      some (if s.file.getForExperiment h.experimentId = [] then s.goTo .reading h rest
        else s.next rest)
  | .reading =>
      some (if (s.docs h.experimentId).map (·.config) = some .valid
        then s.goTo .readying h rest else s.next rest)
  | .readying =>
      some ((s.updateDoc h.experimentId fun d =>
        { d with preEmbed := some { state := "ready" } }).goTo .scheduling h rest)
  | .scheduling =>
      some ({ s with
        sweeps := Function.update s.sweeps h.experimentId (s.sweeps h.experimentId + 1)
        }.next rest)
  | .dropping status =>
      some ({ s with file := s.file.removeForExperiment h.experimentId }.goTo
        (.failing status) h rest)
  | .failing status =>
      some ((s.updateDoc h.experimentId fun d =>
        { d with status := .failed, preEmbed := some (batchEnded status h.batchId) }).next rest)

/-- A step of the watcher. -/
def watcherStep (s : WatcherState ι) : WatcherPc → WatcherLabel ι → Option (WatcherState ι)
  | .sleeping, .load ok => some (if ok then s.next s.file.load else s)
  | .polling [], .sleep => some s.abort
  | .polling (x :: rest), .skip => if x.handled = none then some (s.next rest) else none
  | .polling (x :: rest), .poll snapshot =>
      x.handled.map fun h => (snapshot.map (s.polled h rest)).getD (s.next rest)
  | .handling (.downloading snapshot) h rest, .download files =>
      some (s.downloaded h rest
        (downloadVectors files snapshot.outputFileId snapshot.errorFileId).vectors)
  | .handling (.caching vectors) h rest, .put outcome => some (s.putMany h rest vectors outcome)
  | .handling stage h rest, .access ok =>
      (s.stageStep h rest stage).map fun t => if ok then t else s.raisedAt rest stage
  | _, _ => none

/-! ## A cancel request -/

variable [DecidableEq ι]

def setCancel (s : WatcherState ι) (i : ι) (c : CancelPc) : WatcherState ι :=
  { s with cancels := Function.update s.cancels i c }

/-- The read and the guards of `cancel_experiment`; a request that stops here answers 404,
    409 or 500. -/
def cancelBegin (s : WatcherState ι) (i : ι) (id : String) (ok : Bool) : WatcherState ι :=
  match s.docs id with
  | some d =>
      if ok ∧ d.status = .running then
        s.setCancel i (.marking id ((d.preEmbed.map (·.state)) = some "waiting"))
      else s.setCancel i .done
  | none => s.setCancel i .done

/-- `mark_experiment_cancelled_now`, then `cancel_experiment_batches`. -/
def cancelStep (s : WatcherState ι) (i : ι) (ok : Bool) : CancelPc → Option (WatcherState ι)
  | .marking id waiting =>
      some (if ok then
        ({ s with ended := id :: s.ended }.updateDoc id fun d =>
          { d with status := .cancelled }).setCancel i (if waiting then .listing id else .done)
      else s.setCancel i .done)
  | .listing id =>
      some (s.setCancel i
        (if ok ∧ s.file.getForExperiment id ≠ [] then .dropping id else .done))
  | .dropping id =>
      some (if ok then
        { s with file := s.file.removeForExperiment id }.setCancel i .done
      else s.setCancel i .done)
  | _ => none

/-! ## The system -/

def step (s : WatcherState ι) : WatcherLabel ι → Option (WatcherState ι)
  | .cancelBegin i id ok => if s.cancels i = .idle then some (s.cancelBegin i id ok) else none
  | .cancelAccess i ok => s.cancelStep i ok (s.cancels i)
  | .evict key => some { s with cache := s.cache.filter (· ≠ key) }
  | l => s.watcherStep s.pc l

/-! ## The steps, one by one -/

/-- What a step can be. An access of the stages after the download is `accessed` when it
    succeeds and `raised` when it raises. -/
inductive Move (s : WatcherState ι) : WatcherLabel ι → WatcherState ι → Prop where
  | loadFailed (pc : s.pc = .sleeping) : Move s (.load false) s
  | loaded (pc : s.pc = .sleeping) : Move s (.load true) (s.next s.file.load)
  | roundEnded (pc : s.pc = .polling []) : Move s .sleep s.abort
  | passedOver (l : WatcherLabel ι) (x : CheckpointEntry) (rest : List CheckpointEntry)
      (pc : s.pc = .polling (x :: rest)) : Move s l (s.next rest)
  | completed (snapshot : BatchSnapshot) (x : CheckpointEntry) (rest : List CheckpointEntry)
      (h : Handled) (pc : s.pc = .polling (x :: rest)) (entry : x.handled = some h)
      (status : snapshot.status = .completed) :
      Move s (.poll (some snapshot))
        ({ s with completed := h.batchId :: s.completed }.goTo (.downloading snapshot) h rest)
  | endedBadly (snapshot : BatchSnapshot) (x : CheckpointEntry) (rest : List CheckpointEntry)
      (h : Handled) (pc : s.pc = .polling (x :: rest)) (entry : x.handled = some h)
      (status : snapshot.status.terminal = true) :
      Move s (.poll (some snapshot))
        ({ s with ended := h.experimentId :: s.ended }.goTo (.dropping snapshot.status) h rest)
  | downloaded (snapshot : BatchSnapshot) (files : BatchFiles) (h : Handled)
      (rest : List CheckpointEntry) (pc : s.pc = .handling (.downloading snapshot) h rest) :
      Move s (.download files) (s.downloaded h rest
        (downloadVectors files snapshot.outputFileId snapshot.errorFileId).vectors)
  | put (vectors : List String) (outcome : PutOutcome) (h : Handled)
      (rest : List CheckpointEntry) (pc : s.pc = .handling (.caching vectors) h rest) :
      Move s (.put outcome) (s.putMany h rest vectors outcome)
  | accessed (stage : WatcherStage) (h : Handled) (rest : List CheckpointEntry)
      (t : WatcherState ι) (pc : s.pc = .handling stage h rest)
      (done : s.stageStep h rest stage = some t) : Move s (.access true) t
  | raised (stage : WatcherStage) (h : Handled) (rest : List CheckpointEntry)
      (pc : s.pc = .handling stage h rest) : Move s (.access false) (s.raisedAt rest stage)
  | cancelBegun (i : ι) (id : String) (ok : Bool) :
      Move s (.cancelBegin i id ok) (s.cancelBegin i id ok)
  | marked (i : ι) (id : String) (waiting : Bool) (cancel : s.cancels i = .marking id waiting) :
      Move s (.cancelAccess i true)
        (({ s with ended := id :: s.ended }.updateDoc id fun d =>
          { d with status := .cancelled }).setCancel i (if waiting then .listing id else .done))
  | listed (i : ι) (id : String) (ok : Bool) (cancel : s.cancels i = .listing id)
      (some : s.file.getForExperiment id ≠ []) :
      Move s (.cancelAccess i ok) (s.setCancel i (.dropping id))
  | dropped (i : ι) (id : String) (cancel : s.cancels i = .dropping id) :
      Move s (.cancelAccess i true)
        ({ s with file := s.file.removeForExperiment id }.setCancel i .done)
  | cancelDone (i : ι) (ok : Bool) : Move s (.cancelAccess i ok) (s.setCancel i .done)
  | evicted (key : String) : Move s (.evict key) { s with cache := s.cache.filter (· ≠ key) }

variable {s t : WatcherState ι} {l : WatcherLabel ι}

theorem polled_move {snapshot : BatchSnapshot} {x : CheckpointEntry}
    {rest : List CheckpointEntry} {h : Handled} (hpc : s.pc = .polling (x :: rest))
    (hx : x.handled = some h) : Move s (.poll (some snapshot)) (s.polled h rest snapshot) := by
  unfold polled
  split
  · rename_i hstatus
    exact .completed snapshot x rest h hpc hx hstatus
  · exact .passedOver _ x rest hpc
  · rename_i hcompleted hpending
    refine .endedBadly snapshot x rest h hpc hx ?_
    cases hs : snapshot.status with
    | completed => exact absurd hs hcompleted
    | pending status => exact absurd hs (hpending status)
    | _ => rfl

theorem watcherStep_move (ht : s.watcherStep s.pc l = some t) : Move s l t := by
  unfold watcherStep at ht
  split at ht
  · rename_i ok hpc
    cases ht
    cases ok with
    | true => exact .loaded hpc
    | false => exact .loadFailed hpc
  · rename_i hpc
    cases ht
    exact .roundEnded hpc
  · rename_i x rest hpc
    split at ht
    · cases ht
      exact .passedOver _ x rest hpc
    · cases ht
  · rename_i x rest snapshot hpc
    obtain ⟨h, hx, rfl⟩ := Option.map_eq_some_iff.mp ht
    cases snapshot with
    | none => exact .passedOver _ x rest hpc
    | some snapshot => exact polled_move hpc hx
  · rename_i snapshot h rest files hpc
    cases ht
    exact .downloaded snapshot files h rest hpc
  · rename_i vectors h rest outcome hpc
    cases ht
    exact .put vectors outcome h rest hpc
  · rename_i stage h rest ok hpc
    obtain ⟨u, hu, rfl⟩ := Option.map_eq_some_iff.mp ht
    cases ok with
    | true => exact .accessed stage h rest u hpc hu
    | false => exact .raised stage h rest hpc
  · cases ht

theorem cancelStep_move {i : ι} {ok : Bool} (ht : s.cancelStep i ok (s.cancels i) = some t) :
    Move s (.cancelAccess i ok) t := by
  cases hc : s.cancels i with
  | marking id waiting =>
      rw [hc] at ht
      cases ht
      cases ok with
      | true => exact .marked i id waiting hc
      | false => exact .cancelDone i false
  | listing id =>
      rw [hc] at ht
      cases ht
      split
      · rename_i hsome
        exact .listed i id ok hc hsome.2
      · exact .cancelDone i ok
  | dropping id =>
      rw [hc] at ht
      cases ht
      cases ok with
      | true => exact .dropped i id hc
      | false => exact .cancelDone i false
  | idle => rw [hc] at ht; cases ht
  | done => rw [hc] at ht; cases ht

theorem step_move (ht : s.step l = some t) : Move s l t := by
  cases l with
  | cancelBegin i id ok =>
      simp only [step] at ht
      split at ht
      · cases ht
        exact .cancelBegun i id ok
      · cases ht
  | cancelAccess i ok => exact cancelStep_move ht
  | evict key =>
      cases ht
      exact .evicted key
  | _ => exact watcherStep_move ht

/-! ## What a step changes -/

/-- The writes of a step to the document of `id`. -/
inductive DocWrite (s : WatcherState ι) (l : WatcherLabel ι) (t : WatcherState ι)
    (id : String) : Prop where
  | none (same : t.docs id = s.docs id)
  | cancelled (doc : t.docs id = (s.docs id).map fun d => { d with status := .cancelled })
  | ready (h : Handled) (rest : List CheckpointEntry) (label : l = .access true)
      (pc : s.pc = .handling .readying h rest) (own : h.experimentId = id)
      (doc : t.docs id = (s.docs id).map fun d =>
        { d with preEmbed := some { state := "ready" } })
  | failed (status : BatchStatus) (batchId : String)
      (doc : t.docs id = (s.docs id).map fun d =>
        { d with status := .failed, preEmbed := some (batchEnded status batchId) })

/-- The writes of a step to the file. -/
inductive FileWrite (s t : WatcherState ι) : Prop where
  | none (same : t.file = s.file)
  | batch (h : Handled) (pc : s.pc.handled = some h)
      (file : t.file = s.file.removeByBatchId h.batchId)
  | ended (h : Handled) (pc : s.pc.handled = some h)
      (file : t.file = s.file.removeForExperiment h.experimentId)
  | cancelled (i : ι) (e : String) (cancel : s.cancels i = .dropping e)
      (file : t.file = s.file.removeForExperiment e) (docs : t.docs = s.docs)

omit [DecidableEq ι] in
theorem docs_updateDoc (s : WatcherState ι) (id e : String)
    (f : WatchedExperiment → WatchedExperiment) :
    (s.updateDoc id f).docs e = if e = id then (s.docs e).map f else s.docs e := by
  unfold updateDoc
  by_cases h : e = id
  · subst h
    simp
  · simp [h]

omit [DecidableEq ι] in
theorem stageStep_docs {stage : WatcherStage} {h : Handled} {rest : List CheckpointEntry}
    (hpc : s.pc = .handling stage h rest) (ht : s.stageStep h rest stage = some t)
    (id : String) : DocWrite s (.access true) t id := by
  cases stage with
  | readying =>
      cases ht
      have hdoc := docs_updateDoc s h.experimentId id fun d =>
        { d with preEmbed := some { state := "ready" } }
      by_cases hid : id = h.experimentId
      · exact .ready h rest rfl hpc hid.symm (hdoc.trans (if_pos hid))
      · exact .none (hdoc.trans (if_neg hid))
  | failing status =>
      cases ht
      have hdoc := docs_updateDoc s h.experimentId id fun d =>
        { d with status := .failed, preEmbed := some (batchEnded status h.batchId) }
      by_cases hid : id = h.experimentId
      · exact .failed status h.batchId (hdoc.trans (if_pos hid))
      · exact .none (hdoc.trans (if_neg hid))
  | checking => cases ht; split <;> exact .none rfl
  | reading => cases ht; split <;> exact .none rfl
  | downloading snapshot => cases ht
  | caching vectors => cases ht
  | _ => cases ht; exact .none rfl

omit [DecidableEq ι] in
theorem stageStep_file {stage : WatcherStage} {h : Handled} {rest : List CheckpointEntry}
    (hpc : s.pc = .handling stage h rest) (ht : s.stageStep h rest stage = some t) :
    FileWrite s t := by
  have hhandled : s.pc.handled = some h := by rw [hpc]; rfl
  cases stage with
  | removing => cases ht; exact .batch h hhandled rfl
  | dropping status => cases ht; exact .ended h hhandled rfl
  | checking => cases ht; split <;> exact .none rfl
  | reading => cases ht; split <;> exact .none rfl
  | downloading snapshot => cases ht
  | caching vectors => cases ht
  | _ => cases ht; exact .none rfl

/-- A cancel that gets past its guards has found the document. -/
theorem cancelBegin_eq (s : WatcherState ι) (i : ι) (id : String) (ok : Bool) :
    s.cancelBegin i id ok = s.setCancel i .done ∨
      ∃ waiting, s.docs id ≠ none ∧
        s.cancelBegin i id ok = s.setCancel i (.marking id waiting) := by
  unfold cancelBegin
  split
  · rename_i d hd
    split
    · exact Or.inr ⟨_, by rw [hd]; nofun, rfl⟩
    · exact Or.inl rfl
  · exact Or.inl rfl

theorem docs_step (ht : s.step l = some t) (id : String) : DocWrite s l t id := by
  cases step_move ht with
  | downloaded snapshot files h rest hpc => unfold downloaded; split <;> exact .none rfl
  | put vectors outcome h rest hpc => cases outcome <;> exact .none rfl
  | accessed stage h rest t hpc hdone => exact stageStep_docs hpc hdone id
  | raised stage h rest hpc => cases stage <;> exact .none rfl
  | cancelBegun i e ok =>
      rcases cancelBegin_eq s i e ok with he | ⟨waiting, -, he⟩ <;> rw [he] <;> exact .none rfl
  | marked i e waiting hc =>
      have hdoc := docs_updateDoc { s with ended := e :: s.ended } e id fun d =>
        { d with status := .cancelled }
      by_cases hid : id = e
      · exact .cancelled (hdoc.trans (if_pos hid))
      · exact .none (hdoc.trans (if_neg hid))
  | _ => exact .none rfl

theorem file_step (ht : s.step l = some t) : FileWrite s t := by
  cases step_move ht with
  | downloaded snapshot files h rest hpc => unfold downloaded; split <;> exact .none rfl
  | put vectors outcome h rest hpc => cases outcome <;> exact .none rfl
  | accessed stage h rest t hpc hdone => exact stageStep_file hpc hdone
  | raised stage h rest hpc => cases stage <;> exact .none rfl
  | cancelBegun i e ok =>
      rcases cancelBegin_eq s i e ok with he | ⟨waiting, -, he⟩ <;> rw [he] <;> exact .none rfl
  | dropped i e hc => exact .cancelled i e hc rfl rfl
  | _ => exact .none rfl

omit [DecidableEq ι] in
theorem stageStep_pc {stage : WatcherStage} {h : Handled} {rest : List CheckpointEntry}
    (ht : s.stageStep h rest stage = some t) :
    t.pc.pending = rest ∧ (∀ h' ∈ t.pc.handled, h' = h) ∧ t.cancels = s.cancels := by
  cases stage with
  | downloading snapshot => cases ht
  | caching vectors => cases ht
  | checking => cases ht; split <;> exact ⟨rfl, by rintro _ ⟨⟩ <;> rfl, rfl⟩
  | reading => cases ht; split <;> exact ⟨rfl, by rintro _ ⟨⟩ <;> rfl, rfl⟩
  | _ => cases ht; exact ⟨rfl, by rintro _ ⟨⟩ <;> rfl, rfl⟩

/-- The watcher takes up an entry only when a poll has answered that its batch is over. -/
theorem handled_step (ht : s.step l = some t) {h : Handled} (hh : t.pc.handled = some h) :
    s.pc.handled = some h ∨
      (∃ x ∈ s.pc.pending, x.handled = some h) ∧
        (h.batchId ∈ t.completed ∨ h.experimentId ∈ t.ended) := by
  cases step_move ht with
  | loadFailed hpc => exact Or.inl hh
  | loaded hpc => cases hh
  | roundEnded hpc => cases hh
  | passedOver _ x rest hpc => cases hh
  | completed snapshot x rest h' hpc hx hstatus =>
      cases hh
      rw [hpc]
      exact Or.inr ⟨⟨x, List.mem_cons_self, hx⟩, Or.inl List.mem_cons_self⟩
  | endedBadly snapshot x rest h' hpc hx hstatus =>
      cases hh
      rw [hpc]
      exact Or.inr ⟨⟨x, List.mem_cons_self, hx⟩, Or.inr List.mem_cons_self⟩
  | downloaded snapshot files h' rest hpc =>
      unfold downloaded at hh
      rw [hpc]
      split at hh <;> exact Or.inl hh
  | put vectors outcome h' rest hpc =>
      rw [hpc]
      cases outcome with
      | raised written => cases hh
      | _ => exact Or.inl hh
  | accessed stage h' rest t hpc hdone =>
      rw [hpc, (stageStep_pc hdone).2.1 h hh]
      exact Or.inl rfl
  | raised stage h' rest hpc => cases stage <;> cases hh
  | cancelBegun i e ok =>
      rcases cancelBegin_eq s i e ok with he | ⟨waiting, -, he⟩ <;> rw [he] at hh <;>
        exact Or.inl hh
  | _ => exact Or.inl hh

omit [DecidableEq ι] in
theorem stageStep_history {stage : WatcherStage} {h : Handled} {rest : List CheckpointEntry}
    (ht : s.stageStep h rest stage = some t) : t.completed = s.completed ∧ t.ended = s.ended := by
  cases stage with
  | downloading snapshot => cases ht
  | caching vectors => cases ht
  | checking => cases ht; split <;> exact ⟨rfl, rfl⟩
  | reading => cases ht; split <;> exact ⟨rfl, rfl⟩
  | _ => cases ht; exact ⟨rfl, rfl⟩

/-- What has been seen stays seen. -/
theorem history_step (ht : s.step l = some t) :
    s.completed ⊆ t.completed ∧ s.ended ⊆ t.ended := by
  cases step_move ht with
  | completed snapshot x rest h hpc hx hstatus =>
      exact ⟨List.subset_cons_self _ _, List.Subset.refl _⟩
  | endedBadly snapshot x rest h hpc hx hstatus =>
      exact ⟨List.Subset.refl _, List.subset_cons_self _ _⟩
  | downloaded snapshot files h rest hpc =>
      unfold downloaded
      split <;> exact ⟨List.Subset.refl _, List.Subset.refl _⟩
  | put vectors outcome h rest hpc =>
      cases outcome <;> exact ⟨List.Subset.refl _, List.Subset.refl _⟩
  | accessed stage h rest t hpc hdone =>
      obtain ⟨hcompleted, hended⟩ := stageStep_history hdone
      rw [hcompleted, hended]
      exact ⟨List.Subset.refl _, List.Subset.refl _⟩
  | raised stage h rest hpc => cases stage <;> exact ⟨List.Subset.refl _, List.Subset.refl _⟩
  | cancelBegun i e ok =>
      rcases cancelBegin_eq s i e ok with he | ⟨waiting, -, he⟩ <;> rw [he] <;>
        exact ⟨List.Subset.refl _, List.Subset.refl _⟩
  | marked i e waiting hc => exact ⟨List.Subset.refl _, List.subset_cons_self _ _⟩
  | _ => exact ⟨List.Subset.refl _, List.Subset.refl _⟩

theorem pending_step (ht : s.step l = some t) {x : CheckpointEntry}
    (hx : x ∈ t.pc.pending) : x ∈ s.pc.pending ∨ x ∈ s.file.load := by
  cases step_move ht with
  | loadFailed hpc => exact Or.inl hx
  | loaded hpc => exact Or.inr hx
  | roundEnded hpc => cases hx
  | passedOver _ y rest hpc => rw [hpc]; exact Or.inl (List.mem_cons_of_mem _ hx)
  | completed snapshot y rest h hpc hy hstatus =>
      rw [hpc]
      exact Or.inl (List.mem_cons_of_mem _ hx)
  | endedBadly snapshot y rest h hpc hy hstatus =>
      rw [hpc]
      exact Or.inl (List.mem_cons_of_mem _ hx)
  | downloaded snapshot files h rest hpc =>
      unfold downloaded at hx
      rw [hpc]
      split at hx <;> exact Or.inl hx
  | put vectors outcome h rest hpc =>
      rw [hpc]
      cases outcome with
      | raised written => cases hx
      | _ => exact Or.inl hx
  | accessed stage h rest t hpc hdone =>
      rw [(stageStep_pc hdone).1] at hx
      rw [hpc]
      exact Or.inl hx
  | raised stage h rest hpc =>
      rw [hpc]
      cases stage with
      | reading => exact Or.inl hx
      | readying => exact Or.inl hx
      | scheduling => exact Or.inl hx
      | failing status => exact Or.inl hx
      | _ => cases hx
  | cancelBegun i e ok =>
      rcases cancelBegin_eq s i e ok with he | ⟨waiting, -, he⟩ <;> rw [he] at hx <;>
        exact Or.inl hx
  | _ => exact Or.inl hx

theorem cancels_setCancel (u : WatcherState ι) (i j : ι) (c : CancelPc) :
    (u.setCancel j c).cancels i = if i = j then c else u.cancels i := by
  unfold setCancel
  by_cases h : i = j
  · subst h
    simp
  · simp [h]

/-- What a step does to cancel `i`. -/
inductive CancelMove (s t : WatcherState ι) (i : ι) : Prop where
  | same (pc : t.cancels i = s.cancels i)
  | done (pc : t.cancels i = .done)
  | begun (e : String) (waiting : Bool) (pc : t.cancels i = .marking e waiting)
      (doc : s.docs e ≠ none)
  | marked (e : String) (waiting : Bool) (old : s.cancels i = .marking e waiting)
      (pc : t.cancels i = .listing e) (doc : ∀ d ∈ t.docs e, d.status = .cancelled)
  | listed (e : String) (old : s.cancels i = .listing e) (pc : t.cancels i = .dropping e)

theorem cancelMove_setCancel (u : WatcherState ι) (i j : ι) (c : CancelPc)
    (hu : u.cancels = s.cancels) (hc : i = j → CancelMove s (u.setCancel j c) j) :
    CancelMove s (u.setCancel j c) i := by
  by_cases hij : i = j
  · subst hij
    exact hc rfl
  · refine .same ?_
    rw [cancels_setCancel, if_neg hij, hu]

theorem cancels_setCancel_self (u : WatcherState ι) (j : ι) (c : CancelPc) :
    (u.setCancel j c).cancels j = c := by
  rw [cancels_setCancel, if_pos rfl]

theorem cancel_step (ht : s.step l = some t) (i : ι) : CancelMove s t i := by
  cases step_move ht with
  | downloaded snapshot files h rest hpc => unfold downloaded; split <;> exact .same rfl
  | put vectors outcome h rest hpc => cases outcome <;> exact .same rfl
  | accessed stage h rest t hpc hdone => exact .same (congrFun (stageStep_pc hdone).2.2 i)
  | raised stage h rest hpc => cases stage <;> exact .same rfl
  | cancelBegun j e ok =>
      rcases cancelBegin_eq s j e ok with he | ⟨waiting, hd, he⟩ <;> rw [he]
      · exact cancelMove_setCancel s i j .done rfl fun _ => .done (cancels_setCancel_self _ _ _)
      · exact cancelMove_setCancel s i j _ rfl fun _ =>
          .begun e waiting (cancels_setCancel_self _ _ _) hd
  | marked j e waiting hm =>
      refine cancelMove_setCancel _ i j _ rfl fun _ => ?_
      cases waiting with
      | false => exact .done (cancels_setCancel_self _ _ _)
      | true =>
          refine .marked e true hm (cancels_setCancel_self _ _ _) fun d hd => ?_
          have hdoc := (docs_updateDoc { s with ended := e :: s.ended } e e fun d =>
            { d with status := .cancelled }).trans (if_pos rfl)
          obtain ⟨d₀, -, rfl⟩ := Option.map_eq_some_iff.mp (hdoc.symm.trans hd)
          rfl
  | listed j e ok hl hsome =>
      exact cancelMove_setCancel s i j _ rfl fun _ => .listed e hl (cancels_setCancel_self _ _ _)
  | dropped j e hd =>
      exact cancelMove_setCancel _ i j _ rfl fun _ => .done (cancels_setCancel_self _ _ _)
  | cancelDone j ok =>
      exact cancelMove_setCancel s i j _ rfl fun _ => .done (cancels_setCancel_self _ _ _)
  | _ => exact .same rfl

/-- A cancel comes to the entries of an experiment only when it has marked it. -/
theorem cancels_step (ht : s.step l = some t) {i : ι} {e : String}
    (hc : t.cancels i = .listing e ∨ t.cancels i = .dropping e) :
    (s.cancels i = .listing e ∨ s.cancels i = .dropping e) ∨
      ∀ d ∈ t.docs e, d.status = .cancelled := by
  cases cancel_step ht i with
  | same pc => rw [pc] at hc; exact Or.inl hc
  | done pc => rw [pc] at hc; rcases hc with hc | hc <;> cases hc
  | begun e' waiting pc doc => rw [pc] at hc; rcases hc with hc | hc <;> cases hc
  | marked e' waiting old pc doc =>
      rw [pc] at hc
      rcases hc with hc | hc <;> cases hc
      exact Or.inr doc
  | listed e' old pc =>
      rw [pc] at hc
      rcases hc with hc | hc <;> cases hc
      exact Or.inl (Or.inl old)

/-- A cancel is about an experiment whose document it has found. -/
theorem about_step (ht : s.step l = some t) {i : ι} {e : String}
    (hc : (t.cancels i).about = some e) : (s.cancels i).about = some e ∨ s.docs e ≠ none := by
  cases cancel_step ht i with
  | same pc => rw [pc] at hc; exact Or.inl hc
  | done pc => rw [pc] at hc; cases hc
  | begun e' waiting pc doc => rw [pc] at hc; cases hc; exact Or.inr doc
  | marked e' waiting old pc doc => rw [pc] at hc; cases hc; rw [old]; exact Or.inl rfl
  | listed e' old pc => rw [pc] at hc; cases hc; rw [old]; exact Or.inl rfl

end WatcherState

end RagParamsFinder
