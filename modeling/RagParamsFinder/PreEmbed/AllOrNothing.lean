/-
  What a request that creates an experiment leaves when it fails.

  Proved: `create_safe_of_run`: in a run whose steps are all `CreateCareful`, a request that
  fails leaves an experiment that is not RUNNING, or has its sweep queued, or has all its
  batches in the file; and a pre-embedding that is ready never goes back to waiting.
  `batch_lost_on_create`: without the condition this fails, since the batches are checkpointed
  only after all of them have been submitted.
-/
import RagParamsFinder.Lib.StepMachine
import RagParamsFinder.PreEmbed.Create

namespace RagParamsFinder

open StepMachine

/-! ## What is claimed, and when -/

namespace WatcherState

variable {ι : Type}

/-- Not stored, or not as RUNNING. -/
def NotRunning (w : WatcherState ι) (id : String) : Prop :=
  ∀ d ∈ w.docs id, d.status ≠ .running

instance (w : WatcherState ι) (id : String) : Decidable (w.NotRunning id) :=
  inferInstanceAs (Decidable (∀ d ∈ w.docs id, d.status ≠ .running))

def preEmbedState (w : WatcherState ι) (id : String) : Option String :=
  ((w.docs id).bind (·.preEmbed)).map (·.state)

/-- A batch of the experiment has been seen to be over, or the experiment was cancelled. -/
def Answered (w : WatcherState ι) (owner : String → String) (id : String) : Prop :=
  id ∈ w.ended ∨ ∃ b ∈ w.completed, owner b = id

instance (w : WatcherState ι) (owner : String → String) (id : String) :
    Decidable (w.Answered owner id) :=
  inferInstanceAs (Decidable (_ ∨ ∃ b ∈ w.completed, owner b = id))

end WatcherState

namespace CreateState

variable {ι : Type}

/-- Something was submitted, and the file holds an entry for each batch. -/
def Filed (s : CreateState ι) (id : String) : Prop :=
  s.batches ≠ [] ∧ ∀ b ∈ s.batches, ∃ x ∈ s.watcher.file.load,
    x.experimentId = some id ∧ x.batchId = some b

instance (s : CreateState ι) (id : String) : Decidable (s.Filed id) :=
  inferInstanceAs (Decidable (_ ∧ ∀ b ∈ s.batches, ∃ x ∈ s.watcher.file.load,
    x.experimentId = some id ∧ x.batchId = some b))

end CreateState

section

variable {ι : Type} (id : String)

structure CreateSafe (s : CreateState ι) (_ : CreateLabel ι) (t : CreateState ι) : Prop where
  accountedFor : t.request = .failed → s.request ≠ .failed →
    t.watcher.NotRunning id ∨ t.watcher.sweeps id ≠ 0 ∨ t.Filed id
  readyStays : ∀ e, s.watcher.preEmbedState e = some "ready" →
    t.watcher.preEmbedState e ≠ some "waiting"

/-- The condition on a step. An access of the request raises only when the experiment has
    ceased to be RUNNING, or at the write of the waiting state when no batch of it has been
    seen to be over; and the watcher marks it ready only once the request is over. -/
def CreateCareful (owner : String → String) (s : CreateState ι) (l : CreateLabel ι)
    (_ : CreateState ι) : Prop :=
  match l with
  | .watcher (.access true) =>
      match s.watcher.pc with
      | .handling .readying h _ => h.experimentId = id → s.request.over = true
      | _ => True
  | .load none => s.watcher.NotRunning id
  | .loadQueries none => s.watcher.NotRunning id
  | .submit none => s.watcher.NotRunning id
  | .access false _ =>
      match s.request with
      | .inserting => True
      | .waiting _ => s.watcher.NotRunning id ∨ ¬ s.watcher.Answered owner id
      | _ => s.watcher.NotRunning id
  | _ => True

instance (owner : String → String) (s : CreateState ι) (l : CreateLabel ι)
    (t : CreateState ι) : Decidable (CreateCareful id owner s l t) := by
  unfold CreateCareful
  repeat' split
  all_goals infer_instance

/-- An entry of the experiment, for a batch of it. -/
def CheckpointEntry.Own (owner : String → String) (id : String) (x : CheckpointEntry) : Prop :=
  x.experimentId = some id ∧ ∀ b ∈ x.batchId, owner b = id

/-- The experiment is new: nothing in the system is about it. -/
structure CreateState.Fresh (owner : String → String) (s : CreateState ι) : Prop where
  inserting : s.request = .inserting
  docs : s.watcher.docs id = none
  batches : s.batches = []
  filed : ∀ x ∈ s.watcher.file.load, x.Foreign owner id
  pending : ∀ x ∈ s.watcher.pc.pending, x.Foreign owner id
  handled : ∀ h ∈ s.watcher.pc.handled, h.experimentId ≠ id ∧ owner h.batchId ≠ id
  cancels : ∀ i, (s.watcher.cancels i).about ≠ some id

end

/-! ## The watcher beside an unfinished request -/

namespace WatcherState

variable {ι : Type}

/-- The watcher takes up a batch of `id` only once it has been seen to be over, and has not
    marked `id` ready; a cancel drops its entries only when it does not run. -/
structure Clear (owner : String → String) (id : String) (w : WatcherState ι) : Prop where
  filed : ∀ x ∈ w.file.load, x.Own owner id ∨ x.Foreign owner id
  pending : ∀ x ∈ w.pc.pending, x.Own owner id ∨ x.Foreign owner id
  handled : ∀ h ∈ w.pc.handled,
    h.experimentId ≠ id ∧ owner h.batchId ≠ id ∨ w.Answered owner id
  notReady : w.preEmbedState id ≠ some "ready"
  cancels : ∀ i, w.cancels i = .listing id ∨ w.cancels i = .dropping id → w.NotRunning id

variable {owner : String → String} {id : String} {w w' : WatcherState ι}

theorem notRunning_map {f : WatchedExperiment → WatchedExperiment}
    (hdoc : w'.docs id = (w.docs id).map f)
    (hf : ∀ d, d.status ≠ .running → (f d).status ≠ .running) (hn : w.NotRunning id) :
    w'.NotRunning id := by
  intro d hd
  rw [hdoc] at hd
  obtain ⟨d₀, hd₀, rfl⟩ := Option.map_eq_some_iff.mp hd
  exact hf d₀ (hn d₀ hd₀)

theorem preEmbedState_map {f : WatchedExperiment → WatchedExperiment} {state : String}
    (hdoc : w'.docs id = (w.docs id).map f)
    (hf : ∀ d, (f d).preEmbed.map (·.state) = some state) :
    w'.preEmbedState id = w.preEmbedState id ∨ w'.preEmbedState id = some state := by
  unfold preEmbedState
  rw [hdoc]
  cases w.docs id with
  | none => exact Or.inl rfl
  | some d => exact Or.inr (hf d)

section

variable [DecidableEq ι] {l : WatcherLabel ι}

theorem docs_none_step (ht : w.step l = some w') (hd : w.docs id = none) :
    w'.docs id = none := by
  cases docs_step ht id with
  | none same => rw [same, hd]
  | cancelled doc => rw [doc, hd]; rfl
  | ready h rest label pc own doc => rw [doc, hd]; rfl
  | failed status batchId doc => rw [doc, hd]; rfl

theorem notRunning_step (ht : w.step l = some w') (hn : w.NotRunning id) :
    w'.NotRunning id := by
  cases docs_step ht id with
  | none same => unfold NotRunning; rwa [same]
  | cancelled doc => exact notRunning_map doc (fun _ _ => by nofun) hn
  | ready h rest label pc own doc => exact notRunning_map doc (fun _ hd => hd) hn
  | failed status batchId doc => exact notRunning_map doc (fun _ _ => by nofun) hn

/-- The watcher and the cancels write no waiting state, and ready in one place. -/
theorem preEmbedState_step (ht : w.step l = some w') (id : String) :
    w'.preEmbedState id = w.preEmbedState id ∨ w'.preEmbedState id = some "failed" ∨
      w'.preEmbedState id = some "ready" ∧ l = .access true ∧
        ∃ h rest, w.pc = .handling .readying h rest ∧ h.experimentId = id := by
  cases docs_step ht id with
  | none same => unfold preEmbedState; rw [same]; exact Or.inl rfl
  | cancelled doc =>
      refine Or.inl ?_
      unfold preEmbedState
      rw [doc]
      cases w.docs id <;> rfl
  | ready h rest label pc own doc =>
      rcases preEmbedState_map doc fun _ => rfl with hs | hs
      · exact Or.inl hs
      · exact Or.inr (Or.inr ⟨hs, label, h, rest, pc, own⟩)
  | failed status batchId doc =>
      rcases preEmbedState_map doc fun _ => rfl with hs | hs
      · exact Or.inl hs
      · exact Or.inr (Or.inl hs)

theorem answered_step (ht : w.step l = some w') (ha : w.Answered owner id) :
    w'.Answered owner id := by
  obtain ⟨hcompleted, hended⟩ := history_step ht
  rcases ha with ha | ⟨b, hb, hown⟩
  · exact Or.inl (hended ha)
  · exact Or.inr ⟨b, hcompleted hb, hown⟩

theorem file_subset_step (ht : w.step l = some w') : w'.file.load ⊆ w.file.load := by
  cases file_step ht with
  | none same => exact same ▸ List.Subset.refl _
  | batch h pc file => rw [file]; exact List.filter_subset_self _
  | ended h pc file => rw [file]; exact List.filter_subset_self _
  | cancelled i e cancel file docs => rw [file]; exact List.filter_subset_self _

/-- The entries of `id` stay in the file while it runs and none of its batches is over. -/
theorem Clear.entry_step (hc : w.Clear owner id) (ht : w.step l = some w')
    {x : CheckpointEntry} {b : String} (hx : x ∈ w.file.load)
    (hid : x.experimentId = some id) (hb : x.batchId = some b) (hown : owner b = id) :
    w'.NotRunning id ∨ w'.Answered owner id ∨ x ∈ w'.file.load := by
  have hkeep : ∀ e, e ≠ id → x ∈ (w.file.removeForExperiment e).load := by
    intro e he
    refine List.mem_filter.mpr ⟨hx, decide_eq_true fun hxe => he ?_⟩
    exact (Option.some.inj (hid.symm.trans hxe)).symm
  cases file_step ht with
  | none same => rw [same]; exact Or.inr (Or.inr hx)
  | batch h pc file =>
      rcases hc.handled h pc with ⟨-, hforeign⟩ | ha
      · refine Or.inr (Or.inr ?_)
        rw [file]
        refine List.mem_filter.mpr ⟨hx, decide_eq_true fun hxb => hforeign ?_⟩
        rw [← Option.some.inj (hb.symm.trans hxb), hown]
      · exact Or.inr (Or.inl (answered_step ht ha))
  | ended h pc file =>
      rcases hc.handled h pc with ⟨hforeign, -⟩ | ha
      · rw [file]
        exact Or.inr (Or.inr (hkeep _ hforeign))
      · exact Or.inr (Or.inl (answered_step ht ha))
  | cancelled i e cancel file docs =>
      by_cases he : e = id
      · rw [he] at cancel
        exact Or.inl (notRunning_step ht (hc.cancels i (Or.inr cancel)))
      · rw [file]
        exact Or.inr (Or.inr (hkeep e he))

theorem clear_step (hc : w.Clear owner id) (ht : w.step l = some w')
    (hready : ∀ h rest, l = .access true → w.pc = .handling .readying h rest →
      h.experimentId ≠ id) : w'.Clear owner id where
  filed := fun x hx => hc.filed x (file_subset_step ht hx)
  pending := by
    intro x hx
    rcases pending_step ht hx with hx | hx
    · exact hc.pending x hx
    · exact hc.filed x hx
  handled := by
    intro h hh
    rcases handled_step ht hh with hold | ⟨⟨x, hx, hxh⟩, hover⟩
    · exact (hc.handled h hold).imp_right (answered_step ht)
    · obtain ⟨hxb, hxe⟩ := CheckpointEntry.handled_eq_some hxh
      rcases hc.pending x hx with ⟨hid, hown⟩ | hforeign
      · have hsame : h.experimentId = id := Option.some.inj (hxe.symm.trans hid)
        rcases hover with hb | he
        · exact Or.inr (Or.inr ⟨h.batchId, hb, hown _ hxb⟩)
        · exact Or.inr (Or.inl (hsame ▸ he))
      · exact Or.inl ⟨fun he => hforeign.1 (he ▸ hxe), hforeign.2 _ hxb⟩
  notReady := by
    rcases preEmbedState_step ht id with hs | hs | ⟨-, hl, h, rest, hpc, hid⟩
    · rw [hs]
      exact hc.notReady
    · rw [hs]
      decide
    · exact absurd hid (hready h rest hl hpc)
  cancels := by
    intro i hi
    rcases cancels_step ht hi with hold | hcancelled
    · exact notRunning_step ht (hc.cancels i hold)
    · intro d hd
      rw [hcancelled d hd]
      nofun

end

end WatcherState

/-! ## The invariant of an unfinished request -/

/-- The batches that the request has been given, in order. -/
def CreatePc.sentIds : CreatePc → List String
  | .submitting _ sent => sent.map (·.2)
  | .checkpointing sent => sent.map (·.2)
  | .waiting submitted => submitted.map (·.batchId)
  | _ => []

namespace CreateState

variable {ι : Type}

structure CreateInv (owner : String → String) (id : String) (s : CreateState ι) : Prop where
  clear : s.watcher.Clear owner id
  stored : s.request = .inserting →
    s.watcher.docs id = none ∧ ∀ i, (s.watcher.cancels i).about ≠ some id
  sent : s.batches = s.request.sentIds
  owned : ∀ b ∈ s.batches, owner b = id
  checkpointing : ∀ sent, s.request = .checkpointing sent → sent ≠ []
  waiting : ∀ submitted, s.request = .waiting submitted →
    s.watcher.NotRunning id ∨ s.watcher.Answered owner id ∨ s.Filed id

variable {owner : String → String} {id : String} {s t : CreateState ι}

theorem createInv_fresh (h : s.Fresh id owner) : s.CreateInv owner id where
  clear :=
    { filed := fun x hx => Or.inr (h.filed x hx)
      pending := fun x hx => Or.inr (h.pending x hx)
      handled := fun x hx => Or.inl (h.handled x hx)
      notReady := by
        unfold WatcherState.preEmbedState
        rw [h.docs]
        nofun
      cancels := by
        intro i _
        unfold WatcherState.NotRunning
        rw [h.docs]
        nofun }
  stored := fun _ => ⟨h.docs, h.cancels⟩
  sent := by rw [h.batches, h.inserting]; rfl
  owned := by rw [h.batches]; nofun
  checkpointing := by rw [h.inserting]; nofun
  waiting := by rw [h.inserting]; nofun

/-- The request moves on without an access of the checkpoint file or of the document. -/
theorem CreateInv.at_pc (hi : s.CreateInv owner id) {pc : CreatePc}
    (hsent : pc.sentIds = s.request.sentIds) (hinserting : pc ≠ .inserting)
    (hcheckpointing : ∀ sent, pc = .checkpointing sent → sent ≠ [])
    (hwaiting : ∀ submitted, pc ≠ .waiting submitted) : (s.goTo pc).CreateInv owner id where
  clear := hi.clear
  stored := fun h => absurd h hinserting
  sent := hi.sent.trans hsent.symm
  owned := hi.owned
  checkpointing := hcheckpointing
  waiting := fun submitted h => absurd h (hwaiting submitted)

theorem CreateInv.watched [DecidableEq ι] (hi : s.CreateInv owner id) {l : WatcherLabel ι}
    {w : WatcherState ι} (ht : s.watcher.step l = some w)
    (hready : ∀ h rest, l = .access true → s.watcher.pc = .handling .readying h rest →
      h.experimentId ≠ id) : (s.withWatcher w).CreateInv owner id where
  clear := WatcherState.clear_step hi.clear ht hready
  stored := by
    intro h
    obtain ⟨hdocs, habout⟩ := hi.stored h
    refine ⟨WatcherState.docs_none_step ht hdocs, fun i hc => ?_⟩
    rcases WatcherState.about_step ht hc with hold | hdoc
    · exact habout i hold
    · exact hdoc hdocs
  sent := hi.sent
  owned := hi.owned
  checkpointing := hi.checkpointing
  waiting := by
    intro submitted h
    rcases hi.waiting submitted h with hn | ha | ⟨hne, hfiled⟩
    · exact Or.inl (WatcherState.notRunning_step ht hn)
    · exact Or.inr (Or.inl (WatcherState.answered_step ht ha))
    · by_cases hn : w.NotRunning id ∨ w.Answered owner id
      · exact hn.imp_right Or.inl
      · refine Or.inr (Or.inr ⟨hne, fun b hb => ?_⟩)
        obtain ⟨x, hx, hxe, hxb⟩ := hfiled b hb
        have hkept := or_assoc.mpr (hi.clear.entry_step ht hx hxe hxb (hi.owned b hb))
        exact ⟨x, hkept.resolve_left hn, hxe, hxb⟩

theorem CreateInv.added (hi : s.CreateInv owner id) {new : List CheckpointEntry}
    (hnew : ∀ x ∈ new, x.Own owner id ∨ x.Foreign owner id) :
    (s.addEntries new).CreateInv owner id where
  clear :=
    { filed := by
        intro x hx
        rcases List.mem_append.mp hx with hx | hx
        · exact hi.clear.filed x hx
        · exact hnew x hx
      pending := hi.clear.pending
      handled := hi.clear.handled
      notReady := hi.clear.notReady
      cancels := hi.clear.cancels }
  stored := hi.stored
  sent := hi.sent
  owned := hi.owned
  checkpointing := hi.checkpointing
  waiting := by
    intro submitted h
    refine (hi.waiting submitted h).imp_right (Or.imp_right ?_)
    rintro ⟨hne, hfiled⟩
    refine ⟨hne, fun b hb => ?_⟩
    obtain ⟨x, hx, hxb⟩ := hfiled b hb
    exact ⟨x, List.mem_append_left _ hx, hxb⟩

/-- The insert stores a document that no cancel is about yet. -/
theorem CreateInv.inserted (hi : s.CreateInv owner id) (hpc : s.request = .inserting)
    {pc : CreatePc} (hafter : pc = .scheduling ∨ ∃ m, pc = .loading m) :
    ((s.insert id).goTo pc).CreateInv owner id := by
  obtain ⟨-, habout⟩ := hi.stored hpc
  have hdocs : (s.insert id).watcher.docs id = some ⟨.running, none, .valid⟩ :=
    Function.update_self _ _ _
  have hbatches : s.batches = [] := by rw [hi.sent, hpc]; rfl
  have hclear : (s.insert id).watcher.Clear owner id :=
    { filed := hi.clear.filed
      pending := hi.clear.pending
      handled := hi.clear.handled
      notReady := by
        unfold WatcherState.preEmbedState
        rw [hdocs]
        nofun
      cancels := by
        intro i hc
        change s.watcher.cancels i = _ ∨ s.watcher.cancels i = _ at hc
        refine absurd ?_ (habout i)
        rcases hc with hc | hc <;> rw [hc] <;> rfl }
  rcases hafter with rfl | ⟨m, rfl⟩
  · exact ⟨hclear, nofun, hbatches, hi.owned, nofun, nofun⟩
  · exact ⟨hclear, nofun, hbatches, hi.owned, nofun, nofun⟩

theorem CreateInv.submitted (hi : s.CreateInv owner id) {job : EmbedJob}
    {jobs : List EmbedJob} {sent : List (EmbedJob × String)} {b : String}
    (hpc : s.request = .submitting (job :: jobs) sent) (hown : owner b = id) :
    CreateInv owner id
      { s with
        request := afterSubmit jobs (sent ++ [(job, b)])
        batches := s.batches ++ [b] } := by
  have hsent : s.batches ++ [b] = (sent ++ [(job, b)]).map (·.2) := by
    rw [hi.sent, hpc, List.map_append]
    rfl
  have howned : ∀ c ∈ s.batches ++ [b], owner c = id := by
    intro c hc
    rcases List.mem_append.mp hc with hc | hc
    · exact hi.owned c hc
    · rw [List.mem_singleton.mp hc, hown]
  unfold afterSubmit
  split
  · refine ⟨hi.clear, nofun, hsent, howned, ?_, nofun⟩
    rintro _ ⟨⟩
    simp
  · exact ⟨hi.clear, nofun, hsent, howned, nofun, nofun⟩

/-- The entries are written: every batch has one. -/
theorem CreateInv.checkpointed (hi : s.CreateInv owner id) {sent : List (EmbedJob × String)}
    (hpc : s.request = .checkpointing sent) (now : Nat) :
    ((s.addEntries (sent.map (checkpointEntry id now))).goTo
      (.waiting (sent.map (submittedJob now)))).CreateInv owner id := by
  have hbatches : s.batches = sent.map (·.2) := by rw [hi.sent, hpc]; rfl
  have hown : ∀ x ∈ sent.map (checkpointEntry id now), x.Own owner id := by
    intro x hx
    obtain ⟨p, hp, rfl⟩ := List.mem_map.mp hx
    refine ⟨rfl, ?_⟩
    rintro _ ⟨⟩
    exact hi.owned p.2 (hbatches ▸ List.mem_map_of_mem hp)
  have hadded := hi.added fun x hx => Or.inl (hown x hx)
  refine ⟨hadded.clear, nofun, ?_, hi.owned, nofun, fun _ _ => Or.inr (Or.inr ⟨?_, ?_⟩)⟩
  · change s.batches = (sent.map (submittedJob now)).map (·.batchId)
    rw [hbatches, List.map_map]
    rfl
  · change s.batches ≠ []
    rw [hbatches]
    exact fun hnone => hi.checkpointing sent hpc (List.map_eq_nil_iff.mp hnone)
  · intro b hb
    change b ∈ s.batches at hb
    rw [hbatches] at hb
    obtain ⟨p, hp, rfl⟩ := List.mem_map.mp hb
    exact ⟨checkpointEntry id now p, List.mem_append_right _ (List.mem_map.mpr ⟨p, hp, rfl⟩),
      rfl, rfl⟩

/-! ## The steps -/

theorem CreateInv.planned (hi : s.CreateInv owner id) {m : EmbeddingModelId} {text : Text}
    {queries : List Text} (hpc : s.request = .lookingUp m text queries) (plan : PreEmbedPlan) :
    (s.goTo (afterPlan plan)).CreateInv owner id := by
  rcases afterPlan_cases plan with he | ⟨jobs, he⟩
  · rw [he]
    exact hi.at_pc (by rw [hpc]; rfl) nofun nofun nofun
  · rw [he]
    exact hi.at_pc (by rw [hpc]; rfl) nofun nofun nofun

theorem CreateInv.ne_of_ready (hi : s.CreateInv owner id) {e : String}
    (hready : s.watcher.preEmbedState e = some "ready") : e ≠ id := by
  rintro rfl
  exact hi.clear.notReady hready

theorem preEmbedState_of_docs {w w' : WatcherState ι} {e : String} (h : w'.docs e = w.docs e)
    (hready : w.preEmbedState e = some "ready") : w'.preEmbedState e ≠ some "waiting" := by
  have hsame : w'.preEmbedState e = some "ready" := by
    unfold WatcherState.preEmbedState
    rwa [h]
  rw [hsame]
  decide

section

variable [DecidableEq ι] (cacheKey : CacheKeyInput → String) (cfg : ExperimentConfig)
  {l : CreateLabel ι}

theorem create_inv_step (hi : s.request.over = false → s.CreateInv owner id)
    (ht : s.step cacheKey owner cfg id l = some t) (hg : CreateCareful id owner s l t)
    (hover : t.request.over = false) : t.CreateInv owner id := by
  cases step_move cacheKey owner cfg id ht with
  | watched l w hw =>
      refine (hi hover).watched hw ?_
      rintro h rest rfl hpc hid
      simp only [CreateCareful, hpc] at hg
      cases hover.symm.trans (hg hid)
  | added new hforeign => exact (hi hover).added fun x hx => Or.inr (hforeign x hx)
  | loaded m text hpc =>
      have hi := hi (by rw [hpc]; rfl)
      exact hi.at_pc (by rw [hpc]; rfl) nofun nofun nofun
  | queriesLoaded m text queries hpc =>
      have hi := hi (by rw [hpc]; rfl)
      exact hi.at_pc (by rw [hpc]; rfl) nofun nofun nofun
  | submitted job jobs sent b hpc hown => exact (hi (by rw [hpc]; rfl)).submitted hpc hown
  | inserted now hpc => exact (hi (by rw [hpc]; rfl)).inserted hpc (afterInsert_cases cfg)
  | planned now m text queries hpc => exact (hi (by rw [hpc]; rfl)).planned hpc _
  | checkpointed now sent hpc => exact (hi (by rw [hpc]; rfl)).checkpointed hpc now
  | markedWaiting now submitted hpc => cases hover
  | scheduled now hpc => cases hover
  | notLoaded l hl => cases hover
  | notAccessed now => cases hover

/-- The request writes the waiting state only over a document that is not ready. -/
theorem readyStays_step (hi : s.request.over = false → s.CreateInv owner id)
    (ht : s.step cacheKey owner cfg id l = some t) (e : String)
    (hready : s.watcher.preEmbedState e = some "ready") :
    t.watcher.preEmbedState e ≠ some "waiting" := by
  cases step_move cacheKey owner cfg id ht with
  | watched l w hw =>
      change w.preEmbedState e ≠ some "waiting"
      rcases WatcherState.preEmbedState_step hw e with hs | hs | ⟨hs, -⟩
      · rw [hs, hready]
        decide
      · rw [hs]
        decide
      · rw [hs]
        decide
  | inserted now hpc =>
      have hne : e ≠ id := (hi (by rw [hpc]; rfl)).ne_of_ready hready
      exact preEmbedState_of_docs (Function.update_of_ne hne _ _) hready
  | markedWaiting now submitted hpc =>
      have hne : e ≠ id := (hi (by rw [hpc]; rfl)).ne_of_ready hready
      exact preEmbedState_of_docs
        ((WatcherState.docs_updateDoc s.watcher id e _).trans (if_neg hne)) hready
  | _ => exact preEmbedState_of_docs rfl hready

theorem accountedFor_step (hi : s.request.over = false → s.CreateInv owner id)
    (ht : s.step cacheKey owner cfg id l = some t) (hg : CreateCareful id owner s l t)
    (hfailed : t.request = .failed) (hs : s.request ≠ .failed) :
    t.watcher.NotRunning id ∨ t.watcher.sweeps id ≠ 0 ∨ t.Filed id := by
  cases step_move cacheKey owner cfg id ht with
  | watched l w hw => exact absurd hfailed hs
  | added new hforeign => exact absurd hfailed hs
  | submitted job jobs sent b hpc hown =>
      change afterSubmit jobs (sent ++ [(job, b)]) = .failed at hfailed
      unfold afterSubmit at hfailed
      split at hfailed <;> cases hfailed
  | inserted now hpc =>
      change afterInsert cfg = .failed at hfailed
      rcases afterInsert_cases cfg with he | ⟨m, he⟩ <;> cases he.symm.trans hfailed
  | planned now m text queries hpc =>
      change afterPlan _ = .failed at hfailed
      rcases afterPlan_cases _ with he | ⟨jobs, he⟩ <;> cases he.symm.trans hfailed
  | notLoaded l hl => rcases hl with rfl | rfl | rfl <;> exact Or.inl hg
  | notAccessed now =>
      cases hpc : s.request with
      | inserting =>
          have hi := hi (by rw [hpc]; rfl)
          refine Or.inl fun d hd => ?_
          cases (hi.stored hpc).1.symm.trans hd
      | waiting submitted =>
          have hi := hi (by rw [hpc]; rfl)
          simp only [CreateCareful, hpc] at hg
          rcases hi.waiting submitted hpc with hn | ha | hfiled
          · exact Or.inl hn
          · exact Or.inl (hg.resolve_right (not_not_intro ha))
          · exact Or.inr (Or.inr hfiled)
      | _ =>
          simp only [CreateCareful, hpc] at hg
          exact Or.inl hg
  | _ => cases hfailed

end

end CreateState

/-! ## Whole runs -/

/-- In a run of careful steps, whatever the watcher, the cancels and other requests do in
    between, creating the experiment `id` is all or nothing. -/
theorem create_safe_of_run {ι : Type} [DecidableEq ι] (cacheKey : CacheKeyInput → String)
    (owner : String → String) (cfg : ExperimentConfig) (id : String) (s : CreateState ι)
    (hs : s.Fresh id owner) (ls : List (CreateLabel ι))
    (hG : EveryStep (CreateState.step cacheKey owner cfg id) (CreateCareful id owner) s ls) :
    EveryStep (CreateState.step cacheKey owner cfg id) (CreateSafe id) s ls := by
  refine @everyStep_of_inv _ _ _ (fun u => u.request.over = false → u.CreateInv owner id)
    (CreateCareful id owner) _ ?_ s (fun _ => CreateState.createInv_fresh hs) ls hG
  intro u l t hi ht hg
  exact ⟨CreateState.create_inv_step cacheKey cfg hi ht hg,
    CreateState.accountedFor_step cacheKey cfg hi ht hg,
    CreateState.readyStays_step cacheKey cfg hi ht⟩

/-! ## One request -/

/-- The file holds a batch of another experiment. -/
def newExperiment : CreateState Unit where
  watcher :=
    { file := .entries [⟨some "e2", "e2:doc", some "b9", .doc, 1, 0⟩]
      docs := fun _ => none
      cache := []
      sweeps := fun _ => 0
      pc := .sleeping
      cancels := fun _ => .idle
      completed := []
      ended := [] }
  request := .inserting
  batches := []

def batchOwner (b : String) : String := if b = "b9" then "e2" else "e1"

theorem newExperiment_fresh : newExperiment.Fresh "e1" batchOwner :=
  ⟨rfl, rfl, rfl, by decide, nofun, nofun, fun _ => nofun⟩

/-- The request up to its second submission. -/
def firstSubmitted : List (CreateLabel Unit) :=
  [.access true 0, .load (some twoParagraphs), .loadQueries (some [['q']]), .access true 1,
    .submit (some "b1")]

/-- The write of the waiting state raises, while the watcher is at the other batch. -/
def waitingNotWritten : List (CreateLabel Unit) :=
  firstSubmitted ++ [.watcher (.load true), .submit (some "b2"), .access true 2,
    .watcher (.poll (some ⟨.completed, none, none⟩)), .access false 3]

theorem create_safe_of_run_waitingNotWritten :
    ((exec (CreateState.step plainKey batchOwner qwenFixed "e1") newExperiment
        waitingNotWritten).map fun s =>
      (s.request, (s.watcher.docs "e1").map (·.status), s.watcher.file.load.map (·.batchId))) =
      some (.failed, some .running, [some "b9", some "b1", some "b2"]) ∧
    EveryStep (CreateState.step plainKey batchOwner qwenFixed "e1") (CreateSafe "e1")
      newExperiment waitingNotWritten :=
  ⟨by decide +kernel, create_safe_of_run plainKey batchOwner qwenFixed "e1" newExperiment
    newExperiment_fresh waitingNotWritten (by decide +kernel)⟩

/-- The second submission raises: the experiment stays RUNNING, its first batch is in no
    entry, and no sweep is queued. -/
theorem batch_lost_on_create :
    ((exec (CreateState.step plainKey batchOwner qwenFixed "e1") newExperiment
        (firstSubmitted ++ [.submit none])).map fun s =>
      ((s.request, (s.watcher.docs "e1").map (·.status), s.watcher.sweeps "e1"),
        (s.batches, s.watcher.file.load.map (·.batchId)))) =
      some ((.failed, some .running, 0), (["b1"], [some "b9"])) ∧
    ¬ EveryStep (CreateState.step plainKey batchOwner qwenFixed "e1") (CreateSafe "e1")
      newExperiment (firstSubmitted ++ [.submit none]) := by
  refine ⟨by decide +kernel, fun h => ?_⟩
  have hsafe := everyStep_at h rfl rfl
  rcases hsafe.accountedFor rfl nofun with hstatus | hsweeps | hfiled
  · exact hstatus ⟨.running, none, .valid⟩ rfl rfl
  · exact hsweeps rfl
  · exact absurd hfiled (by decide +kernel)

end RagParamsFinder
