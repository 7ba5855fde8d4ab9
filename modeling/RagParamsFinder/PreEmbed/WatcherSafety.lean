/-
  When the watcher queues the sweep of an experiment.

  Proved: `watcher_safe_of_run`: in a run whose steps are all `Careful`, a sweep is queued
  once at most, after every batch of the experiment completed with its vectors in the cache,
  and of an experiment that has not ended; and the entry of a completed batch leaves the
  file only when its vectors are in the cache. `swept_after_failure`: without the condition
  this fails, since the round goes on with the entries it loaded at its start.
-/
import RagParamsFinder.Lib.StepMachine
import RagParamsFinder.PreEmbed.Watcher

namespace RagParamsFinder

open StepMachine

namespace WatcherState

variable {ι : Type} (items : String → List String)

/-! ## What is claimed, and when -/

/-- Cancelled or failed, or with a batch that ended badly. -/
def Ended (s : WatcherState ι) (e : String) : Prop :=
  e ∈ s.ended ∨ ∃ d ∈ s.docs e, d.status = .cancelled ∨ d.status = .failed

instance (s : WatcherState ι) (e : String) : Decidable (s.Ended e) :=
  inferInstanceAs (Decidable (_ ∨ _))

def Cached (s : WatcherState ι) (batchId : String) : Prop :=
  ∀ k ∈ items batchId, k ∈ s.cache

instance (s : WatcherState ι) (batchId : String) : Decidable (s.Cached items batchId) :=
  inferInstanceAs (Decidable (∀ k ∈ items batchId, k ∈ s.cache))

/-- The batch of an entry has completed, and its vectors are in the cache. -/
def Finished (s : WatcherState ι) (x : CheckpointEntry) : Prop :=
  ∃ b ∈ s.completed, x.batchId = some b ∧ s.Cached items b

/-- The completed batches of `e` that are still in the file have their vectors cached. -/
def CachedOut (s : WatcherState ι) (e : String) : Prop :=
  ∀ x ∈ s.file.getForExperiment e, ∀ b ∈ s.completed, x.batchId = some b → s.Cached items b

instance (s : WatcherState ι) (e : String) : Decidable (s.CachedOut items e) :=
  inferInstanceAs (Decidable (∀ x ∈ s.file.getForExperiment e, ∀ b ∈ s.completed,
    x.batchId = some b → s.Cached items b))

end WatcherState

/-- The experiment whose sweep the watcher is about to queue. -/
def WatcherPc.triggering : WatcherPc → Option String
  | .handling .reading h _ => some h.experimentId
  | .handling .readying h _ => some h.experimentId
  | .handling .scheduling h _ => some h.experimentId
  | _ => none

section

variable {ι : Type} (items : String → List String) (submitted : List CheckpointEntry)

/-- What a step of the watcher, or of a cancel, may do to the sweeps and to the file. -/
structure WatcherSafe (s : WatcherState ι) (_ : WatcherLabel ι) (t : WatcherState ι) :
    Prop where
  once : ∀ e, t.sweeps e ≠ s.sweeps e → s.sweeps e = 0 ∧ t.sweeps e = 1
  finished : ∀ e, t.sweeps e ≠ s.sweeps e →
    ∀ x ∈ submitted, x.experimentId = some e → s.Finished items x
  notEnded : ∀ e, t.sweeps e ≠ s.sweeps e → ¬ s.Ended e
  removed : ∀ x ∈ s.file.load, x ∉ t.file.load → ∀ b ∈ s.completed, x.batchId = some b →
    s.Cached items b

/-- The condition on a step. The watcher finds no entry left only of an experiment that has
    not ended, and no cancel marks it from then until its sweep is queued. The output file
    of a completed batch delivers a vector for each item, and the cache stores them and keeps
    them until then. The entries of an experiment are dropped only when the vectors of its
    completed batches are cached. -/
def Careful (s : WatcherState ι) (l : WatcherLabel ι) (_ : WatcherState ι) : Prop :=
  match l with
  | .download files =>
      match s.pc with
      | .handling (.downloading snapshot) h _ =>
          ∀ k ∈ items h.batchId,
            k ∈ deliveredIds ((snapshot.outputFileId.bind files.output).getD []) ∨ k ∈ s.cache
      | _ => True
  | .put (.swallowed written) =>
      match s.pc with
      | .handling (.caching vectors) h _ =>
          ∀ k ∈ items h.batchId, k ∈ vectors.take written ∨ k ∈ s.cache
      | _ => True
  | .access true =>
      match s.pc with
      | .handling .checking h _ =>
          s.file.getForExperiment h.experimentId = [] → ¬ s.Ended h.experimentId
      | .handling (.dropping _) h _ => s.CachedOut items h.experimentId
      | _ => True
  | .cancelAccess i true =>
      match s.cancels i with
      | .marking e _ => s.pc.triggering ≠ some e
      | .dropping e => s.CachedOut items e
      | _ => True
  | .evict key =>
      ∀ x ∈ submitted, ∀ b ∈ s.completed, x.batchId = some b → key ∈ items b →
        ∀ e ∈ x.experimentId, s.sweeps e ≠ 0
  | _ => True

instance (s : WatcherState ι) (l : WatcherLabel ι) (t : WatcherState ι) :
    Decidable (Careful items submitted s l t) := by
  unfold Careful
  repeat' split
  all_goals infer_instance

/-- Two entries of different batches. -/
def CheckpointEntry.Apart (x y : CheckpointEntry) : Prop :=
  ∀ b ∈ x.batchId, y.batchId ≠ some b

instance (x y : CheckpointEntry) : Decidable (x.Apart y) :=
  inferInstanceAs (Decidable (∀ b ∈ x.batchId, y.batchId ≠ some b))

/-- The file holds the submitted batches, which have distinct ids, and nothing has begun. -/
structure WatcherState.Started (s : WatcherState ι) : Prop where
  file : s.file.load = submitted
  distinct : submitted.Pairwise CheckpointEntry.Apart
  sleeping : s.pc = .sleeping
  idle : ∀ i, s.cancels i = .idle
  unswept : ∀ e, s.sweeps e = 0
  completed : s.completed = []
  ended : s.ended = []

end

/-! ## The invariant -/

namespace WatcherState

variable {ι : Type} (items : String → List String) (submitted : List CheckpointEntry)

/-- No sweep of `e` has been queued, and none is ruled out. -/
def Open (s : WatcherState ι) (e : String) : Prop := ¬ s.Ended e ∧ s.sweeps e = 0

def EntryOf (h : Handled) : Prop :=
  ∃ x ∈ submitted, x.batchId = some h.batchId ∧ x.experimentId = some h.experimentId

/-- The batch at hand was seen completed, and its entry is not met again in this round. -/
def Current (s : WatcherState ι) (h : Handled) (rest : List CheckpointEntry) : Prop :=
  h.batchId ∈ s.completed ∧ EntryOf submitted h ∧ ∀ x ∈ rest, x.batchId ≠ some h.batchId

/-- What the watcher relies on; from `reading` on, that no batch is left and none ended. -/
def StageInv (s : WatcherState ι) (h : Handled) (rest : List CheckpointEntry) :
    WatcherStage → Prop
  | .downloading _ => s.sweeps h.experimentId = 0 ∧ s.Current submitted h rest
  | .caching vectors =>
      s.sweeps h.experimentId = 0 ∧ s.Current submitted h rest ∧
        ∀ k ∈ items h.batchId, k ∈ vectors ∨ k ∈ s.cache
  | .removing =>
      s.sweeps h.experimentId = 0 ∧ s.Current submitted h rest ∧ s.Cached items h.batchId
  | .checking => s.sweeps h.experimentId = 0
  | .reading => s.Open h.experimentId ∧ s.file.getForExperiment h.experimentId = []
  | .readying => s.Open h.experimentId ∧ s.file.getForExperiment h.experimentId = []
  | .scheduling => s.Open h.experimentId ∧ s.file.getForExperiment h.experimentId = []
  | .dropping _ => h.experimentId ∈ s.ended
  | .failing _ => True

def PcInv (s : WatcherState ι) : WatcherPc → Prop
  | .handling stage h rest => s.StageInv items submitted h rest stage
  | _ => True

structure WatcherInv (s : WatcherState ι) : Prop where
  filed : s.file.load.Sublist submitted
  pending : s.pc.pending.Sublist submitted
  pendingFiled : ∀ x ∈ s.pc.pending, ∀ e, x.experimentId = some e → ¬ s.Ended e →
    x ∈ s.file.load
  pendingUnswept : ∀ x ∈ s.pc.pending, ∀ e, x.experimentId = some e → s.sweeps e = 0
  accounted : ∀ x ∈ submitted, ∀ e, x.experimentId = some e → s.Open e →
    x ∈ s.file.load ∨ s.Finished items x
  swept : ∀ e, s.sweeps e ≠ 0 → s.file.getForExperiment e = []
  stage : s.PcInv items submitted s.pc
  cancels : ∀ i e, s.cancels i = .listing e ∨ s.cancels i = .dropping e → e ∈ s.ended

variable {items submitted} {s t : WatcherState ι}

theorem watcherInv_started (h : s.Started submitted) : s.WatcherInv items submitted where
  filed := h.file ▸ List.Sublist.refl _
  pending := h.sleeping ▸ List.nil_sublist _
  pendingFiled := by rw [h.sleeping]; nofun
  pendingUnswept := fun _ _ e _ => h.unswept e
  accounted := fun x hx e _ _ => Or.inl (by rwa [h.file])
  swept := fun e he => absurd (h.unswept e) he
  stage := by rw [h.sleeping]; trivial
  cancels := by
    intro i e hc
    rw [h.idle i] at hc
    rcases hc with hc | hc <;> cases hc

theorem mem_getForExperiment {f : CheckpointFile} {x : CheckpointEntry} {e : String} :
    x ∈ f.getForExperiment e ↔ x ∈ f.load ∧ x.experimentId = some e := by
  simp [CheckpointFile.getForExperiment]

theorem getForExperiment_eq_nil {f : CheckpointFile} {e : String} :
    f.getForExperiment e = [] ↔ ∀ x ∈ f.load, x.experimentId ≠ some e := by
  simp [CheckpointFile.getForExperiment]

/-! ## One component at a time -/

/-- What the watcher relies on at its stage, carried over to a later state. -/
theorem PcInv.mono {pc : WatcherPc} (hs : s.PcInv items submitted pc)
    (hopen : ∀ e, pc.triggering = some e → s.Open e → t.Open e)
    (hunswept : t.sweeps = s.sweeps) (hcompleted : s.completed ⊆ t.completed)
    (hcached : ∀ h : Handled, s.sweeps h.experimentId = 0 → h.batchId ∈ s.completed →
      EntryOf submitted h → ∀ k ∈ items h.batchId, k ∈ s.cache → k ∈ t.cache)
    (hnone : ∀ e, s.file.getForExperiment e = [] → t.file.getForExperiment e = [])
    (hended : s.ended ⊆ t.ended) : t.PcInv items submitted pc := by
  cases pc with
  | sleeping => trivial
  | polling entries => trivial
  | handling stage h rest =>
      have hcurrent : s.Current submitted h rest → t.Current submitted h rest := fun hc =>
        ⟨hcompleted hc.1, hc.2⟩
      have hsweeps : t.sweeps h.experimentId = s.sweeps h.experimentId := congrFun hunswept _
      cases stage with
      | downloading snapshot => exact ⟨hsweeps.trans hs.1, hcurrent hs.2⟩
      | caching vectors =>
          obtain ⟨h0, hc, hk⟩ := hs
          exact ⟨hsweeps.trans h0, hcurrent hc, fun k hm =>
            (hk k hm).imp_right (hcached h h0 hc.1 hc.2.1 k hm)⟩
      | removing =>
          obtain ⟨h0, hc, hk⟩ := hs
          exact ⟨hsweeps.trans h0, hcurrent hc, fun k hm =>
            hcached h h0 hc.1 hc.2.1 k hm (hk k hm)⟩
      | checking => exact hsweeps.trans hs
      | reading => exact ⟨hopen _ rfl hs.1, hnone _ hs.2⟩
      | readying => exact ⟨hopen _ rfl hs.1, hnone _ hs.2⟩
      | scheduling => exact ⟨hopen _ rfl hs.1, hnone _ hs.2⟩
      | dropping status => exact hended hs
      | failing status => trivial

/-- The watcher moves on within its round. -/
theorem WatcherInv.at_pc (hi : s.WatcherInv items submitted) {pc : WatcherPc}
    (hpending : pc.pending.Sublist s.pc.pending) (hstage : s.PcInv items submitted pc) :
    WatcherInv items submitted { s with pc := pc } where
  filed := hi.filed
  pending := hpending.trans hi.pending
  pendingFiled := fun x hx => hi.pendingFiled x (hpending.subset hx)
  pendingUnswept := fun x hx => hi.pendingUnswept x (hpending.subset hx)
  accounted := hi.accounted
  swept := hi.swept
  stage := hstage
  cancels := hi.cancels

/-- Entries leave the file: those of an experiment that has ended, or of a batch that is
    finished and not met again. -/
theorem WatcherInv.with_file (hi : s.WatcherInv items submitted) {f : CheckpointFile}
    (hf : f.load.Sublist s.file.load)
    (hkeep : ∀ x ∈ s.file.load, ∀ e, x.experimentId = some e → ¬ s.Ended e →
      x ∈ f.load ∨ s.Finished items x ∧ x ∉ s.pc.pending) :
    WatcherInv items submitted { s with file := f } := by
  have hnone : ∀ e, s.file.getForExperiment e = [] → f.getForExperiment e = [] := by
    intro e he
    rw [getForExperiment_eq_nil] at he ⊢
    exact fun x hx => he x (hf.subset hx)
  refine ⟨hf.trans hi.filed, hi.pending, ?_, hi.pendingUnswept, ?_,
    fun e he => hnone e (hi.swept e he), ?_, hi.cancels⟩
  · intro x hx e he hended
    have hfiled := hi.pendingFiled x hx e he hended
    exact (hkeep x hfiled e he hended).resolve_right fun hfin => hfin.2 hx
  · intro x hx e he hopen
    rcases hi.accounted x hx e he hopen with hfiled | hfin
    · exact (hkeep x hfiled e he hopen.1).imp_right And.left
    · exact Or.inr hfin
  · exact hi.stage.mono (fun _ _ => id) rfl (fun _ => id) (fun _ _ _ _ _ _ => id) hnone
      fun _ => id

/-- The cache changes; the vectors of completed batches stay until the sweep is queued. -/
theorem WatcherInv.with_cache (hi : s.WatcherInv items submitted) {cache : List String}
    (hcache : ∀ x ∈ submitted, ∀ b ∈ s.completed, x.batchId = some b →
      ∀ e, x.experimentId = some e → s.sweeps e = 0 →
        ∀ k ∈ items b, k ∈ s.cache → k ∈ cache) :
    WatcherInv items submitted { s with cache := cache } := by
  refine ⟨hi.filed, hi.pending, hi.pendingFiled, hi.pendingUnswept, ?_, hi.swept, ?_,
    hi.cancels⟩
  · intro x hx e he hopen
    refine (hi.accounted x hx e he hopen).imp_right ?_
    rintro ⟨b, hb, hxb, hcached⟩
    exact ⟨b, hb, hxb, fun k hk => hcache x hx b hb hxb e he hopen.2 k hk (hcached k hk)⟩
  · refine hi.stage.mono (fun _ _ => id) rfl (fun _ => id) ?_ (fun _ => id) fun _ => id
    rintro h hunswept hb ⟨x, hx, hxb, hxe⟩
    exact hcache x hx h.batchId hb hxb _ hxe hunswept

/-- A batch is seen completed. -/
theorem WatcherInv.with_completed (hi : s.WatcherInv items submitted) (b : String) :
    WatcherInv items submitted { s with completed := b :: s.completed } := by
  refine ⟨hi.filed, hi.pending, hi.pendingFiled, hi.pendingUnswept, ?_, hi.swept, ?_,
    hi.cancels⟩
  · intro x hx e he hopen
    refine (hi.accounted x hx e he hopen).imp_right ?_
    rintro ⟨b', hb, hfin⟩
    exact ⟨b', List.mem_cons_of_mem _ hb, hfin⟩
  · exact hi.stage.mono (fun _ _ => id) rfl (List.subset_cons_self _ _)
      (fun _ _ _ _ _ _ => id) (fun _ => id) fun _ => id

/-- Experiments end, none of them the one whose sweep is about to be queued. -/
theorem WatcherInv.with_ended (hi : s.WatcherInv items submitted) {ended : List String}
    {docs : String → Option WatchedExperiment} (hsub : s.ended ⊆ ended)
    (hended : ∀ e, s.Ended e → Ended { s with ended := ended, docs := docs } e)
    (hopen : ∀ e, s.pc.triggering = some e →
      Ended { s with ended := ended, docs := docs } e → s.Ended e) :
    WatcherInv items submitted { s with ended := ended, docs := docs } := by
  refine ⟨hi.filed, hi.pending, ?_, hi.pendingUnswept, ?_, hi.swept, ?_, ?_⟩
  · intro x hx e he halive
    exact hi.pendingFiled x hx e he (mt (hended e) halive)
  · intro x hx e he ho
    exact hi.accounted x hx e he ⟨mt (hended e) ho.1, ho.2⟩
  · exact hi.stage.mono (fun e he ho => ⟨mt (hopen e he) ho.1, ho.2⟩) rfl (fun _ => id)
      (fun _ _ _ _ _ _ => id) (fun _ => id) hsub
  · exact fun i e hc => hsub (hi.cancels i e hc)

/-- The sweep of `e` is queued, when no entry of it is in the file or in the round. -/
theorem WatcherInv.with_sweep (hi : s.WatcherInv items submitted) {e : String} {n : Nat}
    {rest : List CheckpointEntry} (hnone : s.file.getForExperiment e = [])
    (hpc : s.pc = .polling rest) (halive : ¬ s.Ended e) :
    WatcherInv items submitted { s with sweeps := Function.update s.sweeps e (n + 1) } := by
  have hother : ∀ e', e' ≠ e → Function.update s.sweeps e (n + 1) e' = s.sweeps e' :=
    fun e' hne => Function.update_of_ne hne _ _
  refine ⟨hi.filed, hi.pending, hi.pendingFiled, ?_, ?_, ?_, ?_, hi.cancels⟩
  · intro x hx e' he
    refine (hother e' ?_).trans (hi.pendingUnswept x hx e' he)
    rintro rfl
    exact getForExperiment_eq_nil.mp hnone x (hi.pendingFiled x hx e' he halive) he
  · rintro x hx e' he ⟨halive', hunswept⟩
    change Function.update s.sweeps e (n + 1) e' = 0 at hunswept
    by_cases hee : e' = e
    · rw [hee, Function.update_self] at hunswept
      cases hunswept
    · exact hi.accounted x hx e' he ⟨halive', (hother e' hee).symm.trans hunswept⟩
  · intro e' he
    by_cases hee : e' = e
    · rw [hee]; exact hnone
    · exact hi.swept e' fun h0 => he ((hother e' hee).trans h0)
  · change PcInv items submitted _ s.pc
    rw [hpc]
    trivial

theorem WatcherInv.with_cancel [DecidableEq ι] (hi : s.WatcherInv items submitted) {i : ι}
    {c : CancelPc} (hc : ∀ e, c = .listing e ∨ c = .dropping e → e ∈ s.ended) :
    WatcherInv items submitted (s.setCancel i c) := by
  refine ⟨hi.filed, hi.pending, hi.pendingFiled, hi.pendingUnswept, hi.accounted, hi.swept, ?_,
    ?_⟩
  · exact hi.stage.mono (fun _ _ => id) rfl (fun _ => id) (fun _ _ _ _ _ _ => id) (fun _ => id)
      fun _ => id
  · intro j e hj
    change Function.update s.cancels i c j = _ ∨ Function.update s.cancels i c j = _ at hj
    by_cases hji : j = i
    · subst hji
      rw [Function.update_self] at hj
      exact hc e hj
    · rw [Function.update_of_ne hji] at hj
      exact hi.cancels j e hj

/-! ## The steps of the watcher -/

theorem ended_updateDoc {id e : String} {f : WatchedExperiment → WatchedExperiment} :
    (s.updateDoc id f).Ended e ↔ e ∈ s.ended ∨ ∃ d ∈ s.docs e,
      (if e = id then f d else d).status = .cancelled ∨
        (if e = id then f d else d).status = .failed := by
  unfold Ended updateDoc
  by_cases he : e = id
  · subst he
    simp
  · simp [he]

/-- An experiment ends whose sweep is not about to be queued. -/
theorem WatcherInv.end (hi : s.WatcherInv items submitted) {id : String}
    (hfree : s.pc.triggering ≠ some id) :
    WatcherInv items submitted { s with ended := id :: s.ended } := by
  refine @with_ended _ _ _ s hi (id :: s.ended) s.docs (List.subset_cons_self _ _) ?_ ?_
  · exact fun e he => he.imp_left (List.mem_cons_of_mem _)
  · intro e he hended
    refine hended.imp_left fun hm => ?_
    rcases List.mem_cons.mp hm with rfl | hm
    · exact absurd he hfree
    · exact hm

/-- An update of a document that reopens nothing, and ends at most its own experiment. -/
theorem WatcherInv.updateDoc (hi : s.WatcherInv items submitted) {id : String}
    {f : WatchedExperiment → WatchedExperiment}
    (hf : ∀ d, d.status = .cancelled ∨ d.status = .failed →
      (f d).status = .cancelled ∨ (f d).status = .failed)
    (hopen : s.pc.triggering = some id → ∀ d, (f d).status = d.status) :
    (s.updateDoc id f).WatcherInv items submitted := by
  refine @with_ended _ _ _ s hi s.ended _ (List.Subset.refl _) ?_ ?_
  · intro e he
    refine ended_updateDoc.mpr (he.imp_right ?_)
    rintro ⟨d, hd, hs⟩
    refine ⟨d, hd, ?_⟩
    split
    · exact hf d hs
    · exact hs
  · intro e he hended
    refine (ended_updateDoc.mp hended).imp_right ?_
    rintro ⟨d, hd, hs⟩
    refine ⟨d, hd, ?_⟩
    by_cases hid : e = id
    · subst hid
      rwa [if_pos rfl, hopen he] at hs
    · rwa [if_neg hid] at hs

theorem WatcherInv.next (hi : s.WatcherInv items submitted) {rest : List CheckpointEntry}
    (hrest : rest.Sublist s.pc.pending) : (s.next rest).WatcherInv items submitted :=
  hi.at_pc hrest trivial

theorem WatcherInv.abort (hi : s.WatcherInv items submitted) :
    s.abort.WatcherInv items submitted :=
  hi.at_pc (List.nil_sublist _) trivial

variable {h : Handled} {rest : List CheckpointEntry}

theorem WatcherInv.completed (hi : s.WatcherInv items submitted)
    (hdistinct : submitted.Pairwise CheckpointEntry.Apart) {x : CheckpointEntry}
    (hpc : s.pc = .polling (x :: rest)) (hx : x.handled = some h) (snapshot : BatchSnapshot) :
    ({ s with completed := h.batchId :: s.completed }.goTo (.downloading snapshot) h
      rest).WatcherInv items submitted := by
  obtain ⟨hxb, hxe⟩ := CheckpointEntry.handled_eq_some hx
  have hpending : s.pc.pending = x :: rest := by rw [hpc]; rfl
  have hrest : rest.Sublist s.pc.pending := by rw [hpending]; exact List.sublist_cons_self x rest
  have hmem : x ∈ s.pc.pending := by rw [hpending]; exact List.mem_cons_self
  have hentry : EntryOf submitted h := ⟨x, hi.pending.subset hmem, hxb, hxe⟩
  have hunswept : s.sweeps h.experimentId = 0 := hi.pendingUnswept x hmem _ hxe
  have hapart : ∀ y ∈ rest, y.batchId ≠ some h.batchId := by
    have hpairwise := hdistinct.sublist hi.pending
    rw [hpending, List.pairwise_cons] at hpairwise
    exact fun y hy => hpairwise.1 y hy _ hxb
  exact (hi.with_completed h.batchId).at_pc hrest
    ⟨hunswept, List.mem_cons_self, hentry, hapart⟩

theorem WatcherInv.endedBadly (hi : s.WatcherInv items submitted) {x : CheckpointEntry}
    (hpc : s.pc = .polling (x :: rest)) (status : BatchStatus) :
    ({ s with ended := h.experimentId :: s.ended }.goTo (.dropping status) h
      rest).WatcherInv items submitted := by
  have hrest : rest.Sublist s.pc.pending := by rw [hpc]; exact List.sublist_cons_self x rest
  exact (hi.end (by rw [hpc]; nofun)).at_pc hrest List.mem_cons_self

theorem WatcherInv.downloaded (hi : s.WatcherInv items submitted) {snapshot : BatchSnapshot}
    (hpc : s.pc = .handling (.downloading snapshot) h rest) {vectors : List String}
    (hall : ∀ k ∈ items h.batchId, k ∈ vectors ∨ k ∈ s.cache) :
    (s.downloaded h rest vectors).WatcherInv items submitted := by
  obtain ⟨hunswept, hcurrent⟩ : s.sweeps h.experimentId = 0 ∧ s.Current submitted h rest := by
    have hstage := hi.stage
    rwa [hpc] at hstage
  have hrest : rest.Sublist s.pc.pending := by rw [hpc]; exact List.Sublist.refl _
  unfold WatcherState.downloaded
  split
  · rename_i hnone
    rw [List.isEmpty_iff.mp hnone] at hall
    exact hi.at_pc hrest ⟨hunswept, hcurrent, fun k hk => (hall k hk).resolve_left (by nofun)⟩
  · exact hi.at_pc hrest ⟨hunswept, hcurrent, hall⟩

theorem WatcherInv.putMany (hi : s.WatcherInv items submitted) {vectors : List String}
    (hpc : s.pc = .handling (.caching vectors) h rest) {outcome : PutOutcome}
    (hall : ∀ written, outcome = .swallowed written →
      ∀ k ∈ items h.batchId, k ∈ vectors.take written ∨ k ∈ s.cache) :
    (s.putMany h rest vectors outcome).WatcherInv items submitted := by
  obtain ⟨hunswept, hcurrent, hstored⟩ : s.sweeps h.experimentId = 0 ∧
      s.Current submitted h rest ∧ ∀ k ∈ items h.batchId, k ∈ vectors ∨ k ∈ s.cache := by
    have hstage := hi.stage
    rwa [hpc] at hstage
  have hrest : rest.Sublist s.pc.pending := by rw [hpc]; exact List.Sublist.refl _
  have hgrow : ∀ new : List String,
      WatcherInv items submitted { s with cache := new ++ s.cache } := fun new =>
    hi.with_cache fun _ _ _ _ _ _ _ _ _ _ hk => List.mem_append_right _ hk
  cases outcome with
  | stored =>
      exact (hgrow vectors).at_pc hrest
        ⟨hunswept, hcurrent, fun k hk => List.mem_append.mpr (hstored k hk)⟩
  | swallowed written =>
      exact (hgrow (vectors.take written)).at_pc hrest
        ⟨hunswept, hcurrent, fun k hk => List.mem_append.mpr (hall written rfl k hk)⟩
  | raised written => exact (hgrow (vectors.take written)).abort

theorem WatcherInv.raisedAt (hi : s.WatcherInv items submitted) {stage : WatcherStage}
    (hpc : s.pc = .handling stage h rest) :
    (s.raisedAt rest stage).WatcherInv items submitted := by
  have hrest : rest.Sublist s.pc.pending := by rw [hpc]; exact List.Sublist.refl _
  cases stage with
  | reading => exact hi.next hrest
  | readying => exact hi.next hrest
  | scheduling => exact hi.next hrest
  | failing status => exact hi.next hrest
  | _ => exact hi.abort

/-- The entries of an experiment that has ended are dropped. -/
theorem WatcherInv.removeForExperiment (hi : s.WatcherInv items submitted) {e : String}
    (he : e ∈ s.ended) :
    WatcherInv items submitted { s with file := s.file.removeForExperiment e } := by
  refine hi.with_file List.filter_sublist ?_
  intro x hx e' he' halive
  refine Or.inl (List.mem_filter.mpr ⟨hx, decide_eq_true ?_⟩)
  intro hxe
  rw [he'] at hxe
  cases hxe
  exact halive (Or.inl he)

theorem WatcherInv.stageStep (hi : s.WatcherInv items submitted)
    {stage : WatcherStage} (hpc : s.pc = .handling stage h rest)
    (halive : stage = .checking → s.file.getForExperiment h.experimentId = [] →
      ¬ s.Ended h.experimentId)
    (ht : s.stageStep h rest stage = some t) : t.WatcherInv items submitted := by
  have hrest : rest.Sublist s.pc.pending := by rw [hpc]; exact List.Sublist.refl _
  have hstage : s.StageInv items submitted h rest stage := by
    have hstage := hi.stage
    rwa [hpc] at hstage
  cases stage with
  | downloading snapshot => cases ht
  | caching vectors => cases ht
  | removing =>
      cases ht
      obtain ⟨hunswept, ⟨hcompleted, -, hapart⟩, hcached⟩ := hstage
      have hfile : (s.file.removeByBatchId h.batchId).load.Sublist s.file.load :=
        List.filter_sublist
      refine (hi.with_file hfile fun x hx e he _ => ?_).at_pc hrest hunswept
      by_cases hxb : x.batchId = some h.batchId
      · rw [hpc]
        exact Or.inr ⟨⟨_, hcompleted, hxb, hcached⟩, fun hm => hapart x hm hxb⟩
      · exact Or.inl (List.mem_filter.mpr ⟨hx, decide_eq_true hxb⟩)
  | checking =>
      cases ht
      split
      · rename_i hnone
        exact hi.at_pc hrest ⟨⟨halive rfl hnone, hstage⟩, hnone⟩
      · exact hi.next hrest
  | reading =>
      cases ht
      split
      · exact hi.at_pc hrest hstage
      · exact hi.next hrest
  | readying =>
      cases ht
      obtain ⟨⟨-, hunswept⟩, hnone⟩ := hstage
      have hdoc := @updateDoc _ _ _ s hi h.experimentId
        (fun d => { d with preEmbed := some { state := "ready" } }) (fun _ => id) fun _ _ => rfl
      refine hdoc.at_pc hrest ⟨⟨?_, hunswept⟩, hnone⟩
      have hopen := hdoc.stage
      change PcInv items submitted _ s.pc at hopen
      rw [hpc] at hopen
      exact hopen.1.1
  | scheduling =>
      cases ht
      exact (hi.next hrest).with_sweep hstage.2 rfl hstage.1.1
  | dropping status =>
      cases ht
      exact (hi.removeForExperiment hstage).at_pc hrest trivial
  | failing status =>
      cases ht
      have hdoc := @updateDoc _ _ _ s hi h.experimentId
        (fun d => { d with status := .failed, preEmbed := some (batchEnded status h.batchId) })
        (fun _ _ => Or.inr rfl) (by rw [hpc]; nofun)
      exact hdoc.next hrest

theorem WatcherInv.load (hi : s.WatcherInv items submitted) :
    (s.next s.file.load).WatcherInv items submitted where
  filed := hi.filed
  pending := hi.filed
  pendingFiled := fun _ hx _ _ _ => hx
  pendingUnswept := by
    intro x hx e he
    by_contra hne
    exact getForExperiment_eq_nil.mp (hi.swept e hne) x hx he
  accounted := hi.accounted
  swept := hi.swept
  stage := trivial
  cancels := hi.cancels

/-! ## The steps of a cancel, and of the cache -/

theorem WatcherInv.cancelDone [DecidableEq ι] (hi : s.WatcherInv items submitted) (i : ι) :
    (s.setCancel i .done).WatcherInv items submitted :=
  hi.with_cancel (by rintro e (he | he) <;> cases he)

theorem WatcherInv.cancelBegun [DecidableEq ι] (hi : s.WatcherInv items submitted) (i : ι)
    (id : String) (ok : Bool) : (s.cancelBegin i id ok).WatcherInv items submitted := by
  unfold WatcherState.cancelBegin
  split
  · split
    · exact hi.with_cancel (by rintro e (he | he) <;> cases he)
    · exact hi.cancelDone i
  · exact hi.cancelDone i

theorem WatcherInv.marked [DecidableEq ι] (hi : s.WatcherInv items submitted) (i : ι)
    {id : String} {waiting : Bool} (hfree : s.pc.triggering ≠ some id) :
    (({ s with ended := id :: s.ended }.updateDoc id fun d =>
      { d with status := .cancelled }).setCancel i
        (if waiting then .listing id else .done)).WatcherInv items submitted := by
  have hmarked := @updateDoc _ _ _ _ (hi.end hfree) id
    (fun d => { d with status := .cancelled }) (fun _ _ => Or.inl rfl)
    fun htriggering => absurd htriggering hfree
  refine hmarked.with_cancel fun e he => ?_
  split at he
  · rcases he with he | he <;> cases he
    exact List.mem_cons_self
  · rcases he with he | he <;> cases he

theorem WatcherInv.evict (hi : s.WatcherInv items submitted) {key : String}
    (hkept : ∀ x ∈ submitted, ∀ b ∈ s.completed, x.batchId = some b → key ∈ items b →
      ∀ e ∈ x.experimentId, s.sweeps e ≠ 0) :
    WatcherInv items submitted { s with cache := s.cache.filter (· ≠ key) } := by
  refine hi.with_cache fun x hx b hb hxb e he hunswept k hk hcached => ?_
  refine List.mem_filter.mpr ⟨hcached, decide_eq_true ?_⟩
  rintro rfl
  exact hkept x hx b hb hxb hk e he hunswept

theorem step_inv [DecidableEq ι] (hi : s.WatcherInv items submitted)
    (hdistinct : submitted.Pairwise CheckpointEntry.Apart) {l : WatcherLabel ι}
    (ht : s.step l = some t) (hg : Careful items submitted s l t) :
    t.WatcherInv items submitted := by
  cases step_move ht with
  | loadFailed hpc => exact hi
  | loaded hpc => exact hi.load
  | roundEnded hpc => exact hi.abort
  | passedOver _ x rest hpc => exact hi.next (by rw [hpc]; exact List.sublist_cons_self x rest)
  | completed snapshot x rest h hpc hx hstatus =>
      exact hi.completed hdistinct hpc hx snapshot
  | endedBadly snapshot x rest h hpc hx hstatus =>
      exact hi.endedBadly hpc snapshot.status
  | downloaded snapshot files h rest hpc =>
      simp only [Careful, hpc] at hg
      exact hi.downloaded hpc fun k hk => (hg k hk).imp_left mem_downloadVectors.mpr
  | put vectors outcome h rest hpc =>
      refine hi.putMany hpc ?_
      rintro written rfl
      simpa only [Careful, hpc] using hg
  | accessed stage h rest t hpc hdone =>
      refine hi.stageStep hpc ?_ hdone
      rintro rfl
      simpa only [Careful, hpc] using hg
  | raised stage h rest hpc => exact hi.raisedAt hpc
  | cancelBegun i id ok => exact hi.cancelBegun i id ok
  | marked i id waiting hc =>
      simp only [Careful, hc] at hg
      exact hi.marked i hg
  | listed i id ok hc hsome =>
      refine hi.with_cancel ?_
      rintro e (he | he) <;> cases he
      exact hi.cancels i id (Or.inl hc)
  | dropped i id hc => exact (hi.removeForExperiment (hi.cancels i id (Or.inr hc))).cancelDone i
  | cancelDone i ok => exact hi.cancelDone i
  | evicted key => exact hi.evict hg

/-! ## What a step does to the sweeps and to the file -/

theorem safe_of_same {l : WatcherLabel ι} (hsweeps : t.sweeps = s.sweeps)
    (hfile : t.file = s.file) : WatcherSafe items submitted s l t where
  once := fun e he => absurd (congrFun hsweeps e) he
  finished := fun e he => absurd (congrFun hsweeps e) he
  notEnded := fun e he => absurd (congrFun hsweeps e) he
  removed := fun _ hx hnot => absurd (hfile ▸ hx) hnot

theorem safe_of_removed {l : WatcherLabel ι} (hsweeps : t.sweeps = s.sweeps) {e : String}
    (hfile : t.file = s.file.removeForExperiment e) (hout : s.CachedOut items e) :
    WatcherSafe items submitted s l t where
  once := fun e he => absurd (congrFun hsweeps e) he
  finished := fun e he => absurd (congrFun hsweeps e) he
  notEnded := fun e he => absurd (congrFun hsweeps e) he
  removed := by
    intro x hx hx' b hb hxb
    refine hout x (mem_getForExperiment.mpr ⟨hx, ?_⟩) b hb hxb
    by_contra hne
    rw [hfile] at hx'
    exact hx' (List.mem_filter.mpr ⟨hx, decide_eq_true hne⟩)

theorem stageStep_safe (hi : s.WatcherInv items submitted) {h : Handled}
    {rest : List CheckpointEntry} {stage : WatcherStage} {l : WatcherLabel ι}
    (hpc : s.pc = .handling stage h rest)
    (hout : ∀ status, stage = .dropping status → s.CachedOut items h.experimentId)
    (ht : s.stageStep h rest stage = some t) : WatcherSafe items submitted s l t := by
  have hstage : s.StageInv items submitted h rest stage := by
    have hstage := hi.stage
    rwa [hpc] at hstage
  cases stage with
  | downloading snapshot => cases ht
  | caching vectors => cases ht
  | removing =>
      cases ht
      obtain ⟨-, -, hcached⟩ := hstage
      refine ⟨fun _ he => absurd rfl he, fun _ he => absurd rfl he, fun _ he => absurd rfl he, ?_⟩
      intro x hx hx' b hb hxb
      have hsame : x.batchId = some h.batchId := by
        by_contra hne
        exact hx' (List.mem_filter.mpr ⟨hx, decide_eq_true hne⟩)
      cases hxb.symm.trans hsame
      exact hcached
  | checking =>
      cases ht
      split <;> exact safe_of_same rfl rfl
  | reading =>
      cases ht
      split <;> exact safe_of_same rfl rfl
  | readying => cases ht; exact safe_of_same rfl rfl
  | scheduling =>
      cases ht
      obtain ⟨hopen, hnone⟩ := hstage
      have hqueued : ∀ e, Function.update s.sweeps h.experimentId
          (s.sweeps h.experimentId + 1) e ≠ s.sweeps e → e = h.experimentId := by
        intro e he
        by_contra hne
        exact he (Function.update_of_ne hne _ _)
      refine ⟨fun e he => ?_, fun e he x hx hxe => ?_, fun e he => ?_, fun x hx hx' => ?_⟩
      · cases hqueued e he
        refine ⟨hopen.2, ?_⟩
        change Function.update s.sweeps h.experimentId _ h.experimentId = 1
        rw [Function.update_self, hopen.2]
      · cases hqueued e he
        exact (hi.accounted x hx _ hxe hopen).resolve_left fun hm =>
          getForExperiment_eq_nil.mp hnone x hm hxe
      · cases hqueued e he
        exact hopen.1
      · exact absurd hx hx'
  | dropping status => cases ht; exact safe_of_removed rfl rfl (hout status rfl)
  | failing status => cases ht; exact safe_of_same rfl rfl

theorem step_safe [DecidableEq ι] (hi : s.WatcherInv items submitted) {l : WatcherLabel ι}
    (ht : s.step l = some t) (hg : Careful items submitted s l t) :
    WatcherSafe items submitted s l t := by
  cases step_move ht with
  | downloaded snapshot files h rest hpc =>
      unfold WatcherState.downloaded
      split <;> exact safe_of_same rfl rfl
  | put vectors outcome h rest hpc => cases outcome <;> exact safe_of_same rfl rfl
  | accessed stage h rest t hpc hdone =>
      refine stageStep_safe hi hpc ?_ hdone
      rintro status rfl
      simpa only [Careful, hpc] using hg
  | raised stage h rest hpc => cases stage <;> exact safe_of_same rfl rfl
  | cancelBegun i id ok =>
      unfold WatcherState.cancelBegin
      split
      · split <;> exact safe_of_same rfl rfl
      · exact safe_of_same rfl rfl
  | dropped i id hc =>
      simp only [Careful, hc] at hg
      exact safe_of_removed rfl rfl hg
  | _ => exact safe_of_same rfl rfl

end WatcherState

/-! ## Whole runs -/

/-- In a run of careful steps, whatever the answers of the batch service and the cancels
    between them, the watcher is safe. -/
theorem watcher_safe_of_run {ι : Type} [DecidableEq ι] (items : String → List String)
    (submitted : List CheckpointEntry) (s : WatcherState ι) (hs : s.Started submitted)
    (ls : List (WatcherLabel ι))
    (hG : EveryStep WatcherState.step (Careful items submitted) s ls) :
    EveryStep WatcherState.step (WatcherSafe items submitted) s ls :=
  everyStep_of_inv
    (fun _ _ _ hi ht hg =>
      ⟨WatcherState.step_inv hi hs.distinct ht hg, WatcherState.step_safe hi ht hg⟩)
    (WatcherState.watcherInv_started hs) hG

/-! ## Two experiments, three batches -/

def sampleEntry (experimentId batchId : String) (role : EmbedRole) : CheckpointEntry where
  experimentId := some experimentId
  jobKey := experimentId ++ ":" ++ role.value
  batchId := some batchId
  role := role
  n := 1
  submittedAt := 0

def threeBatches : List CheckpointEntry :=
  [sampleEntry "e1" "b1" .doc, sampleEntry "e1" "b2" .query, sampleEntry "e2" "b3" .doc]

def waitingExperiment : WatchedExperiment :=
  ⟨.running, some { state := "waiting" }, .valid⟩

/-- Both experiments wait, and the item of a batch has the id of the batch. -/
def waitingTwo : WatcherState Unit where
  file := .entries threeBatches
  docs id := if id = "e1" ∨ id = "e2" then some waitingExperiment else none
  cache := []
  sweeps _ := 0
  pc := .sleeping
  cancels _ := .idle
  completed := []
  ended := []

def ownItem (batchId : String) : List String := [batchId]

theorem waitingTwo_started : waitingTwo.Started threeBatches :=
  ⟨rfl, by decide, rfl, fun _ => rfl, fun _ => rfl, rfl, rfl⟩

def outcome (status : BatchStatus) : WatcherLabel Unit :=
  .poll (some ⟨status, some "out", none⟩)

/-- A completed batch: its file is downloaded and cached, its entry removed, the rest of the
    entries looked up. -/
def takesIn (batchId : String) : List (WatcherLabel Unit) :=
  [outcome .completed, .download ⟨fun _ => some [.parsed batchId 1], fun _ => none⟩,
    .put .stored, .access true, .access true]

/-- The other experiment is cancelled while its batch is pending. -/
def oneSweptOneCancelled : List (WatcherLabel Unit) :=
  .load true :: takesIn "b1" ++ [.poll none, outcome (.pending "in_progress"), .sleep,
    .cancelBegin () "e2" true, .cancelAccess () true, .cancelAccess () true,
    .cancelAccess () true, .load true] ++ takesIn "b2" ++
    [.access true, .access true, .access true]

theorem watcher_safe_of_run_oneSwept :
    ((exec WatcherState.step waitingTwo oneSweptOneCancelled).map fun s =>
        (s.sweeps "e1", s.sweeps "e2", s.file, s.pc)) =
      some (1, 0, .entries [], .polling []) ∧
    EveryStep WatcherState.step (WatcherSafe ownItem threeBatches) waitingTwo
      oneSweptOneCancelled :=
  ⟨by decide +kernel, watcher_safe_of_run ownItem threeBatches waitingTwo waitingTwo_started
    oneSweptOneCancelled (by decide +kernel)⟩

/-- The first batch fails and the second completes, in one round. -/
def failsThenCompletes : List (WatcherLabel Unit) :=
  [.load true, outcome .failed, .access true, .access true] ++ takesIn "b2" ++
    [.access true, .access true]

/-- The sweep of the failed experiment is queued. -/
theorem swept_after_failure :
    ((exec WatcherState.step waitingTwo (failsThenCompletes ++ [.access true])).map fun s =>
        (s.sweeps "e1", (s.docs "e1").map (·.status), s.completed)) =
      some (1, some .failed, ["b2"]) ∧
    ¬ EveryStep WatcherState.step (WatcherSafe ownItem threeBatches) waitingTwo
      (failsThenCompletes ++ [.access true]) := by
  refine ⟨by decide +kernel, fun h => ?_⟩
  have hstep := everyStep_at h rfl rfl
  exact hstep.notEnded "e1" (by decide) (by decide)

end RagParamsFinder
