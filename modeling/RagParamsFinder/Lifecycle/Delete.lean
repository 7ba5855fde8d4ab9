/-
  DELETE leaves no orphans, as long as no run of the experiment is on its way to an insert.

  The endpoint refuses a RUNNING experiment and deletes chunks, results, run rows and the
  document, in this order, without a look at the sweep. A cancel stores CANCELLED at once, so
  a DELETE that follows it finds workers inside their runs. A run that is signalled ends at
  its next control check; what it stores before that, behind the check it has passed, stays,
  unless a foreign key ties it to the document: then the insert fails once the document is
  gone, and the deletion of the document takes with it what was stored before.

  Proved: `delete_complete_of_run`: in a run in which a DELETE deletes a collection that no
  foreign key guards only when no run can store into it before its next control check, and no
  sweep is submitted after it, nothing is left once DELETE has succeeded.
  `chunks_outlive_delete` is a run in which a worker stores chunks after DELETE.
-/
import RagParamsFinder.Lifecycle.Server

namespace RagParamsFinder

open StepMachine

/-- Nothing of the experiment is stored. -/
def Shared.Empty (s : Shared) : Prop :=
  s.doc = none ∧ s.chunks = [] ∧ s.rows = [] ∧ s.results = []

instance (s : Shared) : Decidable s.Empty := inferInstanceAs (Decidable (_ ∧ _ ∧ _ ∧ _))

/-- Once a DELETE has succeeded and no sweep is left, nothing is stored. -/
def DeleteComplete (_ : Cell) (_ : Label) (d : Cell) : Prop :=
  Request.deleteOk ∈ d.requests → d.sweep = none → d.shared.queued = [] → d.shared.Empty

instance (c : Cell) (l : Label) (d : Cell) : Decidable (DeleteComplete c l d) :=
  inferInstanceAs (Decidable (_ → _ → _ → _))

/-! ## The collections -/

/-- What a DELETE removes besides the document. -/
inductive Collection where
  | chunks
  | results
  | runStatus
  deriving DecidableEq, Repr

def Collection.all : List Collection := [.chunks, .results, .runStatus]

theorem Collection.mem_all (k : Collection) : k ∈ Collection.all := by
  cases k <;> simp [Collection.all]

def Shared.Lacks (s : Shared) : Collection → Prop
  | .chunks => s.chunks = []
  | .results => s.results = []
  | .runStatus => s.rows = []

/-- The collections that a foreign key ties to the document. -/
def Deployment.cascades (dep : Deployment) : Collection → Bool
  | .chunks => dep.chunksCascade
  | .results => dep.foreignKeys
  | .runStatus => dep.foreignKeys

/-- Where an operation inserts. -/
def Op.insertsInto : Op → Option Collection
  | .insertChunks _ => some .chunks
  | .insertResult _ _ => some .results
  | .insertRunStatus _ _ => some .runStatus
  | _ => none

/-- The collection that the next access of a DELETE deletes. -/
def Request.deletes : Request → Option Collection
  | .deleteChunks => some .chunks
  | .deleteResults => some .results
  | .deleteRunStatus => some .runStatus
  | _ => none

/-- The collections that a DELETE has deleted. -/
def Request.deleted : Request → Collection → Bool
  | .deleteResults, .chunks => true
  | .deleteRunStatus, .chunks => true
  | .deleteRunStatus, .results => true
  | .deleteExperiment, _ => true
  | .deleteOk, _ => true
  | _, _ => false

/-! ## What a run can still store -/

/-- A signal is set in the entry. -/
def Shared.signalled (s : Shared) : Bool := checkControl s.control ≠ .clear

/-- Whether a run with these operations left can store into `k`; a control check ends a run that
    is signalled. -/
def storesBefore (signalled : Bool) (k : Collection) : List RunOp → Bool
  | [] => false
  | .checkControl :: rest => !signalled && storesBefore signalled k rest
  | .storeChunks :: rest => decide (k = .chunks) || storesBefore signalled k rest
  | .insertResult _ :: rest => decide (k = .results) || storesBefore signalled k rest
  | .updatePhase _ :: rest => storesBefore signalled k rest
  | .embed :: rest => storesBefore signalled k rest

/-- The same for a run at `pc`. Its row is inserted before its first check. -/
def RunPc.stores (signalled : Bool) (k : Collection) : RunPc → Bool
  | .insertRow => !signalled || decide (k = .runStatus)
  | .ops rest => storesBefore signalled k rest
  | .interrupted _ => false
  | .failing _ _ => false

def RunFuture.stores (signalled : Bool) (k : Collection) (f : RunFuture) : Bool :=
  match f.worker with
  | .waiting => RunPc.insertRow.stores signalled k
  | .running pc => pc.stores signalled k
  | .done _ => false

instance (t : Sweep) : Decidable t.Halted := inferInstanceAs (Decidable (_ ∧ _ ∧ _))

/-- No run of the thread can store into `k`, and the thread submits none that can: a signal, the
    stop flag or the end of the loops keeps it from it, or a signal ends at its first check each
    run it submits. -/
def Sweep.Spent (s : Shared) (k : Collection) (t : Sweep) : Prop :=
  (∀ f ∈ t.futures, f.stores s.signalled k = false) ∧
    (s.signalled = true ∧ k ≠ .runStatus ∨
      t.pc.puts = false ∧ (s.signalled = true ∨ t.Halted))

instance (s : Shared) (k : Collection) (t : Sweep) : Decidable (t.Spent s k) :=
  inferInstanceAs (Decidable (_ ∧ (_ ∧ _ ∨ _ ∧ (_ ∨ _))))

/-- No run of the experiment can store into `k` any more: no sweep is left, or the one in the
    queue is signalled, or the one that executes is spent. -/
def Cell.spent (c : Cell) (k : Collection) : Bool :=
  match c.sweep, c.shared.queued with
  | none, [] => true
  | none, [_] => c.shared.signalled
  | some t, [] => decide (t.Spent c.shared k)
  | _, _ => false

/-- A DELETE deletes `k` while a run can still store into it. -/
def Cell.deletesEarly (c : Cell) (k : Collection) : Label → Bool
  | .request i false => decide (c.requests[i]?.bind Request.deletes = some k) && !c.spent k
  | _ => false

/-- A sweep is submitted after a DELETE has deleted `k`. -/
def Cell.submitsLate (c : Cell) (k : Collection) (l : Label) : Bool :=
  c.submits l && c.requests.any (·.deleted k)

/-- No run is between a control check it has passed and an insert behind it, in a collection that
    is deleted and that no foreign key guards; and no sweep comes after. -/
def NoInsertAhead (dep : Deployment) (c : Cell) (l : Label) (_ : Cell) : Prop :=
  ∀ k ∈ Collection.all,
    dep.cascades k = true ∨ c.deletesEarly k l = false ∧ c.submitsLate k l = false

instance (dep : Deployment) (c : Cell) (l : Label) (d : Cell) :
    Decidable (NoInsertAhead dep c l d) :=
  inferInstanceAs (Decidable (∀ _ ∈ _, _ ∨ _ ∧ _))

/-! ## What the operations store -/

section Operations

variable {dep : Deployment} {cfg : ExperimentConfig} {s : Shared} {op : Op} {k : Collection}

/-- What nothing is inserted into stays empty. -/
theorem Op.lacks_run (h : op.insertsInto ≠ some k) (hs : s.Lacks k) : (op.run dep s).Lacks k := by
  cases op with
  | insertRunStatus runId params => cases k <;> first | exact hs | exact absurd rfl h
  | insertChunks runId => cases k <;> first | exact hs | exact absurd rfl h
  | insertResult runId query => cases k <;> first | exact hs | exact absurd rfl h
  | updateRunPhase runId phase msg =>
      cases k with
      | runStatus =>
          have hr : s.rows = [] := hs
          simp [Shared.Lacks, Op.run, hr]
      | _ => exact hs
  | deleteChunks => cases k <;> first | rfl | exact hs
  | deleteResults => cases k <;> first | rfl | exact hs
  | deleteRunStatus => cases k <;> first | rfl | exact hs
  | deleteExperiment =>
      cases k with
      | chunks =>
          have hc : s.chunks = [] := hs
          simp [Shared.Lacks, Op.run, hc]
      | results =>
          have hr : s.results = [] := hs
          simp [Shared.Lacks, Op.run, hr]
      | runStatus =>
          have hr : s.rows = [] := hs
          simp [Shared.Lacks, Op.run, hr]
  | _ => exact hs

/-- The deletion of the document takes with it what a foreign key ties to it. -/
theorem lacks_deleteExperiment (hk : dep.cascades k = true) :
    (Op.run dep s .deleteExperiment).Lacks k := by
  cases k with
  | chunks =>
      have hc : dep.chunksCascade = true := hk
      simp [Shared.Lacks, Op.run, hc]
  | results =>
      have hf : dep.foreignKeys = true := hk
      simp [Shared.Lacks, Op.run, hf]
  | runStatus =>
      have hf : dep.foreignKeys = true := hk
      simp [Shared.Lacks, Op.run, hf]

theorem Op.doc_none_run (h : ∀ n, op ≠ .insertExperiment n) (hd : s.doc = none) :
    (op.run dep s).doc = none := by
  cases op with
  | insertExperiment n => exact absurd rfl (h n)
  | deleteExperiment => rfl
  | updateExperiment u => simp [Op.run, hd]
  | markExperimentCancelled => simp [Op.run, hd]
  | markExperimentPaused => simp [Op.run, hd]
  | markExperimentRunning => simp [Op.run, hd]
  | _ => exact hd

/-- Under a foreign key nothing is inserted without the document. -/
theorem Op.insertsInto_of_accepted (hk : dep.cascades k = true) (hd : s.doc = none)
    (h : op.accepted dep s = true) : op.insertsInto ≠ some k := by
  cases op with
  | insertRunStatus runId params =>
      rintro ⟨⟩
      have hf : dep.foreignKeys = true := hk
      simp [Op.accepted, hf, hd] at h
  | insertChunks runId =>
      rintro ⟨⟩
      have hc : dep.chunksCascade = true := hk
      simp [Op.accepted, hc, hd] at h
  | insertResult runId query =>
      rintro ⟨⟩
      have hf : dep.foreignKeys = true := hk
      simp [Op.accepted, hf, hd] at h
  | _ => rintro ⟨⟩

theorem Op.insertsInto_ofSweep (h : op.ofSweep = true) : op.insertsInto = none := by
  cases op <;> first | rfl | cases h

theorem Op.insertsInto_ofRequest {r r' : Request} (h : RequestStep cfg s r op r') :
    op.insertsInto = none := by
  cases h <;> rfl

/-- A signal stays until the entry goes. -/
theorem Op.signalled_run (hop : op ≠ .unregisterSweepControl) (h : s.signalled = true) :
    (op.run dep s).signalled = true := by
  unfold Shared.signalled at h ⊢
  rw [decide_eq_true_eq] at h ⊢
  rw [control_run]
  cases hc : s.control with
  | none => rw [hc] at h; exact absurd rfl h
  | some ctl =>
      rw [hc] at h
      cases op with
      | unregisterSweepControl => exact absurd rfl hop
      | requestCancel => simp [Op.controlAfter, checkControl]
      | requestPause =>
          simp only [Op.controlAfter, Option.map_some, checkControl]
          split <;> simp
      | _ => exact h

/-- A DELETE moves on by one collection. -/
theorem RequestStep.deleted_cases {r r' : Request} (hs : RequestStep cfg s r op r')
    (h : r'.deleted k = true) :
    r.deleted k = true ∨ r.deletes = some k ∧ (op.run dep s).Lacks k := by
  cases hs with
  | deleteChunks =>
      cases k with
      | chunks => exact Or.inr ⟨rfl, rfl⟩
      | _ => cases h
  | deleteResults =>
      cases k with
      | chunks => exact Or.inl rfl
      | results => exact Or.inr ⟨rfl, rfl⟩
      | runStatus => cases h
  | deleteRunStatus =>
      cases k with
      | runStatus => exact Or.inr ⟨rfl, rfl⟩
      | _ => exact Or.inl rfl
  | deleteExperiment => exact Or.inl rfl
  | _ => cases h

end Operations

/-! ## Spent runs stay spent -/

section Runs

variable {dep : Deployment} {queries : List String} {cfg : ExperimentConfig} {s : Shared}
  {k : Collection}

/-- A signal only takes away from what a run can store. -/
theorem storesBefore_signal {a b : Bool} (hab : a = true → b = true) {rest : List RunOp}
    (h : storesBefore a k rest = false) : storesBefore b k rest = false := by
  induction rest with
  | nil => rfl
  | cons op rest ih =>
      cases op with
      | checkControl =>
          rw [storesBefore, Bool.and_eq_false_iff] at h ⊢
          exact h.imp (fun ha => by simpa using hab (by simpa using ha)) ih
      | storeChunks =>
          rw [storesBefore, Bool.or_eq_false_iff] at h ⊢
          exact h.imp_right ih
      | insertResult query =>
          rw [storesBefore, Bool.or_eq_false_iff] at h ⊢
          exact h.imp_right ih
      | updatePhase phase => exact ih h
      | embed => exact ih h

theorem RunPc.stores_signal {a b : Bool} (hab : a = true → b = true) {pc : RunPc}
    (h : pc.stores a k = false) : pc.stores b k = false := by
  cases pc with
  | insertRow =>
      rw [RunPc.stores, Bool.or_eq_false_iff] at h ⊢
      exact ⟨by simpa using hab (by simpa using h.1), h.2⟩
  | ops rest => exact storesBefore_signal hab h
  | _ => rfl

theorem RunFuture.stores_signal {a b : Bool} (hab : a = true → b = true) {f : RunFuture}
    (h : f.stores a k = false) : f.stores b k = false := by
  unfold RunFuture.stores at h ⊢
  cases hw : f.worker with
  | waiting => rw [hw] at h; exact RunPc.stores_signal hab h
  | running pc => rw [hw] at h; exact RunPc.stores_signal hab h
  | done r => rfl

/-- After a control check of a run: what it stores is behind the check. -/
theorem checkedPc_stores {rest : List RunOp} (h : s.signalled = false →
    storesBefore s.signalled k rest = false) :
    (checkedPc (checkControl s.control) rest).stores s.signalled k = false := by
  cases hc : checkControl s.control with
  | clear => exact h (by simp [Shared.signalled, hc])
  | cancelled => rfl
  | paused => rfl

theorem runOpStep_spent {runId : Nat} {op : RunOp} {rest : List RunOp} {act : RunAct} {o : Op}
    {w : WorkerState} (h : runOpStep s runId op rest act = some (o, w))
    (hf : storesBefore s.signalled k (op :: rest) = false) :
    o.insertsInto ≠ some k ∧ ∃ pc, w = .running pc ∧ pc.stores s.signalled k = false := by
  cases act with
  | go =>
      cases op with
      | checkControl =>
          cases h
          refine ⟨by rintro ⟨⟩, _, rfl, checkedPc_stores fun hs => ?_⟩
          simpa [storesBefore, hs] using hf
      | updatePhase phase => cases h; exact ⟨by rintro ⟨⟩, _, rfl, hf⟩
      | embed => cases h; exact ⟨by rintro ⟨⟩, _, rfl, checkedPc_stores fun _ => hf⟩
      | storeChunks =>
          rw [storesBefore, Bool.or_eq_false_iff] at hf
          cases h
          exact ⟨by rintro ⟨⟩; simp at hf, _, rfl, hf.2⟩
      | insertResult query =>
          rw [storesBefore, Bool.or_eq_false_iff] at hf
          cases h
          exact ⟨by rintro ⟨⟩; simp at hf, _, rfl, hf.2⟩
  | next =>
      cases op with
      | embed => cases h; exact ⟨by rintro ⟨⟩, _, rfl, hf⟩
      | storeChunks =>
          rw [storesBefore, Bool.or_eq_false_iff] at hf
          cases h
          exact ⟨by rintro ⟨⟩, _, rfl, hf.2⟩
      | _ => cases h
  | raise sie message => cases h; exact ⟨by rintro ⟨⟩, _, rfl, rfl⟩

/-- A step of a run that cannot store into `k` does not, and cannot after it. -/
theorem runStep_spent {f : RunFuture} {pc : RunPc} {act : RunAct} {o : Op} {w : WorkerState}
    (h : runStep queries s f pc act = some (o, w)) (hf : pc.stores s.signalled k = false) :
    o.insertsInto ≠ some k ∧ RunFuture.stores s.signalled k { f with worker := w } = false := by
  unfold runStep at h
  split at h
  · rw [RunPc.stores, Bool.or_eq_false_iff] at hf
    cases h
    refine ⟨by rintro ⟨⟩; simp at hf, ?_⟩
    have hs : s.signalled = true := by simpa using hf.1
    simp [RunFuture.stores, RunPc.stores, runOps, storesBefore, hs]
  · cases h; exact ⟨by rintro ⟨⟩, rfl⟩
  · cases h; exact ⟨by rintro ⟨⟩, rfl⟩
  · obtain ⟨ho, pc', rfl, hpc⟩ := runOpStep_spent h hf
    exact ⟨ho, hpc⟩
  · cases h; exact ⟨by rintro ⟨⟩, rfl⟩
  · cases h; exact ⟨by rintro ⟨⟩, rfl⟩
  · cases h; exact ⟨by rintro ⟨⟩, rfl⟩
  · cases h; exact ⟨by rintro ⟨⟩, rfl⟩
  · cases h

theorem workerStep_spent {futures : List RunFuture} {i : Nat} {f : RunFuture} {act : WorkerAct}
    {o : Op} {w : WorkerState} (hi : futures[i]? = some f)
    (h : workerStep cfg queries s futures i f act = some (o, w))
    (hf : f.stores s.signalled k = false) :
    o.insertsInto ≠ some k ∧ RunFuture.stores s.signalled k { f with worker := w } = false := by
  cases act with
  | begin =>
      simp only [workerStep] at h
      split at h
      · rename_i hb
        obtain ⟨g, hg, hwait⟩ := canBegin_waiting hb
        rw [hi, Option.some_inj] at hg
        subst hg
        have hw : f.worker = .waiting := by simpa [RunFuture.isWaiting] using hwait
        cases h
        exact ⟨by rintro ⟨⟩, by simpa [RunFuture.stores, hw] using hf⟩
      · cases h
  | run act =>
      simp only [workerStep] at h
      split at h
      · rename_i pc hrun
        exact runStep_spent h (by simpa [RunFuture.stores, hrun] using hf)
      · cases h

/-- The runs of the thread after a step were there before, or have not begun. -/
theorem SweepStep.mem_futures {t t' : Sweep} {act : SweepAct} {op : Op}
    (h : SweepStep cfg s t act op (some t')) {f : RunFuture} (hf : f ∈ t'.futures) :
    f ∈ t.futures ∨ t.pc.puts = true ∧
      ∀ signalled, f.stores signalled k = RunPc.insertRow.stores signalled k := by
  cases hp : t.pc.puts with
  | false => exact Or.inl ((h.futures_sublist hp).subset hf)
  | true =>
      cases h with
      | submitPut caller p hpc =>
          rcases List.mem_append.mp hf with hf | hf
          · exact Or.inl hf
          · rw [List.mem_singleton.mp hf]
            exact Or.inr ⟨rfl, fun _ => rfl⟩
      | trialPut p hpc =>
          rw [List.mem_singleton.mp hf]
          exact Or.inr ⟨rfl, fun _ => rfl⟩
      | submitStarted caller p hpc => exact Or.inl hf
      | submitRaise caller p hpc => exact Or.inl hf
      | trialStarted p hpc => exact Or.inl hf
      | trialLost p hpc => exact Or.inl hf
      | _ => simp [Pc.puts, *] at hp

theorem Sweep.Spent.signal {s' : Shared} {t : Sweep} (ht : t.Spent s k)
    (h : s.signalled = true → s'.signalled = true) : t.Spent s' k :=
  ⟨fun f hf => RunFuture.stores_signal h (ht.1 f hf),
    ht.2.imp (fun hs => ⟨h hs.1, hs.2⟩) fun hp => ⟨hp.1, hp.2.imp_left h⟩⟩

/-- A spent thread stays spent. -/
theorem SweepStep.spent {t t' : Sweep} {act : SweepAct} {op : Op}
    (h : SweepStep cfg s t act op (some t')) (ht : t.Spent s k) : t'.Spent (op.run dep s) k := by
  have hne : op ≠ .unregisterSweepControl := by
    rintro rfl
    cases h
  refine Sweep.Spent.signal ?_ (Op.signalled_run hne)
  obtain ⟨hfut, hmore⟩ := ht
  constructor
  · intro f hf
    rcases h.mem_futures (k := k) hf with hold | ⟨hputs, hnew⟩
    · exact hfut f hold
    · obtain ⟨hsig, hk⟩ := hmore.resolve_right (by simp [hputs])
      simp [hnew, RunPc.stores, hsig, hk]
  · refine hmore.imp_right fun ⟨hp, hor⟩ => ?_
    rcases hor with hsig | hh
    · have hclear : checkControl s.control ≠ .clear := by simpa [Shared.signalled] using hsig
      exact ⟨h.signalled hclear hp, Or.inl hsig⟩
    · exact ⟨(h.halted hh).2.1, Or.inr (h.halted hh)⟩

/-- A thread just started, under a signal. -/
theorem Sweep.spent_start (task : SweepTask) (h : s.signalled = true) :
    (Sweep.start task).Spent s k := by
  refine ⟨by rintro f ⟨⟩, Or.inr ⟨?_, Or.inl h⟩⟩
  cases hk : task.kind <;> simp [Sweep.start, hk, Pc.puts]

end Runs

/-! ## Nothing is stored any more -/

section

variable {dep : Deployment} {queries : List String} {cfg : ExperimentConfig} {c d : Cell}
  {l : Label} {k : Collection}

/-- An access of a request or the clock. -/
theorem spent_shared {s' : Shared} {rs : List Request} (hn : c.spent k = true)
    (hq : s'.queued = c.shared.queued)
    (hsig : c.shared.signalled = true → s'.signalled = true) :
    Cell.spent { c with shared := s', requests := rs } k = true := by
  unfold Cell.spent at hn ⊢
  simp only [hq]
  cases hs : c.sweep with
  | none =>
      rw [hs] at hn
      cases hqueue : c.shared.queued with
      | nil => rfl
      | cons task rest =>
          rw [hqueue] at hn
          cases rest with
          | nil => exact hsig hn
          | cons _ _ => cases hn
  | some t =>
      rw [hs] at hn
      cases hqueue : c.shared.queued with
      | nil =>
          rw [hqueue] at hn
          exact decide_eq_true (Sweep.Spent.signal (of_decide_eq_true hn) hsig)
      | cons _ _ => rw [hqueue] at hn; cases hn

/-- A thread beside which no run can store is spent, and nothing is queued. -/
theorem spent_sweep {t : Sweep} (hn : c.spent k = true) (ht : c.sweep = some t) :
    c.shared.queued = [] ∧ t.Spent c.shared k := by
  unfold Cell.spent at hn
  rw [ht] at hn
  cases hq : c.shared.queued with
  | nil => rw [hq] at hn; exact ⟨rfl, of_decide_eq_true hn⟩
  | cons task rest => rw [hq] at hn; cases hn

theorem spent_of_sweep {t : Sweep} (ht : c.sweep = some t) (hq : c.shared.queued = [])
    (hs : t.Spent c.shared k) : c.spent k = true := by
  unfold Cell.spent
  rw [ht, hq]
  exact decide_eq_true hs

theorem spent_step (hn : c.spent k = true) (h : CellStep dep queries cfg c l d)
    (hsub : c.submits l = false) : d.spent k = true := by
  cases h with
  | arrive e => exact hn
  | raised i r hi => exact spent_shared hn rfl id
  | tick => exact spent_shared hn rfl id
  | request i r r' op hi hs =>
      cases hs with
      | createSubmit serial => simp [Cell.submits, hi] at hsub
      | resumeSubmit serial => simp [Cell.submits, hi] at hsub
      | _ => exact spent_shared hn rfl (Op.signalled_run (by simp))
  | start task rest hs hq =>
      unfold Cell.spent at hn
      rw [hs, hq] at hn
      cases rest with
      | nil =>
          refine spent_of_sweep rfl ?_ (Sweep.spent_start task hn)
          simp [Op.run, hq]
      | cons _ _ => cases hn
  | sweep act t t' op ht hs =>
      have hq : (op.run dep c.shared).queued = c.shared.queued := by
        rw [queued_run]
        exact Op.queuedAfter_ofSweep hs.ofSweep _
      obtain ⟨hqueue, hspent⟩ := spent_sweep hn ht
      cases t' with
      | none => simp [Cell.spent, hq, hqueue]
      | some t' => exact spent_of_sweep rfl (hq.trans hqueue) (hs.spent hspent)
  | worker i act t f op w ht hf hs ha =>
      obtain ⟨hqueue, hfut, hmore⟩ := spent_sweep hn ht
      have hop := (workerStep_op hs).1
      have hsig : (op.run dep c.shared).signalled = c.shared.signalled := by
        unfold Shared.signalled
        rw [control_run, Op.controlAfter_ofRun hop]
      have hq : (op.run dep c.shared).queued = [] := by
        rw [queued_run, Op.queuedAfter_ofRun hop, hqueue]
      refine spent_of_sweep rfl hq ⟨fun g hg => ?_, by rwa [hsig]⟩
      rw [hsig]
      rcases List.mem_or_eq_of_mem_set hg with hg | rfl
      · exact hfut g hg
      · exact (workerStep_spent hf hs (hfut f (List.mem_of_getElem? hf))).2

/-- What no run can store into stays empty, and so does what a foreign key guards once the
    document is gone. -/
theorem lacks_step (h : CellStep dep queries cfg c l d) (hl : c.shared.Lacks k)
    (hk : c.spent k = true ∨ dep.cascades k = true ∧ c.shared.doc = none) :
    d.shared.Lacks k := by
  cases h with
  | request i r r' op hi hs =>
      exact Op.lacks_run (by rw [Op.insertsInto_ofRequest hs]; rintro ⟨⟩) hl
  | start task rest hs hq => exact Op.lacks_run (by rintro ⟨⟩) hl
  | sweep act t t' op ht hs =>
      exact Op.lacks_run (by rw [Op.insertsInto_ofSweep hs.ofSweep]; rintro ⟨⟩) hl
  | worker i act t f op w ht hf hs ha =>
      refine Op.lacks_run ?_ hl
      rcases hk with hn | ⟨hcas, hd⟩
      · have hfut := (spent_sweep hn ht).2.1
        exact (workerStep_spent hf hs (hfut f (List.mem_of_getElem? hf))).1
      · exact Op.insertsInto_of_accepted hcas hd ha
  | tick => exact Op.lacks_run (by rintro ⟨⟩) hl
  | _ => exact hl

/-- A deleted experiment is not inserted again. -/
theorem doc_none_step (h : CellStep dep queries cfg c l d) (hcr : c.shared.created = true)
    (hd : c.shared.doc = none) : d.shared.doc = none := by
  cases h with
  | request i r r' op hi hs =>
      refine Op.doc_none_run (fun n hop => ?_) hd
      subst hop
      cases hs with
      | createInsert hc => rw [hcr] at hc; cases hc
  | start task rest hs hq => exact hd
  | sweep act t t' op ht hs => exact Op.doc_none_run hs.ne_insert hd
  | worker i act t f op w ht hf hs ha =>
      refine Op.doc_none_run (fun n hop => ?_) hd
      subst hop
      cases (workerStep_op hs).1
  | _ => exact hd

/-! ## The stages of a DELETE -/

structure DeleteInv (dep : Deployment) (c : Cell) : Prop where
  created : c.Created
  spent : ∀ k, dep.cascades k = false → ∀ r ∈ c.requests, r.deleted k = true →
    c.spent k = true ∧ c.shared.Lacks k
  gone : .deleteOk ∈ c.requests →
    c.shared.created = true ∧ c.shared.doc = none ∧ ∀ k, c.shared.Lacks k

theorem deleteInv_initial (dep : Deployment) : DeleteInv dep .initial where
  created := created_initial
  spent := by rintro k _ r ⟨⟩
  gone := by rintro ⟨⟩

theorem Request.started_of_deleted {r : Request} (h : r.deleted k = true) : r.started = true := by
  cases r <;> first | rfl | cases h

theorem deleted_step (hinv : DeleteInv dep c) (h : CellStep dep queries cfg c l d)
    (hg : NoInsertAhead dep c l d) (hcas : dep.cascades k = false) :
    ∀ r ∈ d.requests, r.deleted k = true → d.spent k = true ∧ d.shared.Lacks k := by
  obtain ⟨hearly, hlate⟩ := (hg k k.mem_all).resolve_left (by simp [hcas])
  -- a DELETE that had deleted `k` before the step
  have hkept : ∀ r ∈ c.requests, r.deleted k = true → d.spent k = true ∧ d.shared.Lacks k := by
    intro r hr hdel
    obtain ⟨hspent, hlacks⟩ := hinv.spent k hcas r hr hdel
    have hany : c.requests.any (·.deleted k) = true := List.any_eq_true.mpr ⟨r, hr, hdel⟩
    have hsub : c.submits l = false := by simpa [Cell.submitsLate, hany] using hlate
    exact ⟨spent_step hspent h hsub, lacks_step h hlacks (Or.inl hspent)⟩
  intro r hr hdel
  cases h with
  | arrive e =>
      rcases mem_requests_arrive hr with hr | hr
      · exact hkept r hr hdel
      · rw [Request.started_of_deleted hdel] at hr
        cases hr
  | request i x x' op hi hs =>
      rcases mem_requests_set hr with rfl | hr
      · have hmove : x.deleted k = true ∨
            x.deletes = some k ∧ (op.run dep c.shared).Lacks k := hs.deleted_cases hdel
        rcases hmove with hold | ⟨hdeletes, hlacks⟩
        · exact hkept x (List.mem_of_getElem? hi) hold
        · -- the step that deletes `k`
          have hspent : c.spent k = true := by
            simpa [Cell.deletesEarly, hi, hdeletes] using hearly
          refine ⟨spent_shared hspent ?_ (Op.signalled_run ?_), hlacks⟩
          · cases hs <;> first | rfl | cases hdeletes
          · rintro rfl; cases hs
      · exact hkept r hr hdel
  | raised i x hi =>
      rcases mem_requests_set hr with rfl | hr
      · cases hdel
      · exact hkept r hr hdel
  | _ => exact hkept r hr hdel

theorem gone_step (hinv : DeleteInv dep c) (h : CellStep dep queries cfg c l d)
    (hok : .deleteOk ∈ d.requests) :
    d.shared.created = true ∧ d.shared.doc = none ∧ ∀ k, d.shared.Lacks k := by
  -- a DELETE that had succeeded before the step
  have hkept : .deleteOk ∈ c.requests →
      d.shared.created = true ∧ d.shared.doc = none ∧ ∀ k, d.shared.Lacks k := by
    intro hr
    obtain ⟨hcr, hdoc, hlacks⟩ := hinv.gone hr
    refine ⟨created_kept h hcr, doc_none_step h hcr hdoc, fun k => lacks_step h (hlacks k) ?_⟩
    cases hcas : dep.cascades k with
    | true => exact Or.inr ⟨rfl, hdoc⟩
    | false => exact Or.inl (hinv.spent k hcas _ hr rfl).1
  cases h with
  | arrive e =>
      rcases mem_requests_arrive hok with hr | hr
      · exact hkept hr
      · cases hr
  | request i x x' op hi hs =>
      rcases mem_requests_set hok with rfl | hr
      · have hx := List.mem_of_getElem? hi
        cases hs with
        | deleteExperiment =>
            refine ⟨created_run (hinv.created (Or.inr (Or.inr (Or.inr ⟨_, hx, rfl⟩)))), rfl, ?_⟩
            intro k
            cases hcas : dep.cascades k with
            | true => exact lacks_deleteExperiment hcas
            | false => exact Op.lacks_run (by rintro ⟨⟩) (hinv.spent k hcas _ hx rfl).2
      · exact hkept hr
  | raised i x hi =>
      rcases mem_requests_set hok with hr | hr
      · cases hr
      · exact hkept hr
  | _ => exact hkept hok

theorem delete_step (hinv : DeleteInv dep c) (h : CellStep dep queries cfg c l d)
    (hg : NoInsertAhead dep c l d) : DeleteInv dep d ∧ DeleteComplete c l d := by
  have hgone := gone_step hinv h
  refine ⟨⟨created_step hinv.created h, fun k hcas => deleted_step hinv h hg hcas, hgone⟩, ?_⟩
  intro hok _ _
  obtain ⟨-, hdoc, hlacks⟩ := hgone hok
  exact ⟨hdoc, hlacks .chunks, hlacks .runStatus, hlacks .results⟩

end

/-! ## Whole runs -/

section

variable {ι : Type} [DecidableEq ι] (dep : Deployment) (queries : ι → List String)
  (cfgs : ι → ExperimentConfig)

/-- In a run in which a DELETE of `e` never comes between a control check of a run and an insert
    behind it, a DELETE of `e` that has succeeded leaves nothing of it. -/
theorem delete_complete_of_run (e : ι) (ls : List (ι × Label))
    (hG : EveryStep (serverStep dep queries cfgs) (OnCell e (NoInsertAhead dep)) .initial ls) :
    EveryStep (serverStep dep queries cfgs) (OnCell e DeleteComplete) .initial ls :=
  everyStep_server (DeleteInv dep) (fun _ _ _ hinv h hg => delete_step hinv h hg)
    (deleteInv_initial dep) hG

end

/-- A cancel and a DELETE while a worker is about to make its check before STORING, which ends
    the run. -/
def deletedBesideRun : List Label :=
  createRun ++ [.start] ++ sweepGo 8 ++ [.worker 0 .begin] ++ workerGo 0 7 ++
    [.worker 0 (.run .next), .arrive .cancel] ++ requestGo 1 3 ++ [.arrive .delete] ++
    requestGo 2 5 ++ workerGo 0 2 ++ [.sweep .go, .sweep (.process 0)] ++ sweepGo 4

theorem delete_complete_of_run_deletedBesideRun :
    EveryStep (sampleServer oneRunGrid) (OnCell () DeleteComplete) .initial
      (onlyExperiment deletedBesideRun) :=
  delete_complete_of_run .mongo (fun _ => ["q"]) (fun _ => oneRunGrid) ()
    (onlyExperiment deletedBesideRun) (by decide +kernel)

/-- A cancel and a DELETE while a worker is about to store its chunks; the worker stores them
    and hears of the cancel at its next check. -/
def deletedInsideRun : List Label :=
  createRun ++ [.start] ++ sweepGo 8 ++ [.worker 0 .begin] ++ workerGo 0 7 ++
    [.worker 0 (.run .next)] ++ workerGo 0 2 ++ [.arrive .cancel] ++ requestGo 1 3 ++
    [.arrive .delete] ++ requestGo 2 5 ++ workerGo 0 3 ++ [.sweep .go, .sweep (.process 0)] ++
    sweepGo 4

/-- The DELETE has succeeded and the thread has ended: the chunks of the run are left. -/
theorem chunks_outlive_delete :
    ((exec (sampleServer oneRunGrid) .initial (onlyExperiment deletedInsideRun)).map fun s =>
        ((s.cells ()).requests, (s.cells ()).sweep, (s.cells ()).shared.doc,
          (s.cells ()).shared.chunks)) =
      some ([.done, .cancelOk, .deleteOk], none, none, [0]) ∧
    ¬ EveryStep (sampleServer oneRunGrid) (OnCell () DeleteComplete) .initial
      (onlyExperiment deletedInsideRun) := by
  decide +kernel

end RagParamsFinder
