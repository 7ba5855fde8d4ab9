/-
  The registry of in-flight sweeps: when the entry of an experiment is its pending sweep's.

  `schedule_sweep` registers before it submits, but registration is idempotent and keyed by
  the experiment only, and the entry goes away in the `finally` of the sweep, after the
  status it settled is visible. A resume that comes in between adopts the old entry, with its
  flags, and loses it when the old sweep unwinds. A resume also marks the experiment RUNNING
  before it registers.

  Proved: `in_flight_iff`, for every run. The entry is always the pending sweep's, signals
  reach it and it starts with clear flags, exactly if no sweep is scheduled over an entry;
  and an experiment RUNNING by a resume is always registered exactly if no resume marks an
  unregistered experiment and no sweep unregisters one that is RUNNING by a resume.
-/
import RagParamsFinder.Lifecycle.Server

namespace RagParamsFinder

open StepMachine

/-- The experiment has an entry, and it was created for sweep `serial`. -/
def Shared.ownedBy (s : Shared) (serial : Nat) : Bool :=
  match s.control with
  | some ctl => decide (ctl.owner = serial)
  | none => false

/-- The sweep between its registration by `schedule_sweep` and its submission. -/
def Request.scheduling : Request → Option Nat
  | .createSubmit serial => some serial
  | .resumeSubmit serial => some serial
  | _ => none

/-! ## The properties -/

/-- Every sweep that is queued or executes has the entry, and it is its own. -/
def Cell.Registered (c : Cell) : Prop :=
  (∀ t ∈ c.sweep, c.shared.ownedBy t.task.serial = true) ∧
    ∀ task ∈ c.shared.queued, c.shared.ownedBy task.serial = true

instance (c : Cell) : Decidable c.Registered := inferInstanceAs (Decidable (_ ∧ _))

/-- A signal of a cancel or pause request sets its flag in an entry if a sweep is pending;
    `schedule_sweep` leaves an entry of its own with clear flags. -/
def Cell.signalled (c : Cell) (l : Label) (d : Cell) : Bool :=
  match l with
  | .request i false =>
      match c.requests[i]? with
      | some .cancelSignal =>
          (c.sweep.isNone && c.shared.queued.isEmpty) || d.shared.control.any (·.cancel)
      | some .pauseSignal =>
          (c.sweep.isNone && c.shared.queued.isEmpty) || d.shared.control.any (·.pause)
      | some .createRegister =>
          decide (d.shared.control = some ⟨false, false, c.shared.nextSerial⟩)
      | some .resumeRegister =>
          decide (d.shared.control = some ⟨false, false, c.shared.nextSerial⟩)
      | _ => true
  | _ => true

/-- The entry is the pending sweep's. -/
def PendingRegistered (c : Cell) (l : Label) (d : Cell) : Prop :=
  d.Registered ∧ c.signalled l d = true

instance (c : Cell) (l : Label) (d : Cell) : Decidable (PendingRegistered c l d) :=
  inferInstanceAs (Decidable (_ ∧ _))

/-- An experiment that is RUNNING because of a resume has an entry. -/
def ResumedRegistered (_ : Cell) (_ : Label) (d : Cell) : Prop :=
  d.shared.resumed = true → d.shared.status = some .running → d.shared.control ≠ none

instance (c : Cell) (l : Label) (d : Cell) : Decidable (ResumedRegistered c l d) :=
  inferInstanceAs (Decidable (_ → _ → _))

/-! ## The conditions -/

/-- `schedule_sweep` registers over an entry that is still there. -/
def Cell.schedulesOver (c : Cell) : Label → Bool
  | .request i false =>
      match c.requests[i]? with
      | some .createRegister => c.shared.control.isSome
      | some .resumeRegister => c.shared.control.isSome
      | _ => false
  | _ => false

/-- A resume marks an experiment that has no entry, or the sweep of an experiment that a
    resume made RUNNING unregisters. -/
def Cell.leavesResumedOpen (c : Cell) : Label → Bool
  | .request i false =>
      decide (c.requests[i]? = some .resumeMark) && c.shared.control.isNone &&
        c.shared.doc.isSome
  | .sweep .go =>
      match c.sweep with
      | some t =>
          decide (t.pc = .unregister) && c.shared.resumed &&
            decide (c.shared.status = some .running)
      | none => false
  | _ => false

/-! ## Pending sweeps -/

/-- How many sweeps of the experiment are scheduled, queued or executing. -/
def Cell.pending (c : Cell) : Nat :=
  c.sweep.toList.length + c.shared.queued.length + c.requests.countP (·.scheduling.isSome)

/-- At most one sweep is pending, and the entry is its own. -/
structure InFlightInv (c : Cell) : Prop where
  one : c.pending ≤ 1
  sweep : ∀ t, c.sweep = some t → c.shared.ownedBy t.task.serial = true
  queued : ∀ task ∈ c.shared.queued, c.shared.ownedBy task.serial = true
  scheduling : ∀ r ∈ c.requests, ∀ n, r.scheduling = some n → c.shared.ownedBy n = true

theorem inFlightInv_initial : InFlightInv .initial where
  one := by decide
  sweep := by rintro t ⟨⟩
  queued := by rintro task ⟨⟩
  scheduling := by rintro r ⟨⟩

section

variable {dep : Deployment} {queries : List String} {cfg : ExperimentConfig} {c d : Cell}
  {l : Label}

theorem ownedBy_none {s : Shared} (h : s.control = none) (n : Nat) : s.ownedBy n = false := by
  simp [Shared.ownedBy, h]

theorem ownedBy_eq {s s' : Shared} (h : s'.control = s.control) (n : Nat) :
    s'.ownedBy n = s.ownedBy n := by
  simp [Shared.ownedBy, h]

/-- A signal keeps the owner of the entry. -/
theorem ownedBy_map {s s' : Shared} {f : SweepControl → SweepControl}
    (h : s'.control = s.control.map f) (hf : ∀ ctl, (f ctl).owner = ctl.owner) (n : Nat) :
    s'.ownedBy n = s.ownedBy n := by
  unfold Shared.ownedBy
  rw [h]
  cases s.control with
  | none => rfl
  | some ctl => simp [hf]

/-- Without an entry no sweep is pending. -/
theorem InFlightInv.idle (hinv : InFlightInv c) (hc : c.shared.control = none) :
    c.sweep = none ∧ c.shared.queued = [] ∧ ∀ r ∈ c.requests, r.scheduling = none := by
  have hno := ownedBy_none hc
  refine ⟨?_, ?_, ?_⟩
  · cases ht : c.sweep with
    | none => rfl
    | some t => have ho := hinv.sweep t ht; rw [hno] at ho; cases ho
  · cases hq : c.shared.queued with
    | nil => rfl
    | cons task rest =>
        have ho := hinv.queued task (by rw [hq]; exact List.mem_cons_self)
        rw [hno] at ho
        cases ho
  · intro r hr
    cases hs : r.scheduling with
    | none => rfl
    | some n => have ho := hinv.scheduling r hr n hs; rw [hno] at ho; cases ho

theorem countP_scheduling_eq_zero {rs : List Request} (h : ∀ r ∈ rs, r.scheduling = none) :
    rs.countP (·.scheduling.isSome) = 0 := by
  rw [List.countP_eq_zero]
  intro r hr
  simp [h r hr]

/-- A registration where there is no entry: the scheduled sweep is the one pending sweep. -/
theorem register_step (hinv : InFlightInv c) {i n : Nat} {r r' : Request}
    (hi : c.requests[i]? = some r) (hr : r.scheduling = none) (hr' : r'.scheduling = some n)
    (hc : c.shared.control = none) :
    InFlightInv
      { c with
        shared := Op.run dep c.shared (.registerSweepControl n)
        requests := c.requests.set i r' } := by
  obtain ⟨hs, hq, hsched⟩ := hinv.idle hc
  have hown : (Op.run dep c.shared (.registerSweepControl n)).ownedBy n = true := by
    simp [Shared.ownedBy, Op.run, registerControl, hc]
  refine ⟨?_, ?_, ?_, ?_⟩
  · have hcount := countP_set (·.scheduling.isSome) r' hi
    rw [countP_scheduling_eq_zero hsched] at hcount
    simp only [hr, hr', Option.isSome_none, Option.isSome_some, if_true, Bool.false_eq_true,
      if_false] at hcount
    show c.sweep.toList.length + c.shared.queued.length + _ ≤ 1
    rw [hs, hq]
    simp only [Option.toList_none, List.length_nil]
    omega
  · intro t ht
    have ht : c.sweep = some t := ht
    rw [hs] at ht
    cases ht
  · intro task ht
    have ht : task ∈ c.shared.queued := ht
    rw [hq] at ht
    cases ht
  · intro x hx m hm
    rcases mem_requests_set hx with rfl | hx
    · rw [hr'] at hm
      cases hm
      exact hown
    · rw [hsched x hx] at hm
      cases hm

/-- A submission moves the scheduled sweep to the queue. -/
theorem submit_step (hinv : InFlightInv c) {i n : Nat} {r : Request} (kind : SweepKind)
    (hi : c.requests[i]? = some r) (hr : r.scheduling = some n) :
    InFlightInv
      { c with
        shared := Op.run dep c.shared (.submitSweep ⟨n, kind⟩)
        requests := c.requests.set i .done } := by
  have hown := hinv.scheduling r (List.mem_of_getElem? hi) n hr
  refine ⟨?_, hinv.sweep, ?_, ?_⟩
  · have hcount := countP_set (·.scheduling.isSome) .done hi
    have hone := hinv.one
    rw [hr, show Request.done.scheduling = none from rfl] at hcount
    simp only [Option.isSome_some, if_true, Option.isSome_none, Bool.false_eq_true,
      if_false] at hcount
    show c.sweep.toList.length + (c.shared.queued ++ [(⟨n, kind⟩ : SweepTask)]).length +
      (c.requests.set i .done).countP (·.scheduling.isSome) ≤ 1
    unfold Cell.pending at hone
    rw [List.length_append, List.length_singleton]
    omega
  · intro task ht
    rcases List.mem_append.mp ht with ht | ht
    · exact hinv.queued task ht
    · rw [List.mem_singleton.mp ht]
      exact hown
  · intro x hx m hm
    rcases mem_requests_set hx with rfl | hx
    · cases hm
    · exact hinv.scheduling x hx m hm

/-- Any other access of a request keeps the pending sweeps and the owner of the entry. -/
theorem request_step (hinv : InFlightInv c) {i : Nat} {r r' : Request} {s' : Shared}
    (hi : c.requests[i]? = some r) (hr' : r'.scheduling = none)
    (hq : s'.queued = c.shared.queued) (hown : ∀ n, s'.ownedBy n = c.shared.ownedBy n) :
    InFlightInv { c with shared := s', requests := c.requests.set i r' } := by
  refine ⟨?_, ?_, ?_, ?_⟩
  · have hcount := countP_set (·.scheduling.isSome) r' hi
    have hone := hinv.one
    simp only [hr', Option.isSome_none, Bool.false_eq_true, if_false] at hcount
    show c.sweep.toList.length + s'.queued.length +
      (c.requests.set i r').countP (·.scheduling.isSome) ≤ 1
    unfold Cell.pending at hone
    rw [hq]
    omega
  · intro t ht
    rw [hown]
    exact hinv.sweep t ht
  · intro task ht
    rw [hown]
    exact hinv.queued task (hq ▸ ht)
  · intro x hx m hm
    rw [hown]
    rcases mem_requests_set hx with rfl | hx
    · rw [hr'] at hm
      cases hm
    · exact hinv.scheduling x hx m hm

/-- The thread unregisters, and was the one pending sweep. -/
theorem unregister_step (hinv : InFlightInv c) {t : Sweep} (ht : c.sweep = some t) {s' : Shared}
    (hq : s'.queued = c.shared.queued) :
    InFlightInv { c with shared := s', sweep := none } := by
  have hone := hinv.one
  unfold Cell.pending at hone
  simp only [ht, Option.toList_some, List.length_singleton] at hone
  have hqueue : c.shared.queued = [] := List.eq_nil_of_length_eq_zero (by omega)
  have hcount : c.requests.countP (·.scheduling.isSome) = 0 := by omega
  refine ⟨?_, ?_, ?_, ?_⟩
  · show (none : Option Sweep).toList.length + s'.queued.length +
      c.requests.countP (·.scheduling.isSome) ≤ 1
    rw [hcount, hq, hqueue]
    decide
  · rintro t' ⟨⟩
  · intro task hm
    have hm : task ∈ s'.queued := hm
    rw [hq, hqueue] at hm
    cases hm
  · intro r hr n hn
    have hzero := List.countP_eq_zero.mp hcount r hr
    simp [hn] at hzero

/-- Any other step of the thread keeps its task and the owner of the entry. -/
theorem thread_step (hinv : InFlightInv c) {t t' : Sweep} (ht : c.sweep = some t)
    (htask : t'.task = t.task) {s' : Shared} (hq : s'.queued = c.shared.queued)
    (hown : ∀ n, s'.ownedBy n = c.shared.ownedBy n) :
    InFlightInv { c with shared := s', sweep := some t' } := by
  refine ⟨?_, ?_, ?_, ?_⟩
  · have hone := hinv.one
    unfold Cell.pending at hone
    rw [ht] at hone
    show (some t').toList.length + s'.queued.length +
      c.requests.countP (·.scheduling.isSome) ≤ 1
    rw [hq]
    exact hone
  · rintro t₁ ⟨⟩
    rw [hown, htask]
    exact hinv.sweep t ht
  · intro task hm
    rw [hown]
    exact hinv.queued task (hq ▸ hm)
  · intro r hr n hn
    rw [hown]
    exact hinv.scheduling r hr n hn

/-- The thread's registration finds its own entry. -/
theorem ownedBy_register {s s' : Shared} {n : Nat} (h : s.ownedBy n = true)
    (hs : s'.control = registerControl s.control n) (m : Nat) : s'.ownedBy m = s.ownedBy m := by
  apply ownedBy_eq
  rw [hs]
  cases hc : s.control with
  | none => rw [ownedBy_none hc] at h; cases h
  | some ctl => rfl

theorem inFlight_step (hinv : InFlightInv c) (h : CellStep dep queries cfg c l d)
    (hg : c.schedulesOver l = false) : InFlightInv d := by
  cases h with
  | arrive e =>
      have he : e.request.scheduling = none := by cases e <;> rfl
      refine ⟨?_, hinv.sweep, hinv.queued, ?_⟩
      · have hone := hinv.one
        unfold Cell.pending at hone ⊢
        simpa [List.countP_append, he] using hone
      · intro r hr n hn
        rcases List.mem_append.mp hr with hr | hr
        · exact hinv.scheduling r hr n hn
        · rw [List.mem_singleton.mp hr, he] at hn
          cases hn
  | request i r r' op hi hs =>
      cases hs with
      | createRegister =>
          have hc : c.shared.control = none := by simpa [Cell.schedulesOver, hi] using hg
          exact register_step hinv hi rfl rfl hc
      | resumeRegister =>
          have hc : c.shared.control = none := by simpa [Cell.schedulesOver, hi] using hg
          exact register_step hinv hi rfl rfl hc
      | createSubmit serial => exact submit_step hinv .run hi rfl
      | resumeSubmit serial => exact submit_step hinv .resume hi rfl
      | cancelSignal => exact request_step hinv hi rfl rfl (ownedBy_map rfl fun _ => rfl)
      | pauseSignalled _ => exact request_step hinv hi rfl rfl (ownedBy_map rfl fun _ => rfl)
      | pauseUnsignalled _ => exact request_step hinv hi rfl rfl (ownedBy_map rfl fun _ => rfl)
      | _ => exact request_step hinv hi rfl rfl fun _ => rfl
  | raised i r hi => exact request_step hinv hi rfl rfl fun _ => rfl
  | start task rest hs hq =>
      have hown := hinv.queued
      refine ⟨?_, ?_, ?_, hinv.scheduling⟩
      · have hone := hinv.one
        unfold Cell.pending at hone
        rw [hs, hq] at hone
        show (some (Sweep.start task)).toList.length + c.shared.queued.tail.length +
          c.requests.countP (·.scheduling.isSome) ≤ 1
        rw [hq]
        simp only [Option.toList_none, Option.toList_some, List.length_nil, List.length_cons,
          List.tail_cons] at hone ⊢
        omega
      · rintro t ⟨⟩
        exact hown task (by rw [hq]; exact List.mem_cons_self)
      · exact fun x hx => hown x (List.mem_of_mem_tail hx)
  | sweep act t t' op ht hs =>
      have hq : (op.run dep c.shared).queued = c.shared.queued := by
        rw [queued_run]
        exact Op.queuedAfter_ofSweep hs.ofSweep _
      cases t' with
      | none => exact unregister_step hinv ht hq
      | some t' =>
          refine thread_step hinv ht hs.task_eq hq fun n => ?_
          cases hs with
          | register hpc => exact ownedBy_register (hinv.sweep t ht) rfl n
          | _ => rfl
  | worker i act t f op w ht hf hs ha =>
      have hop := (workerStep_op hs).1
      refine thread_step hinv ht ?_ ?_ fun n => ownedBy_eq ?_ n
      · rfl
      · rw [queued_run]
        exact Op.queuedAfter_ofRun hop _
      · rw [control_run]
        exact Op.controlAfter_ofRun hop _
  | tick => exact ⟨hinv.one, hinv.sweep, hinv.queued, hinv.scheduling⟩

/-- A signal reaches the entry of the pending sweep, and a new entry is clear. -/
theorem signalled_step (hinv : InFlightInv c) (h : CellStep dep queries cfg c l d)
    (hg : c.schedulesOver l = false) : c.signalled l d = true := by
  have hcontrol := control_step h
  cases h with
  | request i r r' op hi hs =>
      simp only [Cell.controlAfter, hi] at hcontrol
      have hsome : c.shared.control = none → c.sweep = none ∧ c.shared.queued = [] :=
        fun hc => ⟨(hinv.idle hc).1, (hinv.idle hc).2.1⟩
      cases hs with
      | createRegister =>
          have hc : c.shared.control = none := by simpa [Cell.schedulesOver, hi] using hg
          simp [Cell.signalled, hi, hcontrol, Request.controlAfter, registerControl, hc]
      | resumeRegister =>
          have hc : c.shared.control = none := by simpa [Cell.schedulesOver, hi] using hg
          simp [Cell.signalled, hi, hcontrol, Request.controlAfter, registerControl, hc]
      | cancelSignal =>
          cases hc : c.shared.control with
          | none => simp [Cell.signalled, hi, hsome hc]
          | some ctl => simp [Cell.signalled, hi, hcontrol, Request.controlAfter, hc]
      | pauseSignalled hsig =>
          obtain ⟨ctl, hc⟩ := Option.isSome_iff_exists.mp hsig
          simp [Cell.signalled, hi, hcontrol, Request.controlAfter, hc]
      | pauseUnsignalled hc => simp [Cell.signalled, hi, hsome hc]
      | _ => simp [Cell.signalled, hi]
  | _ => rfl

/-! ## Entries are older than the next sweep -/

/-- The entry was made for a sweep that has been numbered. -/
def OwnerNumbered (c : Cell) : Prop :=
  ∀ ctl, c.shared.control = some ctl → ctl.owner < c.shared.nextSerial

theorem Op.ownerNumbered_run {s : Shared} (op : Op)
    (h : ∀ ctl, s.control = some ctl → ctl.owner < s.nextSerial) :
    ∀ ctl, (op.run dep s).control = some ctl → ctl.owner < (op.run dep s).nextSerial := by
  intro ctl hc
  cases op with
  | registerSweepControl n =>
      show ctl.owner < max s.nextSerial (n + 1)
      have hc : registerControl s.control n = some ctl := hc
      cases hs : s.control with
      | none =>
          rw [hs] at hc
          cases hc
          show n < max s.nextSerial (n + 1)
          omega
      | some old =>
          rw [hs] at hc
          cases hc
          have := h ctl hs
          omega
  | unregisterSweepControl => cases hc
  | requestCancel =>
      obtain ⟨old, hold, rfl⟩ := Option.map_eq_some_iff.mp hc
      exact h old hold
  | requestPause =>
      obtain ⟨old, hold, rfl⟩ := Option.map_eq_some_iff.mp hc
      exact h old hold
  | _ => exact h ctl hc

theorem ownerNumbered_step (hinv : OwnerNumbered c) (h : CellStep dep queries cfg c l d) :
    OwnerNumbered d := by
  cases h with
  | arrive e => exact hinv
  | raised i r hi => exact hinv
  | request i r r' op hi hs => exact Op.ownerNumbered_run op hinv
  | start task rest hs hq => exact hinv
  | sweep act t t' op ht hs => exact Op.ownerNumbered_run op hinv
  | worker i act t f op w ht hf hs ha => exact Op.ownerNumbered_run op hinv
  | tick => exact hinv

/-- A registration over an entry does not leave a clear entry of its own. -/
theorem schedulesOver_of_signalled (hinv : OwnerNumbered c) (h : CellStep dep queries cfg c l d)
    (hs : c.signalled l d = true) : c.schedulesOver l = false := by
  have hcontrol := control_step h
  have hold : ∀ ctl, c.shared.control = some ctl →
      registerControl c.shared.control c.shared.nextSerial ≠
        some ⟨false, false, c.shared.nextSerial⟩ := by
    intro ctl hc he
    rw [hc] at he
    have := hinv ctl hc
    have hown : ctl.owner = c.shared.nextSerial := by rw [Option.some_inj.mp he]
    omega
  cases h with
  | request i r r' op hi hstep =>
      simp only [Cell.controlAfter, hi] at hcontrol
      cases hstep with
      | createRegister =>
          simp only [Cell.signalled, hi, hcontrol, decide_eq_true_eq] at hs
          cases hc : c.shared.control with
          | none => simp [Cell.schedulesOver, hi, hc]
          | some ctl => exact absurd hs (hold ctl hc)
      | resumeRegister =>
          simp only [Cell.signalled, hi, hcontrol, decide_eq_true_eq] at hs
          cases hc : c.shared.control with
          | none => simp [Cell.schedulesOver, hi, hc]
          | some ctl => exact absurd hs (hold ctl hc)
      | _ => simp [Cell.schedulesOver, hi]
  | _ => rfl

/-! ## Running because of a resume -/

theorem Op.resumed_run {s : Shared} {op : Op} (hop : op ≠ .markExperimentRunning)
    (hr : (op.run dep s).resumed = true) (hs : (op.run dep s).status = some .running) :
    s.resumed = true ∧ s.status = some .running := by
  cases op with
  | markExperimentRunning => exact absurd rfl hop
  | updateExperiment u =>
      have hr : (s.resumed && u.status.isNone) = true := hr
      rw [Bool.and_eq_true] at hr
      have hu : u.status = none := by simpa using hr.2
      refine ⟨hr.1, ?_⟩
      rw [status_run dep s _ (by simp) (by simp)] at hs
      cases hst : s.status with
      | none => rw [hst] at hs; cases hs
      | some old =>
          rw [hst] at hs
          simpa [Op.statusAfter, hu] using hs
  | deleteExperiment => cases hs
  | insertExperiment n => cases hr
  | markExperimentCancelled => cases hr
  | markExperimentPaused => cases hr
  | _ => exact ⟨hr, hs⟩

theorem Op.control_ne_none {s : Shared} {op : Op} (hop : op ≠ .unregisterSweepControl)
    (hc : s.control ≠ none) : (op.run dep s).control ≠ none := by
  obtain ⟨ctl, hctl⟩ := Option.ne_none_iff_exists'.mp hc
  rw [control_run, hctl]
  cases op with
  | unregisterSweepControl => exact absurd rfl hop
  | _ => simp [Op.controlAfter, registerControl]

/-- An operation other than the mark of a resume and `unregister_sweep_control`. -/
theorem Op.resumedRegistered_run {s : Shared} {op : Op} (hop : op ≠ .markExperimentRunning)
    (hun : op ≠ .unregisterSweepControl)
    (hinv : s.resumed = true → s.status = some .running → s.control ≠ none)
    (hr : (op.run dep s).resumed = true) (hs : (op.run dep s).status = some .running) :
    (op.run dep s).control ≠ none := by
  obtain ⟨hr, hs⟩ := Op.resumed_run hop hr hs
  exact Op.control_ne_none hun (hinv hr hs)

/-- The step keeps an experiment that is RUNNING by a resume registered, exactly if it leaves
    none open. -/
theorem resumedRegistered_step
    (hinv : c.shared.resumed = true → c.shared.status = some .running → c.shared.control ≠ none)
    (h : CellStep dep queries cfg c l d) :
    ResumedRegistered c l d ↔ c.leavesResumedOpen l = false := by
  cases h with
  | arrive e => exact iff_of_true hinv rfl
  | raised i r hi => exact iff_of_true hinv rfl
  | start task rest hs hq => exact iff_of_true hinv rfl
  | tick => exact iff_of_true hinv rfl
  | worker i act t f op w ht hf hs ha =>
      have hop := (workerStep_op hs).1
      refine iff_of_true (fun hr hst => ?_) rfl
      exact Op.resumedRegistered_run (by rintro rfl; cases hop) (by rintro rfl; cases hop) hinv
        hr hst
  | request i r r' op hi hs =>
      cases hs with
      | resumeMark =>
          cases hdoc : c.shared.doc with
          | none =>
              refine iff_of_true (fun _ hst => ?_) ?_
              · simp [Shared.status, Op.run, hdoc] at hst
              · simp [Cell.leavesResumedOpen, hi, hdoc]
          | some doc =>
              have hst : (Op.run dep c.shared .markExperimentRunning).status = some .running := by
                rw [status_run dep _ _ (by simp) (by simp), Shared.status, hdoc]
                rfl
              simp only [Cell.leavesResumedOpen, hi, hdoc, decide_true, Option.isSome_some,
                Bool.and_true, Bool.true_and, Option.isNone_eq_false_iff,
                Option.isSome_iff_ne_none]
              exact ⟨fun hr => hr rfl hst, fun hc _ _ => hc⟩
      | _ =>
          refine iff_of_true (fun hr hst => ?_) (by simp [Cell.leavesResumedOpen, hi])
          exact Op.resumedRegistered_run (by simp) (by simp) hinv hr hst
  | sweep act t t' op ht hs =>
      have hop := hs.ofSweep
      cases hs with
      | unregister hpc =>
          simp only [Cell.leavesResumedOpen, ht, hpc, decide_true, Bool.true_and]
          constructor
          · intro hr
            by_contra hopen
            rw [Bool.not_eq_false, Bool.and_eq_true, decide_eq_true_eq] at hopen
            exact hr hopen.1 hopen.2 rfl
          · intro hopen hr hst
            have hr : c.shared.resumed = true := hr
            have hst : c.shared.status = some .running := hst
            simp [hr, hst] at hopen
      | _ =>
          refine iff_of_true (fun hr hst => ?_) (by simp [Cell.leavesResumedOpen, *])
          exact Op.resumedRegistered_run (by simp) (by simp) hinv hr hst

end

/-! ## Whole runs -/

section

variable {ι : Type} [DecidableEq ι] (dep : Deployment) (queries : ι → List String)
  (cfgs : ι → ExperimentConfig)

/-- The registry is right about the pending sweeps of `e` in a run exactly if the run
    schedules none of them over an entry, and right about `e` being RUNNING by a resume
    exactly if the run never leaves it open. -/
theorem in_flight_iff (e : ι) (ls : List (ι × Label)) :
    (EveryStep (serverStep dep queries cfgs) (OnCell e PendingRegistered) .initial ls ↔
      EveryStep (serverStep dep queries cfgs)
        (OnCell e fun c l _ => c.schedulesOver l = false) .initial ls) ∧
    (EveryStep (serverStep dep queries cfgs) (OnCell e ResumedRegistered) .initial ls ↔
      EveryStep (serverStep dep queries cfgs)
        (OnCell e fun c l _ => c.leavesResumedOpen l = false) .initial ls) := by
  refine ⟨⟨?_, ?_⟩, ?_, ?_⟩
  · refine everyStep_server OwnerNumbered ?_ (by rintro ctl ⟨⟩)
    intro c l d hinv h hq
    exact ⟨ownerNumbered_step hinv h, schedulesOver_of_signalled hinv h hq.2⟩
  · refine everyStep_server InFlightInv ?_ inFlightInv_initial
    intro c l d hinv h hg
    have hd := inFlight_step hinv h hg
    exact ⟨hd, ⟨hd.sweep, hd.queued⟩, signalled_step hinv h hg⟩
  · refine everyStep_server (fun c => ResumedRegistered c .tick c) ?_ (by rintro ⟨⟩)
    intro c l d hinv h hq
    exact ⟨hq, (resumedRegistered_step hinv h).mp hq⟩
  · refine everyStep_server (fun c => ResumedRegistered c .tick c) ?_ (by rintro ⟨⟩)
    intro c l d hinv h hg
    have hd := (resumedRegistered_step hinv h).mpr hg
    exact ⟨hd, hd⟩

end

/-- The thread pauses its grid of one run before the run, and has written PAUSED. -/
def pausedByThread : List Label :=
  createRun ++ [.start] ++ sweepGo 4 ++ [.arrive .pause] ++ requestGo 1 2 ++ sweepGo 5

/-- A resume before the thread unregisters: it adopts the entry, which the thread removes. -/
def resumedOverEntry : List Label :=
  pausedByThread ++ [.arrive .resume] ++ requestGo 2 4 ++ sweepGo 1

/-- A resume after the thread has unregistered, up to its mark. -/
def resumedAfterwards : List Label :=
  pausedByThread ++ sweepGo 1 ++ [.arrive .resume] ++ requestGo 2 2

/-- After the first run a sweep is queued without an entry; in the second the experiment is
    RUNNING by a resume, not registered. -/
theorem registry_misses_resumed_sweep :
    ((exec (sampleServer oneRunGrid) .initial (onlyExperiment resumedOverEntry)).map fun s =>
        ((s.cells ()).shared.queued, (s.cells ()).shared.control)) =
      some ([⟨1, .resume⟩], none) ∧
    ¬ EveryStep (sampleServer oneRunGrid) (OnCell () PendingRegistered) .initial
      (onlyExperiment resumedOverEntry) ∧
    ¬ EveryStep (sampleServer oneRunGrid) (OnCell () ResumedRegistered) .initial
      (onlyExperiment resumedAfterwards) := by
  decide +kernel

end RagParamsFinder
