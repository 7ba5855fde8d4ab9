/-
  Cancel is final, as long as the sweep hears of it in time.

  The cancel endpoint sets the flag of the control entry, if there is one, and marks the
  experiment CANCELLED. The sweep thread learns of it at its next control check, or from a run
  that its own check has stopped, and computes the status of its final write from its own
  flags. Three orders break this: the final write (or the failure of preflight) of a thread
  when no check has come between the flag and the write; a check that does not find the flag,
  or that finds runs waiting in the pool; and the mark of a pause that found no entry.

  Proved: `SweepStep.reports`: a check after the flag leaves the thread on its way out, or with
  its own flag set and past preflight; hence its final write says CANCELLED.
  `cancel_final_of_run`: in a run without the three orders (and in which no other endpoint
  writes over the cancelled experiment) the status stays CANCELLED from the mark on, and no
  run starts once the sweep has made a control check. `final_write_outruns_cancel` is a run
  with the first order.
-/
import RagParamsFinder.Lifecycle.Server

namespace RagParamsFinder

open StepMachine

/-- A Bayesian sweep that has run no trial and was not paused: it ends CANCELLED unasked. -/
def Sweep.untried (cfg : ExperimentConfig) (t : Sweep) : Bool :=
  cfg.isBayesian && !t.paused && t.runIds.isEmpty

/-- After a cancel, a settling write with no control check between the flag and the write. -/
def Cell.outrunsCancel (cfg : ExperimentConfig) (c : Cell) : Label → Bool
  | .sweep .go =>
      match c.sweep with
      | some t =>
          c.shared.acked && !t.heard &&
            match t.pc with
            | .finalWrite _ => !t.untried cfg
            | .failPreflight _ => true
            | _ => false
      | none => false
  | _ => false

/-- After a cancel, a control check of the thread that does not find the flag, or finds runs
    that wait for a worker. -/
def Cell.missesCancel (c : Cell) : Label → Bool
  | .sweep .go =>
      match c.sweep with
      | some t =>
          c.shared.acked && t.checks &&
            (decide (checkControl c.shared.control ≠ .cancelled) || t.futures.any (·.isWaiting))
      | none => false
  | _ => false

/-- After a cancel, the mark of a pause that found no entry. -/
def Cell.pausesCancelled (c : Cell) : Label → Bool
  | .request i false => c.shared.acked && decide (c.requests[i]? = some .pauseMark)
  | _ => false

/-- A write of an endpoint other than create, cancel and pause: after a cancel the mark of a
    resume or the write of a GET, and DELETE at any time. -/
def Cell.otherWrites (c : Cell) : Label → Bool
  | .request i false =>
      match c.requests[i]? with
      | some .resumeMark => c.shared.acked
      | some (.getWrite _ _ _) => c.shared.acked
      | some .deleteExperiment => true
      | _ => false
  | _ => false

/-- The sweep has made a control check since a cancel was acknowledged. -/
def Cell.checkedSince (c : Cell) : Bool :=
  match c.sweep with
  | some t => t.checkedSince
  | none => false

/-- After a cancel the status is CANCELLED, and no run starts once the sweep has checked. -/
def CancelFinal (c : Cell) (l : Label) (d : Cell) : Prop :=
  (d.shared.acked = true → d.shared.status = some .cancelled) ∧
    (c.checkedSince = true → c.startsRun l = false)

instance (c : Cell) (l : Label) (d : Cell) : Decidable (CancelFinal c l d) :=
  inferInstanceAs (Decidable (_ ∧ _))

/-- The orders in which the sweep hears of a cancel in time. -/
def HeardInTime (cfg : ExperimentConfig) (c : Cell) (l : Label) (_ : Cell) : Prop :=
  c.outrunsCancel cfg l = false ∧ c.missesCancel l = false ∧ c.pausesCancelled l = false ∧
    c.otherWrites l = false

instance (cfg : ExperimentConfig) (c : Cell) (l : Label) (d : Cell) :
    Decidable (HeardInTime cfg c l d) :=
  inferInstanceAs (Decidable (_ ∧ _ ∧ _ ∧ _))

/-! ## The thread -/

section

variable {cfg : ExperimentConfig} {s : Shared} {t t' : Sweep} {act : SweepAct} {op : Op}

/-- The thread has checked since a cancel: it had before, or this step is a check, which
    halts the thread if it finds a signal. -/
theorem SweepStep.checkedSince (h : SweepStep cfg s t act op (some t'))
    (hc : t'.checkedSince = true) :
    t.checkedSince = true ∨ act = .go ∧ t.checks = true ∧ s.acked = true ∧
      (checkControl s.control ≠ .clear → t'.Halted ∧ t'.futures = t.futures) := by
  cases h.move with
  | go hk => exact Or.inl (hk.checkedSince ▸ hc)
  | startCheck hact hpc ht =>
      subst ht
      refine (Bool.or_eq_true_iff.mp hc).imp_right fun hack => ?_
      refine ⟨hact, by simp [Sweep.checks, hpc], hack, fun hsig => ⟨?_, rfl⟩⟩
      have hp : (t.startChecked s).pc = .unregister := by simp [Sweep.startChecked, hsig]
      exact ⟨Or.inr (by rw [hp]; rfl), by rw [hp]; rfl, by rw [hp]; rfl⟩
  | check clear stopped hact hcheck _ _ _ hstopped ht =>
      subst ht
      obtain ⟨-, hfut, -, hsince, -⟩ := Sweep.checked_keeps s t clear stopped
      rw [hsince, Bool.or_eq_true] at hc
      refine hc.imp_right fun hack => ⟨hact, hcheck, hack, fun hsig => ⟨?_, hfut⟩⟩
      obtain ⟨hs, hp⟩ := @Sweep.checked_signal s t clear stopped hsig
      exact ⟨Or.inl hs, by rw [hp]; exact hstopped.1, by rw [hp]; exact hstopped.2⟩
  | put futures runIds pc _ ht => exact Or.inl (by rwa [ht] at hc)
  | observe r futures pc _ _ _ _ ht =>
      subst ht
      exact Or.inl ((Sweep.observe_keeps cfg t r).2.1.symm.trans hc)

theorem checkControl_flagged {control : Option SweepControl} (h : flagged control = true) :
    checkControl control = .cancelled := by
  cases control with
  | none => cases h
  | some c =>
      have hc : c.cancel = true := h
      simp [checkControl, hc]

/-- Before the loops, where preflight and its failure are. -/
def Pc.starting : Pc → Bool
  | .completedSignatures => true
  | .register => true
  | .cancelledInDb => true
  | .startCheck => true
  | .preflight => true
  | .failPreflight _ => true
  | _ => false

/-- A thread after a check that came after the flag: on its way out, or past preflight with its
    own flag set. -/
def Sweep.Reports (t : Sweep) : Prop :=
  t.heard = true → t.pc = .unregister ∨ t.cancelled = true ∧ t.pc.starting = false

theorem SweepStep.ne_unregister (h : SweepStep cfg s t act op (some t')) :
    t.pc ≠ .unregister := by
  cases h <;> simp [*]

/-- A move that keeps what the thread has heard, from any place but the way out. -/
theorem Sweep.Reports.keeps (hr : t.Reports) (hk : t.Keeps t') (hne : t.pc ≠ .unregister)
    (hs : t.pc.starting = false → t'.pc.starting = false) : t'.Reports := by
  intro hh
  rw [hk.heard] at hh
  obtain ⟨hc, hp⟩ := (hr hh).resolve_left hne
  exact Or.inr ⟨hk.cancelled.trans hc, hs hp⟩

/-- A check in one of the loops that comes after the flag finds it. -/
theorem Sweep.Reports.checked (hr : t.Reports) (hne : t.pc ≠ .unregister) {clear stopped : Pc}
    (hclear : clear.starting = false) (hstopped : stopped.starting = false) :
    (t.checked s clear stopped).Reports := by
  intro hh
  right
  constructor
  · have hor : t.heard = true ∨ flagged s.control = true := by
      rw [← Bool.or_eq_true]
      revert hh
      unfold Sweep.checked
      split <;> exact id
    rcases hor with hheard | hflag
    · have hc := ((hr hheard).resolve_left hne).1
      unfold Sweep.checked
      split
      · exact hc
      · rfl
      · exact hc
    · simp [Sweep.checked, checkControl_flagged hflag]
  · rcases Sweep.checked_pc s t clear stopped with hp | hp
    · rw [hp]; exact hclear
    · rw [hp]; exact hstopped

/-- A run that was stopped by its own check sets the flag of the thread. -/
theorem Sweep.Reports.observe (hr : t.Reports) (hne : t.pc ≠ .unregister) (r : RunResult)
    (futures : List RunFuture) {pc : Pc} (hpc : pc.starting = false) :
    Sweep.Reports { t.observe cfg r with futures := futures, pc := pc } := by
  intro hh
  refine Or.inr ⟨?_, hpc⟩
  cases r with
  | cancelled => rfl
  | _ => exact ((hr hh).resolve_left hne).1

theorem SweepStep.reports (h : SweepStep cfg s t act op (some t')) (hr : t.Reports) :
    t'.Reports := by
  have hne := h.ne_unregister
  cases h with
  | startCheck hpc =>
      intro hh
      -- at this check the thread cannot have heard before
      have hno : t.heard = false := by
        by_contra hheard
        have := ((hr (by simpa using hheard)).resolve_left hne).2
        simp [hpc, Pc.starting] at this
      have hflag : flagged s.control = true := by
        simpa [Sweep.startChecked, Sweep.noteCheck, hno] using hh
      exact Or.inl (by simp [Sweep.startChecked, checkControl_flagged hflag])
  | submitCheck caller p hpc =>
      exact hr.checked hne (by split <;> rfl) (by rw [caller.resume_false]; rfl)
  | loopCheck hpc => exact hr.checked hne rfl rfl
  | trialCheck p hpc hs => exact hr.checked hne (by split <;> rfl) rfl
  | trialAfter hpc => exact hr.checked hne rfl rfl
  | process runId done t' hpc hp =>
      obtain ⟨f, r, pc, -, -, rfl, hcases⟩ := Sweep.processOne_eq hp
      refine hr.observe hne r _ ?_
      rcases hcases with ⟨d, rfl⟩ | ⟨rfl, -⟩ | ⟨rfl, -⟩ <;> rfl
  | trialRun f r hpc hf hres =>
      obtain ⟨pc, heq, hcases⟩ := Sweep.trialDone_eq cfg t r
      rw [heq]
      refine hr.observe hne r [] ?_
      rcases hcases with rfl | rfl <;> rfl
  | submitNext caller hpc =>
      unfold Sweep.submitNext
      rw [caller.resume_false]
      repeat' split
      all_goals exact hr.keeps ⟨rfl, rfl, rfl, rfl, rfl, rfl, id⟩ hne fun _ => rfl
  | submitPut caller p hpc =>
      intro hh
      refine Or.inr ⟨((hr hh).resolve_left hne).1, ?_⟩
      unfold Caller.resume
      split <;> rfl
  | trialPut p hpc => exact fun hh => Or.inr ⟨((hr hh).resolve_left hne).1, rfl⟩
  | suggest size overlap t' hpc he hm ht =>
      obtain ⟨asks, visited, pc, rfl, hcases⟩ := Sweep.tryCandidate_eq ht
      refine hr.keeps ⟨rfl, rfl, rfl, rfl, rfl, rfl, id⟩ hne fun _ => ?_
      rcases hcases with rfl | ⟨p, rfl⟩ <;> rfl
  | preflight hpc =>
      unfold Sweep.begin
      repeat' split
      all_goals exact hr.keeps ⟨rfl, rfl, rfl, rfl, rfl, rfl, id⟩ hne fun _ => rfl
  | trialUnscored hpc =>
      refine hr.keeps ⟨rfl, rfl, rfl, rfl, rfl, rfl, fun hs => ?_⟩ hne fun _ => rfl
      simp [Sweep.trialUnscored, hs]
  | _ =>
      refine hr.keeps ⟨rfl, rfl, rfl, rfl, rfl, rfl, id⟩ hne fun hp => ?_
      first | rfl | simp [Pc.starting, *] at hp

theorem Sweep.outcome_cancelled {t : Sweep} (runs summaries : List Phase)
    (h : t.cancelled = true ∨ t.untried cfg = true) :
    (t.outcome cfg runs summaries).1 = .cancelled := by
  unfold Sweep.outcome
  by_cases hc : t.cancelled = true
  · split
    · simp [bayesianOutcome, hc]
    · simp [gridOutcome, hc]
  · have hu := h.resolve_left hc
    simp only [Sweep.untried, Bool.and_eq_true] at hu
    obtain ⟨⟨hb, hp⟩, hr⟩ := hu
    have hp : t.paused = false := by simpa using hp
    have hr : t.runIds = [] := by simpa using hr
    simp [hb, bayesianOutcome, hc, hp, hr]

/-- The final update of a thread that has heard of the cancel says CANCELLED. -/
theorem SweepStep.write_cancelled (h : SweepStep cfg s t act op (some t')) (hr : t.Reports)
    {u : ExperimentUpdate} (hu : t'.pc = .finalWrite u)
    (hh : t'.heard = true ∨ t'.untried cfg = true) : u.status = some .cancelled := by
  have hne := h.ne_unregister
  cases h.exit_cases (by rw [hu]; rfl) with
  | settle runs summaries =>
      cases hu
      have hout : t.cancelled = true ∨ t.untried cfg = true :=
        hh.imp_left fun hheard => ((hr hheard).resolve_left hne).1
      exact finalUpdate_cancelled (Sweep.outcome_cancelled runs summaries hout) _ _ _
  | abandon _ ha hp => rw [hp] at hu; cases hu
  | cancelled _ hst hp => rw [hp] at hu; cases hu
  | wrote u _ hw hp => rw [hp] at hu; cases hu
  | failing m => cases hu

end

/-! ## The cell -/

/-- A cancel past its read has a document; an acknowledged one has its status; a thread that
    has heard reports it, and its final write says so; a thread that has checked since is
    halted. -/
structure CancelInv (cfg : ExperimentConfig) (c : Cell) : Prop where
  created : c.Created
  doc : ∀ r ∈ c.requests, r = .cancelSignal ∨ r = .cancelMark → c.shared.status ≠ none
  acked : c.shared.acked = true → c.shared.status = some .cancelled
  reports : ∀ t, c.sweep = some t → t.Reports
  write : ∀ t u, c.sweep = some t → t.pc = .finalWrite u →
    t.heard = true ∨ t.untried cfg = true → u.status = some .cancelled
  halted : ∀ t, c.sweep = some t → t.checkedSince = true →
    t.Halted ∧ ∀ f ∈ t.futures, f.isWaiting = false

theorem cancelInv_initial (cfg : ExperimentConfig) : CancelInv cfg .initial where
  created := created_initial
  doc := by rintro r ⟨⟩
  acked := by rintro ⟨⟩
  reports := by rintro t ⟨⟩
  write := by rintro t u ⟨⟩
  halted := by rintro t ⟨⟩

section

variable {dep : Deployment} {queries : List String} {cfg : ExperimentConfig} {c d : Cell}
  {l : Label}

/-- Only the mark of a cancel acknowledges one. -/
theorem acked_step (h : CellStep dep queries cfg c l d) (ha : d.shared.acked = true) :
    c.shared.acked = true ∨ ∃ i, l = .request i false ∧ c.requests[i]? = some .cancelMark := by
  have hrun : ∀ op : Op, op ≠ .markExperimentCancelled →
      (op.run dep c.shared).acked = c.shared.acked := by
    intro op hop
    cases op <;> first | rfl | exact absurd rfl hop
  cases h with
  | request i r r' op hi hs =>
      cases hs with
      | cancelMark => exact Or.inr ⟨i, rfl, hi⟩
      | _ => exact Or.inl ha
  | sweep act t t' op ht hs =>
      left
      rwa [hrun op (by rintro rfl; cases hs.ofSweep)] at ha
  | worker i act t f op w ht hf hs hacc =>
      left
      rwa [hrun op (by rintro rfl; cases (workerStep_op hs).1)] at ha
  | _ => exact Or.inl ha

/-- In the orders heard in time a cancelled experiment stays CANCELLED. -/
theorem cancelled_step (hinv : CancelInv cfg c) (h : CellStep dep queries cfg c l d)
    (hg : HeardInTime cfg c l d) (ha : c.shared.acked = true) :
    d.shared.status = some .cancelled := by
  obtain ⟨hout, -, hpause, hother⟩ := hg
  have hst := hinv.acked ha
  rw [status_step h]
  cases h with
  | request i r r' op hi hs =>
      simp only [Cell.statusAfter, hi, hst]
      cases hs with
      | createInsert hc =>
          have hcr := hinv.created (Or.inl (by rintro hd; simp [Shared.status, hd] at hst))
          rw [hcr] at hc
          cases hc
      | pauseMark => simp [Cell.pausesCancelled, hi, ha] at hpause
      | resumeMark => simp [Cell.otherWrites, hi, ha] at hother
      | getWrite st n m => simp [Cell.otherWrites, hi, ha] at hother
      | deleteExperiment => simp [Cell.otherWrites, hi] at hother
      | _ => rfl
  | sweep act t t' op ht hs =>
      simp only [Cell.statusAfter, ht, hst, Option.map_some, Option.some_inj]
      cases hs with
      | finalWrite u hpc =>
          have hh : t.heard = true ∨ t.untried cfg = true := by
            cases hheard : t.heard with
            | true => exact Or.inl rfl
            | false => exact Or.inr (by simpa [Cell.outrunsCancel, ht, ha, hpc, hheard] using hout)
          simp [Sweep.statusAfter, hpc, hinv.write t u ht hpc hh]
      | failPreflight m hpc =>
          have hheard : t.heard = true := by simpa [Cell.outrunsCancel, ht, ha, hpc] using hout
          rcases hinv.reports t ht hheard with hp | ⟨-, hp⟩
          · rw [hpc] at hp; cases hp
          · rw [hpc] at hp; cases hp
      | _ => simp [Sweep.statusAfter, *]
  | _ => exact hst

/-- No DELETE in the run: a document stays. -/
theorem status_ne_none_step (h : CellStep dep queries cfg c l d) (hg : c.otherWrites l = false)
    (hs : c.shared.status ≠ none) : d.shared.status ≠ none := by
  intro hd
  rw [status_step h] at hd
  obtain ⟨i, rfl, hi⟩ := Cell.statusAfter_none hd hs
  simp [Cell.otherWrites, hi] at hg

theorem cancelDoc_step (hinv : CancelInv cfg c) (h : CellStep dep queries cfg c l d)
    (hg : c.otherWrites l = false) :
    ∀ r ∈ d.requests, r = .cancelSignal ∨ r = .cancelMark → d.shared.status ≠ none := by
  intro r hr hc
  apply status_ne_none_step h hg
  cases h with
  | arrive e =>
      rcases mem_requests_arrive hr with hr | hr
      · exact hinv.doc r hr hc
      · rcases hc with rfl | rfl <;> cases hr
  | request i x x' op hi hs =>
      rcases mem_requests_set hr with rfl | hr
      · cases hs with
        | cancelRead hrun => rw [hrun]; simp
        | cancelSignal => exact hinv.doc _ (List.mem_of_getElem? hi) (Or.inl rfl)
        | _ => rcases hc with hc | hc <;> cases hc
      · exact hinv.doc r hr hc
  | raised i x hi =>
      rcases mem_requests_set hr with rfl | hr
      · rcases hc with hc | hc <;> cases hc
      · exact hinv.doc r hr hc
  | _ => exact hinv.doc r hr hc

/-- A thread that has checked since a cancel is halted, with no run waiting. -/
theorem halted_step (hinv : CancelInv cfg c) (h : CellStep dep queries cfg c l d)
    (hg : c.missesCancel l = false) :
    ∀ t, d.sweep = some t → t.checkedSince = true →
      t.Halted ∧ ∀ f ∈ t.futures, f.isWaiting = false := by
  cases h with
  | sweep act t t' op ht hs =>
      rintro t₁ rfl hc
      rcases hs.checkedSince hc with hold | ⟨rfl, hcheck, hack, hsig⟩
      · exact hs.halted_still (hinv.halted t ht hold)
      · -- the check that hears of the cancel
        have hmiss : checkControl c.shared.control = .cancelled ∧
            ∀ f ∈ t.futures, f.isWaiting = false := by
          simpa [Cell.missesCancel, ht, hack, hcheck] using hg
        obtain ⟨hh, hf⟩ := hsig (by rw [hmiss.1]; simp)
        exact ⟨hh, fun f hm => hmiss.2 f (hf ▸ hm)⟩
  | start task rest hs hq => rintro t ⟨⟩ ⟨⟩
  | worker i act t f op w ht hf hs ha =>
      rintro t₁ ⟨⟩ hc
      obtain ⟨hh, hw⟩ := hinv.halted t ht hc
      exact ⟨hh, noWaiting_worker hw hs⟩
  | _ => exact hinv.halted

theorem reports_step (hinv : CancelInv cfg c) (h : CellStep dep queries cfg c l d) :
    ∀ t, d.sweep = some t → t.Reports := by
  cases h with
  | sweep act t t' op ht hs =>
      rintro t₁ rfl
      exact hs.reports (hinv.reports t ht)
  | start task rest hs hq => rintro t ⟨⟩ ⟨⟩
  | worker i act t f op w ht hf hs ha =>
      rintro t₁ ⟨⟩
      exact hinv.reports t ht
  | _ => exact hinv.reports

theorem write_step (hinv : CancelInv cfg c) (h : CellStep dep queries cfg c l d) :
    ∀ t u, d.sweep = some t → t.pc = .finalWrite u →
      t.heard = true ∨ t.untried cfg = true → u.status = some .cancelled := by
  cases h with
  | sweep act t t' op ht hs =>
      rintro t₁ u rfl hpc hh
      exact hs.write_cancelled (hinv.reports t ht) hpc hh
  | start task rest hs hq =>
      rintro t u ⟨⟩ hpc
      cases hk : task.kind <;> simp [Sweep.start, hk] at hpc
  | worker i act t f op w ht hf hs ha =>
      rintro t₁ u ⟨⟩ hpc hr
      exact hinv.write t u ht hpc hr
  | _ => exact hinv.write

theorem startsRun_step (hinv : CancelInv cfg c) (h : CellStep dep queries cfg c l d)
    (hc : c.checkedSince = true) : c.startsRun l = false := by
  unfold Cell.checkedSince at hc
  cases ht : c.sweep with
  | none => rw [ht] at hc; cases hc
  | some t =>
      rw [ht] at hc
      obtain ⟨hh, hw⟩ := hinv.halted t ht hc
      exact startsRun_halted h ht hh hw

theorem cancel_step (hinv : CancelInv cfg c) (h : CellStep dep queries cfg c l d)
    (hg : HeardInTime cfg c l d) : CancelInv cfg d ∧ CancelFinal c l d := by
  have hacked : d.shared.acked = true → d.shared.status = some .cancelled := by
    intro ha
    rcases acked_step h ha with ha | ⟨i, rfl, hi⟩
    · exact cancelled_step hinv h hg ha
    · have hdoc := hinv.doc _ (List.mem_of_getElem? hi) (Or.inr rfl)
      obtain ⟨old, hold⟩ := Option.ne_none_iff_exists'.mp hdoc
      rw [status_step h]
      simp [Cell.statusAfter, hi, hold, Request.statusAfter]
  exact ⟨⟨created_step hinv.created h, cancelDoc_step hinv h hg.2.2.2, hacked,
    reports_step hinv h, write_step hinv h, halted_step hinv h hg.2.1⟩, hacked,
    startsRun_step hinv h⟩

end

/-! ## Whole runs -/

section

variable {ι : Type} [DecidableEq ι] (dep : Deployment) (queries : ι → List String)
  (cfgs : ι → ExperimentConfig)

/-- In a run in which every cancel of `e` is heard in time, cancel is final. -/
theorem cancel_final_of_run (e : ι) (ls : List (ι × Label))
    (hG : EveryStep (serverStep dep queries cfgs) (OnCell e (HeardInTime (cfgs e))) .initial ls) :
    EveryStep (serverStep dep queries cfgs) (OnCell e CancelFinal) .initial ls :=
  everyStep_server (CancelInv (cfgs e)) (fun _ _ _ hinv h hg => cancel_step hinv h hg)
    (cancelInv_initial (cfgs e)) hG

end

/-- A cancel that the control check of the loop hears. -/
def cancelledInLoop : List Label :=
  untilLoopCheck ++ [.arrive .cancel] ++ requestGo 1 3 ++ sweepGo 5

theorem cancel_final_of_run_cancelledInLoop :
    EveryStep (sampleServer oneRunGrid) (OnCell () CancelFinal) .initial
      (onlyExperiment cancelledInLoop) :=
  cancel_final_of_run .mongo (fun _ => ["q"]) (fun _ => oneRunGrid) ()
    (onlyExperiment cancelledInLoop) (by decide +kernel)

/-- A cancel that comes when the thread has counted its runs, before its final write. -/
def cancelledAtEnd : List Label :=
  untilLoopCheck ++ sweepGo 5 ++ [.arrive .cancel] ++ requestGo 1 3 ++ sweepGo 1

/-- The cancel has returned success, and the final write stores COMPLETE over it. -/
theorem final_write_outruns_cancel :
    ((exec (sampleServer oneRunGrid) .initial (onlyExperiment cancelledAtEnd)).map fun s =>
        ((s.cells ()).shared.status, (s.cells ()).requests)) =
      some (some .complete, [.done, .cancelOk]) ∧
    ¬ EveryStep (sampleServer oneRunGrid) (OnCell () CancelFinal) .initial
      (onlyExperiment cancelledAtEnd) := by
  decide +kernel

end RagParamsFinder
