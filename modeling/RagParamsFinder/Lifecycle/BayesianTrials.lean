/-
  The trials of a Bayesian sweep and the counts stored about them (`bayesian_summary`,
  `_run_bayesian_inner` and `_finalise_bayesian_experiment` in
  `server/core/pipeline/orchestrator.py`).

  The thread is that of `Lifecycle/Sweep`. A run of the trial loop is a list of events: an
  access of the thread, with whatever the requests and the runs have made of the shared state
  by then, or progress of the run of a trial. So the suggestions, the outcomes of the trials,
  and every pause and cancel are arbitrary. A suggestion itself does not raise.

  `executed` and `samplerSpent` are history: the pairs of the runs begun, and whether the loop
  was left at its head, with the sampler's budgets used up.

  Proved:
  * `counted_exec`: the pairs executed are distinct pairs of the search space, within the
    budgets of trials and of suggestions, in every state of every run.
  * `trials_accounted_iff`: the stored counts are right if and only if all planned trials
    were executed, or the sampler's budgets ended the loop and no candidate was lost.
  * `trialLoop_of_server`: the thread of a server's cell takes no other steps.
-/
import RagParamsFinder.Lifecycle.Server

namespace RagParamsFinder

open StepMachine

/-! ## The summary -/

/-- The counts of `bayesian_summary`. -/
structure BayesianSummary where
  gridEquivalentCount : Nat
  plannedTrials : Nat
  attemptedTrials : Nat
  discardedTrials : Nat
  notStarted : Nat
  deriving DecidableEq, Repr

/-- `attempted_trials = len(run_ids)`, `discarded_trials = max(0, planned - attempted)`. -/
def bayesianSummary (cfg : ExperimentConfig) (attempted : Nat) : BayesianSummary :=
  let planned := resolveBayesianNTrials cfg
  let discarded := planned - attempted
  { gridEquivalentCount := gridEquivalentCount cfg
    plannedTrials := planned
    attemptedTrials := attempted
    discardedTrials := discarded
    notStarted := planned - attempted - discarded }

/-! ## The trial loop -/

structure TrialLoop where
  thread : Sweep
  executed : List (Int × Int)
  samplerSpent : Bool
  stored : Option BayesianSummary
  deriving DecidableEq

def TrialLoop.start (task : SweepTask) : TrialLoop where
  thread := .start task
  executed := []
  samplerSpent := false
  stored := none

inductive TrialEvent where
  | access (s : Shared) (act : SweepAct)
  | worker (i : Nat) (w : WorkerState)

def RunParams.pair (p : RunParams) : Int × Int := (p.chunkSize, p.overlap)

/-- The pair whose run the thread is about to begin. -/
def Pc.executes : Pc → List (Int × Int)
  | .trialPut p => [p.pair]
  | _ => []

def Pc.writesSummary : Pc → Bool
  | .finalWrite _ => true
  | _ => false

/-- An access of the thread; at the final write the summary is stored with it. -/
def TrialLoop.access (cfg : ExperimentConfig) (r : TrialLoop) (act : SweepAct) (t : Sweep) :
    TrialLoop where
  thread := t
  executed := r.executed ++ r.thread.pc.executes
  samplerSpent := r.samplerSpent || decide (r.thread.pc = .ask ∧ act = .go)
  stored :=
    if r.thread.pc.writesSummary then some (bayesianSummary cfg r.thread.runIds.length)
    else r.stored

/-- Until the thread ends. -/
def TrialLoop.step (cfg : ExperimentConfig) (r : TrialLoop) : TrialEvent → Option TrialLoop
  | .access s act =>
      match r.thread.step cfg s act with
      | some (_, some t) => some (r.access cfg act t)
      | _ => none
  | .worker i w =>
      r.thread.futures[i]?.map fun f =>
        { r with
          thread := { r.thread with futures := r.thread.futures.set i { f with worker := w } } }

/-! ## What is claimed of the counts -/

/-- The planned trials for which the sampler gave no fresh candidate. -/
def TrialLoop.samplerShortfall (cfg : ExperimentConfig) (r : TrialLoop) : Nat :=
  if r.samplerSpent then resolveBayesianNTrials cfg - r.thread.visited.length else 0

structure TrialsAccounted (cfg : ExperimentConfig) (r : TrialLoop) : Prop where
  distinct : r.executed.Nodup
  space : ∀ x ∈ r.executed,
    x.1 ∈ cfg.chunking.params.chunkSizes ∧ x.2 ∈ cfg.chunking.params.overlaps
  executed : r.executed.length ≤ resolveBayesianNTrials cfg
  asks : r.thread.asks ≤ 3 * resolveBayesianNTrials cfg
  counts : ∀ x, r.stored = some x →
    x.plannedTrials = resolveBayesianNTrials cfg ∧ x.attemptedTrials = r.executed.length ∧
      x.plannedTrials = x.attemptedTrials + x.discardedTrials + x.notStarted
  discarded : ∀ x, r.stored = some x → x.discardedTrials ≤ r.samplerShortfall cfg

/-- When a summary was stored, all planned trials had been executed, or the sampler's budgets
    had ended the loop and every candidate had been executed. -/
def TrialLoop.Spent (cfg : ExperimentConfig) (r : TrialLoop) : Prop :=
  r.stored.isSome → r.executed.length = resolveBayesianNTrials cfg ∨
    (r.samplerSpent = true ∧ r.executed.length = r.thread.visited.length)

/-! ## The invariant -/

/-- The candidate that a trial has taken up and whose run has not begun. -/
def Pc.candidate : Pc → Option RunParams
  | .trialCheck p => some p
  | .trialStarted p => some p
  | .trialPut p => some p
  | _ => none

/-- The places of the grid loop. -/
def Pc.ofGrid : Pc → Bool
  | .submitNext _ => true
  | .submitCheck _ _ => true
  | .submitStarted _ _ => true
  | .submitPut _ _ => true
  | .wait => true
  | .process _ => true
  | .loopCheck => true
  | .leave => true
  | _ => false

/-- The places whose access changes what is counted, and the last one. -/
def Pc.counts : Pc → Bool
  | .trialPut _ => true
  | .finalWrite _ => true
  | .unregister => true
  | _ => false

theorem Pc.of_not_counts {pc : Pc} (h : pc.counts = false) :
    pc.executes = [] ∧ pc.writesSummary = false ∧ pc ≠ .unregister := by
  cases pc with
  | trialPut p => cases h
  | finalWrite u => cases h
  | unregister => cases h
  | _ => exact ⟨rfl, rfl, Pc.noConfusion⟩

structure Counted (cfg : ExperimentConfig) (r : TrialLoop) : Prop where
  grid : r.thread.pc.ofGrid = false
  ids : r.thread.runIds.length = r.executed.length
  nodup : r.thread.visited.Nodup
  space : ∀ x ∈ r.thread.visited,
    x.1 ∈ cfg.chunking.params.chunkSizes ∧ x.2 ∈ cfg.chunking.params.overlaps
  executed : r.executed.Sublist r.thread.visited
  candidate : ∀ p, r.thread.pc.candidate = some p →
    r.executed.length < resolveBayesianNTrials cfg ∧
      ∃ earlier, r.thread.visited = earlier ++ [p.pair] ∧ r.executed.Sublist earlier
  budget : r.executed.length ≤ resolveBayesianNTrials cfg
  asks : r.thread.asks ≤ 3 * resolveBayesianNTrials cfg
  stored : ∀ x, r.stored = some x →
    x = bayesianSummary cfg r.executed.length ∧ r.thread.pc = .unregister

theorem counted_start (cfg : ExperimentConfig) (task : SweepTask) :
    Counted cfg (TrialLoop.start task) where
  grid := by
    unfold TrialLoop.start Sweep.start
    cases task.kind with
    | run => rfl
    | resume => rfl
  ids := rfl
  nodup := List.nodup_nil
  space := fun _ hx => absurd hx List.not_mem_nil
  executed := List.nil_sublist _
  candidate := by
    unfold TrialLoop.start Sweep.start
    cases task.kind with
    | run => exact fun _ hp => absurd hp.symm (Option.some_ne_none _)
    | resume => exact fun _ hp => absurd hp.symm (Option.some_ne_none _)
  budget := Nat.zero_le _
  asks := Nat.zero_le _
  stored := fun _ hx => absurd hx.symm (Option.some_ne_none _)

section Step

variable {cfg : ExperimentConfig} {r : TrialLoop}

theorem Counted.stored_none (h : Counted cfg r) (hpc : r.thread.pc ≠ .unregister) :
    r.stored = none := by
  cases hs : r.stored with
  | none => rfl
  | some x => exact absurd (h.stored x hs).2 hpc

/-- An access that leaves the counted variables alone and takes up no candidate. -/
theorem Counted.frame (h : Counted cfg r) {act : SweepAct} {t : Sweep}
    (hpc : r.thread.pc.counts = false)
    (hkeep : t.visited = r.thread.visited ∧ t.runIds = r.thread.runIds ∧
      t.asks = r.thread.asks)
    (hgrid : t.pc.ofGrid = false)
    (hcand : ∀ p, t.pc.candidate = some p → r.thread.pc.candidate = some p) :
    Counted cfg (r.access cfg act t) := by
  obtain ⟨hvisited, hids, hasks⟩ := hkeep
  obtain ⟨hexec, hwrites, hlast⟩ := Pc.of_not_counts hpc
  have hexecuted : (r.access cfg act t).executed = r.executed := by
    change r.executed ++ r.thread.pc.executes = r.executed
    rw [hexec, List.append_nil]
  have hstored : (r.access cfg act t).stored = none := by
    change (if r.thread.pc.writesSummary then _ else r.stored) = none
    rw [hwrites, h.stored_none hlast]
    rfl
  constructor
  case grid => exact hgrid
  case ids => rw [hexecuted]; exact (congrArg _ hids).trans h.ids
  case nodup => exact hvisited ▸ h.nodup
  case space => exact hvisited ▸ h.space
  case executed => rw [hexecuted]; exact hvisited ▸ h.executed
  case candidate =>
    intro p hp
    rw [hexecuted]
    exact hvisited ▸ h.candidate p (hcand p hp)
  case budget => rw [hexecuted]; exact h.budget
  case asks => exact hasks ▸ h.asks
  case stored => rw [hstored]; exact fun _ hx => absurd hx.symm (Option.some_ne_none _)

/-- A move to a place where no candidate is in hand. -/
theorem Counted.goto (h : Counted cfg r) {act : SweepAct} {t : Sweep}
    (hpc : r.thread.pc.counts = false)
    (hkeep : t.visited = r.thread.visited ∧ t.runIds = r.thread.runIds ∧
      t.asks = r.thread.asks)
    (hgrid : t.pc.ofGrid = false) (hcand : t.pc.candidate = none) :
    Counted cfg (r.access cfg act t) :=
  h.frame hpc hkeep hgrid fun _ hp =>
    absurd (hp.symm.trans hcand) (Option.some_ne_none _)

/-- A suggestion within the budgets: seen before, or a new candidate of the search space. -/
theorem Counted.suggest (h : Counted cfg r) {size overlap : Int} {t : Sweep}
    (hpc : r.thread.pc = .ask) (hroom : r.thread.exhausted cfg = false)
    (hm : size ∈ cfg.chunking.params.chunkSizes ∧ overlap ∈ cfg.chunking.params.overlaps)
    (ht : r.thread.tryCandidate cfg size overlap = some t) :
    Counted cfg (r.access cfg (.suggest size overlap) t) := by
  unfold Sweep.exhausted at hroom
  simp only [Bool.or_eq_false_iff, decide_eq_false_iff_not, not_le] at hroom
  obtain ⟨⟨-, hruns⟩, hasks⟩ := hroom
  rw [h.ids] at hruns
  have hstored : r.stored = none := h.stored_none (by rw [hpc]; exact Pc.noConfusion)
  unfold TrialLoop.access
  rw [hpc, hstored]
  simp only [Pc.executes, Pc.writesSummary, List.append_nil, Bool.false_eq_true, if_false]
  unfold Sweep.tryCandidate at ht
  split at ht
  · cases ht
  · split at ht
    · cases ht
      constructor
      case grid => rfl
      case ids => exact h.ids
      case nodup => exact h.nodup
      case space => exact h.space
      case executed => exact h.executed
      case candidate => exact fun _ hp => absurd hp.symm (Option.some_ne_none _)
      case budget => exact h.budget
      case asks => dsimp only; omega
      case stored => exact fun _ hx => absurd hx.symm (Option.some_ne_none _)
    · rename_i hfresh
      cases ht
      constructor
      case grid => rfl
      case ids => exact h.ids
      case nodup =>
        refine List.nodup_append.mpr ⟨h.nodup, List.nodup_singleton _, fun x hx y hy hxy => ?_⟩
        rw [List.mem_singleton.mp hy] at hxy
        exact hfresh (hxy ▸ hx)
      case space =>
        intro x hx
        rcases List.mem_append.mp hx with hx | hx
        · exact h.space x hx
        · rw [List.mem_singleton.mp hx]
          exact hm
      case executed => exact h.executed.trans (List.sublist_append_left _ _)
      case candidate =>
        intro p hp
        cases hp
        exact ⟨hruns, r.thread.visited, rfl, h.executed⟩
      case budget => exact h.budget
      case asks => dsimp only; omega
      case stored => exact fun _ hx => absurd hx.symm (Option.some_ne_none _)

/-- The candidate in hand is executed. -/
theorem Counted.put (h : Counted cfg r) {p : RunParams} {t : Sweep} {runId : Nat}
    {futures : List RunFuture} (hpc : r.thread.pc = .trialPut p)
    (ht : t = { r.thread with
      runIds := r.thread.runIds ++ [runId], futures := futures, pc := .trialRun }) :
    Counted cfg (r.access cfg .go t) := by
  have hstored : r.stored = none := h.stored_none (by rw [hpc]; exact Pc.noConfusion)
  obtain ⟨hroom, earlier, hvisited, hsub⟩ := h.candidate p (by rw [hpc]; rfl)
  subst ht
  unfold TrialLoop.access
  rw [hpc, hstored]
  simp only [Pc.executes, Pc.writesSummary, Bool.false_eq_true, if_false]
  constructor
  case grid => rfl
  case ids => simp [h.ids]
  case nodup => exact h.nodup
  case space => exact h.space
  case executed =>
    change (r.executed ++ [p.pair]).Sublist r.thread.visited
    rw [hvisited]
    exact hsub.append (List.Sublist.refl _)
  case candidate => exact fun _ hp => absurd hp.symm (Option.some_ne_none _)
  case budget => simpa using Nat.succ_le_of_lt hroom
  case asks => exact h.asks
  case stored => exact fun _ hx => absurd hx.symm (Option.some_ne_none _)

/-- The final write stores the summary of what was executed. -/
theorem Counted.write (h : Counted cfg r) {u : ExperimentUpdate}
    (hpc : r.thread.pc = .finalWrite u) :
    Counted cfg (r.access cfg .go (r.thread.goto .unregister)) := by
  unfold TrialLoop.access
  rw [hpc]
  simp only [Pc.executes, Pc.writesSummary, List.append_nil, if_true]
  constructor
  case grid => rfl
  case ids => exact h.ids
  case nodup => exact h.nodup
  case space => exact h.space
  case executed => exact h.executed
  case candidate => exact fun _ hp => absurd hp.symm (Option.some_ne_none _)
  case budget => exact h.budget
  case asks => exact h.asks
  case stored =>
    rintro x hx
    cases hx
    exact ⟨congrArg _ h.ids, rfl⟩

end Step

theorem Sweep.checked_counts (s : Shared) (t : Sweep) (clear stopped : Pc) :
    (t.checked s clear stopped).visited = t.visited ∧
      (t.checked s clear stopped).runIds = t.runIds ∧
      (t.checked s clear stopped).asks = t.asks := by
  unfold Sweep.checked
  split <;> exact ⟨rfl, rfl, rfl⟩

theorem Sweep.observe_counts (cfg : ExperimentConfig) (t : Sweep) (r : RunResult) :
    (t.observe cfg r).visited = t.visited ∧ (t.observe cfg r).runIds = t.runIds ∧
      (t.observe cfg r).asks = t.asks := by
  cases r <;> exact ⟨rfl, rfl, rfl⟩

/-- Every access of a Bayesian thread keeps the invariant. -/
theorem Counted.access {cfg : ExperimentConfig} (hb : cfg.isBayesian = true) {r : TrialLoop}
    (h : Counted cfg r) {s : Shared} {act : SweepAct} {op : Op} {t : Sweep}
    (hs : SweepStep cfg s r.thread act op (some t)) : Counted cfg (r.access cfg act t) := by
  have hgrid := h.grid
  cases hs with
  | suggest size overlap t hpc he hm ht => exact h.suggest hpc he hm ht
  | trialPut p hpc => exact h.put hpc rfl
  | finalWrite u hpc => exact h.write hpc
  | register hpc =>
      rw [hb]
      exact h.goto (by rw [hpc]; rfl)
        ⟨rfl, rfl, rfl⟩ rfl rfl
  | cancelledInDb hpc =>
      refine h.goto (by rw [hpc]; rfl) ⟨rfl, rfl, rfl⟩ ?_ ?_
      · simp only [Sweep.goto]; split <;> rfl
      · simp only [Sweep.goto]; split <;> rfl
  | startCheck hpc =>
      refine h.goto (by rw [hpc]; rfl) ⟨rfl, rfl, rfl⟩ ?_ ?_
      · rcases r.thread.startChecked_pc s with hp | hp <;> rw [hp] <;> rfl
      · rcases r.thread.startChecked_pc s with hp | hp <;> rw [hp] <;> rfl
  | preflight hpc =>
      unfold Sweep.begin
      rw [hb]
      simp only [if_true]
      split
      · exact h.goto (by rw [hpc]; rfl) ⟨rfl, rfl, rfl⟩ rfl rfl
      · exact h.goto (by rw [hpc]; rfl) ⟨rfl, rfl, rfl⟩ rfl rfl
  | trialCheck p hpc hstop =>
      refine h.frame (by rw [hpc]; rfl) (Sweep.checked_counts ..) ?_ ?_
      · rcases Sweep.checked_pc s r.thread
          (if r.thread.runIds.isEmpty then .trialStarted p else .trialPut p) .bestTrial with hp | hp
        · rw [hp]; split <;> rfl
        · rw [hp]; rfl
      · intro q hq
        rcases Sweep.checked_pc s r.thread
          (if r.thread.runIds.isEmpty then .trialStarted p else .trialPut p) .bestTrial with hp | hp
        · rw [hp] at hq
          rw [hpc]
          split at hq <;> exact hq
        · rw [hp] at hq
          cases hq
  | trialStarted p hpc =>
      exact h.frame (by rw [hpc]; rfl) ⟨rfl, rfl, rfl⟩ rfl (fun q hq => by rw [hpc]; exact hq)
  | trialRun f result hpc hf hr =>
      obtain ⟨pc, heq, hcases⟩ := Sweep.trialDone_eq cfg r.thread result
      rw [heq]
      refine h.goto (by rw [hpc]; rfl) (Sweep.observe_counts cfg r.thread result) ?_ ?_
      · rcases hcases with rfl | rfl <;> rfl
      · rcases hcases with rfl | rfl <;> rfl
  | trialAfter hpc =>
      refine h.goto (by rw [hpc]; rfl) (Sweep.checked_counts ..) ?_ ?_
      · rcases Sweep.checked_pc s r.thread .ask .bestTrial with hp | hp <;> rw [hp] <;> rfl
      · rcases Sweep.checked_pc s r.thread .ask .bestTrial with hp | hp <;> rw [hp] <;> rfl
  | _ =>
      first
      | exact h.goto (by simp [*, Pc.counts]) ⟨rfl, rfl, rfl⟩ rfl rfl
      | simp [*, Pc.ofGrid] at hgrid

theorem TrialLoop.step_access {cfg : ExperimentConfig} {r r' : TrialLoop} {s : Shared}
    {act : SweepAct} (h : r.step cfg (.access s act) = some r') :
    ∃ op t, SweepStep cfg s r.thread act op (some t) ∧ r' = r.access cfg act t := by
  simp only [TrialLoop.step] at h
  split at h
  · rename_i op t hs
    cases h
    exact ⟨op, t, Sweep.step_cases hs, rfl⟩
  · cases h

theorem Counted.step {cfg : ExperimentConfig} (hb : cfg.isBayesian = true) {r r' : TrialLoop}
    {event : TrialEvent} (h : Counted cfg r) (hs : r.step cfg event = some r') :
    Counted cfg r' := by
  cases event with
  | access s act =>
      obtain ⟨op, t, hstep, rfl⟩ := TrialLoop.step_access hs
      exact h.access hb hstep
  | worker i w =>
      obtain ⟨f, -, rfl⟩ := Option.map_eq_some_iff.mp hs
      exact ⟨h.grid, h.ids, h.nodup, h.space, h.executed, h.candidate, h.budget, h.asks, h.stored⟩

/-- The invariant holds in every state of every run of a Bayesian thread. -/
theorem counted_exec {cfg : ExperimentConfig} (hb : cfg.isBayesian = true) {task : SweepTask}
    {events : List TrialEvent} {r : TrialLoop}
    (hrun : exec (TrialLoop.step cfg) (.start task) events = some r) : Counted cfg r :=
  inv_of_exec (fun _ _ _ h hs => h.step hb hs) (counted_start cfg task) hrun

/-! ## The counts -/

/-- Only the count of discarded trials can be wrong. -/
theorem Counted.accounted_iff {cfg : ExperimentConfig} {r : TrialLoop} (h : Counted cfg r) :
    TrialsAccounted cfg r ↔
      ∀ x, r.stored = some x → x.discardedTrials ≤ r.samplerShortfall cfg := by
  constructor
  · exact fun ha => ha.discarded
  · intro hd
    constructor
    case distinct => exact h.nodup.sublist h.executed
    case space => exact fun x hx => h.space x (h.executed.subset hx)
    case executed => exact h.budget
    case asks => exact h.asks
    case counts =>
      intro x hx
      obtain ⟨rfl, -⟩ := h.stored x hx
      have hle := h.budget
      refine ⟨rfl, rfl, ?_⟩
      simp only [bayesianSummary]
      omega
    case discarded => exact hd

theorem Counted.discarded_iff {cfg : ExperimentConfig} {r : TrialLoop} (h : Counted cfg r) :
    (∀ x, r.stored = some x → x.discardedTrials ≤ r.samplerShortfall cfg) ↔ r.Spent cfg := by
  have hle := h.budget
  have hvisited := h.executed.length_le
  unfold TrialLoop.Spent TrialLoop.samplerShortfall
  cases hs : r.stored with
  | none =>
      exact ⟨fun _ hx => absurd hx Bool.false_ne_true,
        fun _ _ hx => absurd hx.symm (Option.some_ne_none _)⟩
  | some x =>
      obtain ⟨rfl, -⟩ := h.stored x hs
      have hforall : (∀ y, some (bayesianSummary cfg r.executed.length) = some y →
          y.discardedTrials ≤
            if r.samplerSpent then resolveBayesianNTrials cfg - r.thread.visited.length else 0) ↔
          resolveBayesianNTrials cfg - r.executed.length ≤
            if r.samplerSpent then resolveBayesianNTrials cfg - r.thread.visited.length else 0 :=
        ⟨fun hy => hy _ rfl, fun hd y hy => Option.some.inj hy ▸ hd⟩
      rw [hforall]
      cases r.samplerSpent with
      | false => simp only [Bool.false_eq_true, if_false, false_and, or_false]; simp; omega
      | true => simp; omega

/-- In every run of every Bayesian sweep, the trials are accounted for if and only if, when
    the summary was written, all planned trials had been executed, or the sampler's budgets
    had ended the loop and no candidate had been lost before its run. -/
theorem trials_accounted_iff {cfg : ExperimentConfig} (hb : cfg.isBayesian = true)
    {task : SweepTask} {events : List TrialEvent} {r : TrialLoop}
    (hrun : exec (TrialLoop.step cfg) (.start task) events = some r) :
    TrialsAccounted cfg r ↔ r.Spent cfg := by
  have h := counted_exec hb hrun
  rw [h.accounted_iff, h.discarded_iff]

/-! ## The thread of a server -/

/-- Whatever label a cell of the server steps on, its sweep thread, while it lasts, stays as
    it is or takes one event of the trial loop. -/
theorem trialLoop_of_server {dep : Deployment} {queries : List String} {cfg : ExperimentConfig}
    {c d : Cell} {l : Label} (h : c.step dep queries cfg l = some d) {r : TrialLoop}
    (hr : c.sweep = some r.thread) {u : Sweep} (hu : d.sweep = some u) :
    u = r.thread ∨ ∃ event r', r.step cfg event = some r' ∧ r'.thread = u := by
  have hsame : d.sweep = c.sweep → u = r.thread := fun hd =>
    Option.some.inj (hu.symm.trans (hd.trans hr))
  cases l with
  | sweep act =>
      simp only [Cell.step, hr, Option.bind_eq_bind, Option.bind_some, Option.bind_eq_some_iff,
        Option.pure_def, Option.some_inj] at h
      obtain ⟨⟨op, t'⟩, hs, s, -, rfl⟩ := h
      cases hu
      refine Or.inr ⟨.access c.shared act, r.access cfg act u, ?_, rfl⟩
      simp only [TrialLoop.step, hs]
  | worker i act =>
      simp only [Cell.step, hr, Option.bind_eq_bind, Option.bind_some, Option.bind_eq_some_iff,
        Option.pure_def, Option.some_inj] at h
      obtain ⟨f, hf, ⟨op, w⟩, -, s, -, rfl⟩ := h
      cases hu
      exact Or.inr ⟨.worker i w, _, Option.map_eq_some_iff.mpr ⟨f, hf, rfl⟩, rfl⟩
  | start =>
      cases Cell.step_cases h with
      | start task rest hnone => exact absurd (hr.symm.trans hnone) (Option.some_ne_none _)
  | arrive e => exact Or.inl (hsame (by cases h; rfl))
  | request i raises =>
      refine Or.inl (hsame ?_)
      cases Cell.step_cases h <;> rfl
  | tick => exact Or.inl (hsame (by cases h; rfl))

/-! ## A sweep that is cancelled -/

/-- Two chunk sizes, searched by the sampler. -/
def searchedSizes : ExperimentConfig :=
  { miniLmGrid .continue 512 [256] [0] with
    execution := { gridOnOneWorker .continue with searchStrategy := .bayesian }
    valid := rfl }

def quietly (n : Nat) : List TrialEvent := List.replicate n (.access .initial .go)

/-- A trial of 512, from its suggestion to its score. -/
def trialOf512 : List TrialEvent :=
  .access .initial (.suggest 512 0) :: quietly 3 ++ .worker 0 (.done .ok) :: quietly 2

/-- One trial, then the budget of two is used up by 256. -/
def bothTried : List TrialEvent :=
  quietly 3 ++ trialOf512 ++ quietly 1 ++ .access .initial (.suggest 256 0) :: quietly 2 ++
    .worker 0 (.done .ok) :: quietly 7

theorem trials_accounted_bothTried :
    ∃ r, exec (TrialLoop.step searchedSizes) (.start ⟨0, .run⟩) bothTried = some r ∧
      r.stored = some ⟨2, 2, 2, 0, 0⟩ ∧ TrialsAccounted searchedSizes r := by
  have hcounts : ((exec (TrialLoop.step searchedSizes) (.start ⟨0, .run⟩) bothTried).map
      fun r => (r.stored, r.executed.length)) = some (some ⟨2, 2, 2, 0, 0⟩, 2) := by
    decide +kernel
  obtain ⟨r, hr, hpair⟩ := Option.map_eq_some_iff.mp hcounts
  obtain ⟨hstored, hlen⟩ := Prod.mk.inj hpair
  have hspent : r.Spent searchedSizes := fun _ => Or.inl hlen
  exact ⟨r, hr, hstored, (trials_accounted_iff rfl hr).mpr hspent⟩

/-- One trial, then a cancel before the second. -/
def cancelledAfterOne : List TrialEvent :=
  quietly 3 ++ trialOf512 ++
    .access { Shared.initial with control := some ⟨true, false, 0⟩ } .go :: quietly 3

/-- The trial that a cancelled sweep never reached is counted as discarded. -/
theorem never_reached_discarded :
    ¬∀ (cfg : ExperimentConfig) (task : SweepTask) (events : List TrialEvent) (r : TrialLoop),
      cfg.isBayesian = true → exec (TrialLoop.step cfg) (.start task) events = some r →
        TrialsAccounted cfg r := by
  intro h
  have hcounts : ((exec (TrialLoop.step searchedSizes) (.start ⟨0, .run⟩) cancelledAfterOne).map
      fun r => (r.stored, r.samplerShortfall searchedSizes)) = some (some ⟨2, 2, 1, 1, 0⟩, 0) := by
    decide +kernel
  obtain ⟨r, hr, hpair⟩ := Option.map_eq_some_iff.mp hcounts
  obtain ⟨hstored, hshort⟩ := Prod.mk.inj hpair
  have hle := (h searchedSizes ⟨0, .run⟩ cancelledAfterOne r rfl hr).discarded _ hstored
  rw [hshort] at hle
  exact absurd hle (by decide)

end RagParamsFinder
