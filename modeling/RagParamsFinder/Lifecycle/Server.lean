/-
  The server: the experiments' cells under the sweep executor
  (`server/core/pipeline/executors.py`).

  A cell is one experiment: what is shared, the sweep thread if one executes, and the
  requests in progress. One label is one access by one actor, or the clock. The sweep
  executor has one thread; it starts tasks in the order of submission, over all
  experiments, when no sweep executes. The thread pool of a grid sweep starts its runs in
  the order of submission as long as fewer than `parallelism` run.

  Proved: `Cell.step_cases`, what each kind of label does to a cell; `everyStep_server`, the
  rule by which an invariant of one experiment holds in every run of the server;
  `status_step` and `control_step`, who writes the status and the control entry;
  `startsRun_halted`, a halted thread starts no run; `created_step`, nothing but its creation
  touches an experiment that has not been inserted.
-/
import RagParamsFinder.Lib.StepMachine
import RagParamsFinder.Lifecycle.Moves
import RagParamsFinder.Lifecycle.Requests

namespace RagParamsFinder

open StepMachine

/-! ## Cells -/

structure Cell where
  shared : Shared
  sweep : Option Sweep
  requests : List Request
  deriving DecidableEq

def Cell.initial : Cell where
  shared := .initial
  sweep := none
  requests := []

/-- What a worker of the pool does: begin the run, or take a step in it. -/
inductive WorkerAct where
  | begin
  | run (act : RunAct)
  deriving DecidableEq, Repr

inductive Label where
  | arrive (e : Endpoint)
  | request (i : Nat) (raises : Bool)
  | start
  | sweep (act : SweepAct)
  | worker (i : Nat) (act : WorkerAct)
  | tick
  deriving DecidableEq, Repr

/-- The runs that execute on a worker. -/
def busyWorkers (futures : List RunFuture) : Nat := futures.countP (·.isRunning)

/-- A free worker takes the run that has waited longest. -/
def canBegin (parallelism : Nat) (futures : List RunFuture) (i : Nat) : Bool :=
  decide (busyWorkers futures < parallelism) && decide (futures.findIdx? (·.isWaiting) = some i)

theorem canBegin_waiting {parallelism i : Nat} {futures : List RunFuture}
    (h : canBegin parallelism futures i = true) :
    ∃ f, futures[i]? = some f ∧ f.isWaiting = true := by
  unfold canBegin at h
  simp only [Bool.and_eq_true, decide_eq_true_eq, List.findIdx?_eq_some_iff_getElem] at h
  obtain ⟨-, hi, hw, -⟩ := h
  exact ⟨futures[i], List.getElem?_eq_getElem hi, hw⟩

/-- One step of the worker of future `i`. -/
def workerStep (cfg : ExperimentConfig) (queries : List String) (s : Shared)
    (futures : List RunFuture) (i : Nat) (f : RunFuture) : WorkerAct → Option (Op × WorkerState)
  | .begin =>
      if canBegin cfg.execution.parallelism futures i then some (.read, .running .insertRow)
      else none
  | .run act =>
      match f.worker with
      | .running pc => runStep queries s f pc act
      | _ => none

/-- A worker accesses the shared state as a run does, and does not put the run back in the
    queue. -/
theorem workerStep_op {cfg : ExperimentConfig} {queries : List String} {s : Shared}
    {futures : List RunFuture} {i : Nat} {f : RunFuture} {act : WorkerAct} {op : Op}
    {w : WorkerState} (h : workerStep cfg queries s futures i f act = some (op, w)) :
    op.ofRun = true ∧ w ≠ .waiting := by
  cases act with
  | begin =>
      simp only [workerStep] at h
      split at h
      · cases h; exact ⟨rfl, by simp⟩
      · cases h
  | run act =>
      simp only [workerStep] at h
      split at h
      · exact runStep_op h
      · cases h

/-- A run begins only if one waits. -/
theorem workerStep_begin {cfg : ExperimentConfig} {queries : List String} {s : Shared}
    {futures : List RunFuture} {i : Nat} {f : RunFuture} {op : Op} {w : WorkerState}
    (h : workerStep cfg queries s futures i f .begin = some (op, w)) :
    ∃ g ∈ futures, g.isWaiting = true := by
  simp only [workerStep] at h
  split at h
  · rename_i hb
    obtain ⟨g, hg, hw⟩ := canBegin_waiting hb
    exact ⟨g, List.mem_of_getElem? hg, hw⟩
  · cases h

/-- What a worker works on is not done. -/
theorem workerStep_not_done {cfg : ExperimentConfig} {queries : List String} {s : Shared}
    {futures : List RunFuture} {i : Nat} {f : RunFuture} {act : WorkerAct} {op : Op}
    {w : WorkerState} (hf : futures[i]? = some f)
    (h : workerStep cfg queries s futures i f act = some (op, w)) : f.isDone = false := by
  cases act with
  | begin =>
      simp only [workerStep] at h
      split at h
      · rename_i hb
        obtain ⟨g, hg, hw⟩ := canBegin_waiting hb
        rw [hf, Option.some_inj] at hg
        rw [← hg] at hw
        have hwait : f.worker = .waiting := by simpa [RunFuture.isWaiting] using hw
        simp [RunFuture.isDone, hwait]
      · cases h
  | run act =>
      simp only [workerStep] at h
      split at h
      · rename_i pc hrun
        simp [RunFuture.isDone, hrun]
      · cases h

/-- A worker inserts the row of its own run. -/
theorem workerStep_row {cfg : ExperimentConfig} {queries : List String} {s : Shared}
    {futures : List RunFuture} {i : Nat} {f : RunFuture} {act : WorkerAct} {runId : Nat}
    {params : RunParams} {w : WorkerState}
    (h : workerStep cfg queries s futures i f act = some (.insertRunStatus runId params, w)) :
    runId = f.runId := by
  cases act with
  | begin =>
      simp only [workerStep] at h
      split at h <;> cases h
  | run act =>
      simp only [workerStep] at h
      split at h
      · exact runStep_row h
      · cases h

/-- A worker leaves no run waiting where none waited. -/
theorem noWaiting_worker {cfg : ExperimentConfig} {queries : List String} {s : Shared}
    {futures : List RunFuture} {i : Nat} {f : RunFuture} {act : WorkerAct} {op : Op}
    {w : WorkerState} (hw : ∀ g ∈ futures, g.isWaiting = false)
    (h : workerStep cfg queries s futures i f act = some (op, w)) :
    ∀ g ∈ futures.set i { f with worker := w }, g.isWaiting = false := by
  intro g hg
  rcases List.mem_or_eq_of_mem_set hg with hg | rfl
  · exact hw g hg
  · simpa [RunFuture.isWaiting] using (workerStep_op h).2

section Step

variable (dep : Deployment) (queries : List String) (cfg : ExperimentConfig)

/-- Apply an operation that the stores accept. -/
def Cell.apply (c : Cell) (op : Op) : Option Shared :=
  if op.accepted dep c.shared then some (op.run dep c.shared) else none

def Cell.step (c : Cell) : Label → Option Cell
  | .arrive e => some { c with requests := c.requests ++ [e.request] }
  | .request i raises => do
      let r ← c.requests[i]?
      let (op, r') ← r.step cfg c.shared raises
      let shared ← c.apply dep op
      return { c with shared, requests := c.requests.set i r' }
  | .start =>
      match c.sweep, c.shared.queued with
      | none, task :: _ =>
          some { c with shared := Op.run dep c.shared .takeTask, sweep := some (.start task) }
      | _, _ => none
  | .sweep act => do
      let t ← c.sweep
      let (op, t') ← t.step cfg c.shared act
      let shared ← c.apply dep op
      return { c with shared, sweep := t' }
  | .worker i act => do
      let t ← c.sweep
      let f ← t.futures[i]?
      let (op, w) ← workerStep cfg queries c.shared t.futures i f act
      let shared ← c.apply dep op
      let futures := t.futures.set i { f with worker := w }
      return { c with shared, sweep := some { t with futures } }
  | .tick => some { c with shared := Op.run dep c.shared .tick }

end Step

/-! ## The server -/

/-- The sweep executor: the experiments whose tasks wait, and the one that executes. -/
structure Executor (ι : Type) where
  queue : List ι
  busy : Option ι
  deriving DecidableEq

variable {ι : Type} [DecidableEq ι]

/-- What the executor makes of a cell's step; `none` when it does not take place. -/
def Executor.allow (x : Executor ι) (e : ι) (c : Cell) (l : Label) (d : Cell) :
    Option (Executor ι) :=
  if l = .start then
    match x.queue with
    | e' :: rest => if e' = e ∧ x.busy = none then some ⟨rest, some e⟩ else none
    | [] => none
  else if c.shared.queued.length < d.shared.queued.length then
    some { x with queue := x.queue ++ [e] }
  else if c.sweep.isSome ∧ d.sweep.isNone then some { x with busy := none }
  else some x

abbrev Server (ι : Type) := Family ι Cell (Executor ι)

def Server.initial : Server ι where
  cells := fun _ => .initial
  sched := ⟨[], none⟩

/-- The server steps on a label of one experiment; each experiment has its configuration
    and its queries. -/
def serverStep (dep : Deployment) (queries : ι → List String) (cfgs : ι → ExperimentConfig) :
    Server ι → ι × Label → Option (Server ι) :=
  familyStep (fun e => Cell.step dep (queries e) (cfgs e)) Executor.allow

/-! ## What a step does -/

/-- A step of a cell, by kind of label. -/
inductive CellStep (dep : Deployment) (queries : List String) (cfg : ExperimentConfig)
    (c : Cell) : Label → Cell → Prop
  | arrive (e : Endpoint) :
      CellStep dep queries cfg c (.arrive e) { c with requests := c.requests ++ [e.request] }
  | request (i : Nat) (r r' : Request) (op : Op) (hr : c.requests[i]? = some r)
      (hs : RequestStep cfg c.shared r op r') (hgo : r.go cfg c.shared = some (op, r')) :
      CellStep dep queries cfg c (.request i false)
        { c with shared := op.run dep c.shared, requests := c.requests.set i r' }
  | raised (i : Nat) (r : Request) (hr : c.requests[i]? = some r) :
      CellStep dep queries cfg c (.request i true) { c with requests := c.requests.set i .done }
  | start (task : SweepTask) (rest : List SweepTask) (hs : c.sweep = none)
      (hq : c.shared.queued = task :: rest) :
      CellStep dep queries cfg c .start
        { c with shared := Op.run dep c.shared .takeTask, sweep := some (.start task) }
  | sweep (act : SweepAct) (t : Sweep) (t' : Option Sweep) (op : Op) (ht : c.sweep = some t)
      (hs : SweepStep cfg c.shared t act op t') :
      CellStep dep queries cfg c (.sweep act) { c with shared := op.run dep c.shared, sweep := t' }
  | worker (i : Nat) (act : WorkerAct) (t : Sweep) (f : RunFuture) (op : Op) (w : WorkerState)
      (ht : c.sweep = some t) (hf : t.futures[i]? = some f)
      (hs : workerStep cfg queries c.shared t.futures i f act = some (op, w))
      (ha : op.accepted dep c.shared = true) :
      CellStep dep queries cfg c (.worker i act)
        { c with
          shared := op.run dep c.shared
          sweep := some { t with futures := t.futures.set i { f with worker := w } } }
  | tick : CellStep dep queries cfg c .tick { c with shared := Op.run dep c.shared .tick }

theorem Cell.apply_eq_some {dep : Deployment} {c : Cell} {op : Op} {s : Shared}
    (h : c.apply dep op = some s) : op.accepted dep c.shared = true ∧ s = op.run dep c.shared := by
  unfold Cell.apply at h
  split at h
  · rename_i ha
    cases h
    exact ⟨ha, rfl⟩
  · cases h

theorem Cell.step_cases {dep : Deployment} {queries : List String} {cfg : ExperimentConfig}
    {c d : Cell} {l : Label} (h : c.step dep queries cfg l = some d) :
    CellStep dep queries cfg c l d := by
  cases l with
  | arrive e => cases h; exact .arrive e
  | request i raises =>
      simp only [Cell.step, Option.bind_eq_bind, Option.bind_eq_some_iff, Option.pure_def,
        Option.some_inj] at h
      obtain ⟨r, hr, ⟨op, r'⟩, hs, s, ha, rfl⟩ := h
      obtain ⟨-, rfl⟩ := Cell.apply_eq_some ha
      cases raises with
      | false =>
          have hgo := Request.step_go hs
          exact .request i r r' op hr (Request.go_cases hgo) hgo
      | true =>
          obtain ⟨rfl, rfl⟩ := Request.step_raises hs
          exact .raised i r hr
  | start =>
      simp only [Cell.step] at h
      split at h
      · rename_i hs hq
        cases h
        exact .start _ _ hs hq
      · cases h
  | sweep act =>
      simp only [Cell.step, Option.bind_eq_bind, Option.bind_eq_some_iff, Option.pure_def,
        Option.some_inj] at h
      obtain ⟨t, ht, ⟨op, t'⟩, hs, s, ha, rfl⟩ := h
      obtain ⟨-, rfl⟩ := Cell.apply_eq_some ha
      exact .sweep act t t' op ht (Sweep.step_cases hs)
  | worker i act =>
      simp only [Cell.step, Option.bind_eq_bind, Option.bind_eq_some_iff, Option.pure_def,
        Option.some_inj] at h
      obtain ⟨t, ht, f, hf, ⟨op, w⟩, hs, s, ha, rfl⟩ := h
      obtain ⟨hacc, rfl⟩ := Cell.apply_eq_some ha
      exact .worker i act t f op w ht hf hs hacc
  | tick => cases h; exact .tick

/-- The step rule of experiment `e`, for every run of the server. -/
theorem everyStep_server {dep : Deployment} {queries : ι → List String}
    {cfgs : ι → ExperimentConfig} {e : ι} (Inv : Cell → Prop) {G Q : Cell → Label → Cell → Prop}
    (hstep : ∀ c l d, Inv c → CellStep dep (queries e) (cfgs e) c l d → G c l d →
      Inv d ∧ Q c l d)
    (hinit : Inv .initial) {ls : List (ι × Label)}
    (hG : EveryStep (serverStep dep queries cfgs) (OnCell e G) .initial ls) :
    EveryStep (serverStep dep queries cfgs) (OnCell e Q) .initial ls := by
  refine everyStep_cell (i := e) ?_ hinit hG
  intro c l d hinv hs hg
  exact hstep c l d hinv (Cell.step_cases hs) hg

/-! ## Who writes the status and the control entry -/

/-- The status that a step of label `l` leaves. -/
def Cell.statusAfter (c : Cell) : Label → Option ExperimentStatus
  | .request i false =>
      match c.requests[i]? with
      | some r => r.statusAfter c.shared.status
      | none => c.shared.status
  | .sweep _ =>
      match c.sweep with
      | some t => c.shared.status.map t.statusAfter
      | none => c.shared.status
  | _ => c.shared.status

theorem status_step {dep : Deployment} {queries : List String} {cfg : ExperimentConfig}
    {c d : Cell} {l : Label} (h : CellStep dep queries cfg c l d) :
    d.shared.status = c.statusAfter l := by
  cases h with
  | arrive e => rfl
  | request i r r' op hi hs =>
      simp only [Cell.statusAfter, hi]
      exact hs.status_run
  | raised i r hi => rfl
  | start task rest hs hq => rfl
  | sweep act t t' op ht hs =>
      simp only [Cell.statusAfter, ht]
      rw [status_run dep _ op hs.ne_insert hs.ne_delete]
      congr 1
      funext old
      exact hs.statusAfter_eq old
  | worker i act t f op w ht hf hs ha =>
      have hop := (workerStep_op hs).1
      simp only [Cell.statusAfter]
      rw [status_run dep _ op (by rintro n rfl; cases hop) (by rintro rfl; cases hop)]
      rw [show op.statusAfter = id from funext (Op.statusAfter_ofRun hop), Option.map_id]
      rfl
  | tick => rfl

/-- A worker begins a run, or the Bayesian thread does. -/
def Cell.startsRun (c : Cell) : Label → Bool
  | .worker _ .begin => true
  | .sweep .go =>
      match c.sweep with
      | some t =>
          match t.pc with
          | .trialPut _ => true
          | _ => false
      | none => false
  | _ => false

/-- A halted thread with no run waiting starts none. -/
theorem startsRun_halted {dep : Deployment} {queries : List String} {cfg : ExperimentConfig}
    {c d : Cell} {l : Label} {t : Sweep} (h : CellStep dep queries cfg c l d)
    (ht : c.sweep = some t) (hh : t.Halted) (hw : ∀ f ∈ t.futures, f.isWaiting = false) :
    c.startsRun l = false := by
  cases h with
  | sweep act t₁ t' op ht₁ hs =>
      rw [ht₁, Option.some_inj] at ht
      subst ht
      obtain ⟨-, hputs, -⟩ := hh
      cases hs with
      | trialPut p hpc => rw [hpc] at hputs; cases hputs
      | _ => simp [Cell.startsRun, *]
  | worker i act t₁ f op w ht₁ hf hs ha =>
      rw [ht₁, Option.some_inj] at ht
      subst ht
      cases act with
      | begin =>
          obtain ⟨g, hg, hwait⟩ := workerStep_begin hs
          rw [hw g hg] at hwait
          cases hwait
      | run act => rfl
  | _ => rfl

/-- The step submits a sweep. -/
def Cell.submits (c : Cell) : Label → Bool
  | .request i false =>
      match c.requests[i]? with
      | some (.createSubmit _) => true
      | some (.resumeSubmit _) => true
      | _ => false
  | _ => false

/-- A step leaves no status where there was one only by a deletion. -/
theorem Cell.statusAfter_none {c : Cell} {l : Label} (h : c.statusAfter l = none)
    (hs : c.shared.status ≠ none) :
    ∃ i, l = .request i false ∧ c.requests[i]? = some .deleteExperiment := by
  unfold Cell.statusAfter at h
  split at h
  · rename_i i
    split at h
    · rename_i r hr
      cases r with
      | deleteExperiment => exact ⟨i, rfl, hr⟩
      | createInsert => cases h
      | _ => exact absurd h (by simpa [Request.statusAfter] using hs)
    · exact absurd h hs
  · split at h
    · exact absurd h (by simpa using hs)
    · exact absurd h hs
  · exact absurd h hs

/-- The control entry that a step of label `l` leaves. -/
def Cell.controlAfter (c : Cell) : Label → Option SweepControl
  | .request i false =>
      match c.requests[i]? with
      | some r => r.controlAfter c.shared
      | none => c.shared.control
  | .sweep _ =>
      match c.sweep with
      | some t => t.controlAfter c.shared.control
      | none => c.shared.control
  | _ => c.shared.control

theorem control_step {dep : Deployment} {queries : List String} {cfg : ExperimentConfig}
    {c d : Cell} {l : Label} (h : CellStep dep queries cfg c l d) :
    d.shared.control = c.controlAfter l := by
  cases h with
  | arrive e => rfl
  | request i r r' op hi hs =>
      simp only [Cell.controlAfter, hi]
      exact hs.control_run
  | raised i r hi => rfl
  | start task rest hs hq => rfl
  | sweep act t t' op ht hs =>
      simp only [Cell.controlAfter, ht]
      rw [control_run]
      exact hs.controlAfter_eq _
  | worker i act t f op w ht hf hs ha =>
      rw [control_run]
      exact Op.controlAfter_ofRun (workerStep_op hs).1 _
  | tick => rfl

theorem countP_set {α : Type} (p : α → Bool) {l : List α} {i : Nat} {x : α} (y : α)
    (h : l[i]? = some x) :
    (l.set i y).countP p + (if p x then 1 else 0) = l.countP p + (if p y then 1 else 0) := by
  induction l generalizing i with
  | nil => cases h
  | cons a l ih =>
      cases i with
      | zero =>
          cases h
          simp only [List.set_cons_zero, List.countP_cons]
          omega
      | succ i =>
          have := ih h
          simp only [List.set_cons_succ, List.countP_cons]
          omega

/-! ## Only a created experiment is worked on -/

/-- The stages of a request that come after a successful read of the document. -/
def Request.started : Request → Bool
  | .createInsert => false
  | .cancelRead => false
  | .pauseRead => false
  | .resumeRead => false
  | .deleteRead => false
  | .getDoc _ => false
  | .done => false
  | _ => true

/-- Whether there is anything to the experiment. -/
def Cell.active (c : Cell) : Prop :=
  c.shared.doc ≠ none ∨ c.shared.queued ≠ [] ∨ c.sweep ≠ none ∨
    ∃ r ∈ c.requests, r.started = true

def Cell.Created (c : Cell) : Prop := c.active → c.shared.created = true

theorem created_initial : Cell.Created .initial := by
  rintro (h | h | h | ⟨r, hr, _⟩)
  · exact absurd rfl h
  · exact absurd rfl h
  · exact absurd rfl h
  · cases hr

theorem created_run {dep : Deployment} {s : Shared} {op : Op} (h : s.created = true) :
    (op.run dep s).created = true := by
  cases op <;> first | exact h | rfl

theorem created_kept {dep : Deployment} {queries : List String} {cfg : ExperimentConfig}
    {c d : Cell} {l : Label} (h : CellStep dep queries cfg c l d)
    (hcr : c.shared.created = true) : d.shared.created = true := by
  cases h with
  | arrive e => exact hcr
  | raised i r hi => exact hcr
  | _ => exact created_run hcr

/-- A member of the list after one request moved on is that request or was there before. -/
theorem mem_requests_set {rs : List Request} {i : Nat} {r' x : Request}
    (h : x ∈ rs.set i r') : x = r' ∨ x ∈ rs := (List.mem_or_eq_of_mem_set h).symm

/-- A request that arrives has read nothing yet. -/
theorem mem_requests_arrive {rs : List Request} {e : Endpoint} {x : Request}
    (h : x ∈ rs ++ [e.request]) : x ∈ rs ∨ x.started = false := by
  rcases List.mem_append.mp h with h | h
  · exact Or.inl h
  · rw [List.mem_singleton.mp h]
    right
    cases e <;> rfl

/-- Without a document, the first access of a request ends it, unless it creates. -/
theorem RequestStep.inactive {cfg : ExperimentConfig} {s : Shared} {r r' : Request} {op : Op}
    (h : RequestStep cfg s r op r') (hr : r.started = false) (hd : s.doc = none) :
    (∃ n, op = .insertExperiment n) ∨ op = .read ∧ r' = .done := by
  have hs : s.status = none := by simp [Shared.status, hd]
  cases h with
  | createInsert hc => exact Or.inl ⟨_, rfl⟩
  | cancelRead h => rw [hs] at h; cases h
  | pauseRead h => rw [hs] at h; cases h
  | resumeRead h _ => rw [hs] at h; cases h
  | deleteRead h => rw [hs] at h; cases h
  | getDetail doc h => rw [hd] at h; cases h
  | getListed doc h => rw [hd] at h; cases h
  | cancelRefused _ => exact Or.inr ⟨rfl, rfl⟩
  | pauseRefused _ => exact Or.inr ⟨rfl, rfl⟩
  | resumeRefused _ => exact Or.inr ⟨rfl, rfl⟩
  | deleteRefused _ => exact Or.inr ⟨rfl, rfl⟩
  | getMissing detail _ => exact Or.inr ⟨rfl, rfl⟩
  | _ => cases hr

theorem Cell.not_active_iff {c : Cell} :
    ¬ c.active ↔ c.shared.doc = none ∧ c.shared.queued = [] ∧ c.sweep = none ∧
      ∀ r ∈ c.requests, r.started = false := by
  simp [Cell.active, not_or]

theorem inactive_of_done {c : Cell} {i : Nat} (hd : c.shared.doc = none)
    (hq : c.shared.queued = []) (hs : c.sweep = none)
    (hr : ∀ r ∈ c.requests, r.started = false) :
    ¬ Cell.active { c with requests := c.requests.set i .done } := by
  refine Cell.not_active_iff.mpr ⟨hd, hq, hs, fun x hx => ?_⟩
  rcases mem_requests_set hx with rfl | hx
  · rfl
  · exact hr x hx

theorem created_step {dep : Deployment} {queries : List String} {cfg : ExperimentConfig}
    {c d : Cell} {l : Label} (hc : c.Created) (h : CellStep dep queries cfg c l d) :
    d.Created := by
  by_cases hcr : c.shared.created = true
  · exact fun _ => created_kept h hcr
  · obtain ⟨hd, hq, hs, hr⟩ := Cell.not_active_iff.mp fun ha => hcr (hc ha)
    -- an inactive cell only takes arrivals, first accesses and ticks
    cases h with
    | arrive e =>
        intro ha
        refine absurd ha (Cell.not_active_iff.mpr ⟨hd, hq, hs, ?_⟩)
        intro r hm
        exact (mem_requests_arrive hm).elim (hr r) id
    | request i r r' op hi hstep =>
        rcases hstep.inactive (hr r (List.mem_of_getElem? hi)) hd with ⟨n, rfl⟩ | ⟨rfl, rfl⟩
        · intro _
          rfl
        · exact fun ha => absurd ha (inactive_of_done hd hq hs hr)
    | raised i r hi => exact fun ha => absurd ha (inactive_of_done hd hq hs hr)
    | start task rest _ hq' => rw [hq] at hq'; cases hq'
    | sweep act t t' op ht _ => rw [hs] at ht; cases ht
    | worker i act t f op w ht _ _ _ => rw [hs] at ht; cases ht
    | tick => exact fun ha => absurd ha (Cell.not_active_iff.mpr ⟨hd, hq, hs, hr⟩)

/-! ## Runs of one experiment, in pieces -/

/-- Create: insert, register, submit. -/
def createRun : List Label :=
  [.arrive .create, .request 0 false, .request 0 false, .request 0 false]

def sweepGo (n : Nat) : List Label := List.replicate n (.sweep .go)

def requestGo (i n : Nat) : List Label := List.replicate n (.request i false)

def workerGo (i n : Nat) : List Label := List.replicate n (.worker i (.run .go))

/-- The run of future `i` over one query, from its start to its end. -/
def wholeRun (i : Nat) : List Label :=
  .worker i .begin :: workerGo i 7 ++ .worker i (.run .next) :: workerGo i 9

/-- A server on which nothing but this experiment is worked on. -/
def onlyExperiment (ls : List Label) : List (Unit × Label) := ls.map (Prod.mk ())

/-- The server of the sample runs: one experiment, one query. -/
def sampleServer (cfg : ExperimentConfig) : Server Unit → Unit × Label → Option (Server Unit) :=
  serverStep .mongo (fun _ => ["q"]) fun _ => cfg

/-- A grid of one run: the run is over, the thread is back at the check of its loop. -/
def untilLoopCheck : List Label :=
  createRun ++ [.start] ++ sweepGo 8 ++ wholeRun 0 ++ [.sweep .go, .sweep (.process 0)]

/-- A grid of one run, swept from its creation to its end. -/
def wholeSweep : List Label := untilLoopCheck ++ sweepGo 7

def oneRunGrid : ExperimentConfig := miniLmGrid .continue 512 [] [0]

end RagParamsFinder
