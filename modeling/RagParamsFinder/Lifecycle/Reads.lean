/-
  Reading an experiment does not undo its status, as long as what the read checked still
  holds when it writes.

  A GET fetches the document and the run rows, looks for an entry of the experiment, and if
  the document said RUNNING, there is no entry and all rows have settled, writes the status
  the rows resolve to. Between any two of these accesses the sweep may settle the experiment
  and unregister, and a pause, a cancel, a resume or another GET may write.

  Proved: `read_harmless_of_run`: in a run in which no GET decides to write another status
  than the one stored over a document that is not RUNNING any more or beside a pending sweep,
  and in which nothing overtakes its write, each write of a GET changes no status, except that
  of an experiment left in RUNNING with no sweep queued or executing. `read_undoes_pause` is a
  run in which a GET turns a paused experiment COMPLETE.
-/
import RagParamsFinder.Lifecycle.Server

namespace RagParamsFinder

open StepMachine

/-- Stored as RUNNING, with no sweep queued or executing. -/
def Cell.leftRunning (c : Cell) : Bool :=
  decide (c.shared.status = some .running) && c.sweep.isNone && c.shared.queued.isEmpty

/-- The step is the write of a GET. -/
def Cell.readWrites (c : Cell) : Label → Bool
  | .request i false =>
      match c.requests[i]? with
      | some (.getWrite _ _ _) => true
      | _ => false
  | _ => false

/-- The write of a GET leaves the status, or settles an experiment left in RUNNING. -/
def ReadHarmless (c : Cell) (l : Label) (d : Cell) : Prop :=
  c.readWrites l = true → d.shared.status = c.shared.status ∨ c.leftRunning = true

instance (c : Cell) (l : Label) (d : Cell) : Decidable (ReadHarmless c l d) :=
  inferInstanceAs (Decidable (_ → _ ∨ _))

/-- A GET passes its checks, to write another status than the one stored, on a document that is
    not RUNNING any more or while a sweep is queued or executes. -/
def Cell.decidesStale (cfg : ExperimentConfig) (c : Cell) : Label → Bool
  | .request i false =>
      match c.requests[i]? with
      | some r =>
          match r.go cfg c.shared with
          | some (_, .getWrite status _ _) =>
              c.shared.status.isSome && decide (c.shared.status ≠ some status) && !c.leftRunning
          | _ => false
      | none => false
  | _ => false

/-- A GET is to write `status`, and the step stores another status before it, or submits a
    sweep of the experiment that the GET takes to be left in RUNNING. -/
def Cell.overtakes (c : Cell) (l : Label) (status : ExperimentStatus) : Bool :=
  let after := c.statusAfter l
  (after.isSome && decide (after ≠ c.shared.status) && decide (after ≠ some status)) ||
    (c.submits l && c.leftRunning)

def Cell.overtakesRead (c : Cell) (l : Label) : Bool :=
  c.requests.any fun r =>
    match r with
    | .getWrite status _ _ => c.overtakes l status
    | _ => false

/-- The checks of every GET still hold when it writes. -/
def ReadsCurrent (cfg : ExperimentConfig) (c : Cell) (l : Label) (_ : Cell) : Prop :=
  c.decidesStale cfg l = false ∧ c.overtakesRead l = false

instance (cfg : ExperimentConfig) (c : Cell) (l : Label) (d : Cell) :
    Decidable (ReadsCurrent cfg c l d) :=
  inferInstanceAs (Decidable (_ ∧ _))

/-- Each GET that is to write finds no document, the status it is to write, or an experiment
    left in RUNNING. -/
def ReadsInv (c : Cell) : Prop :=
  ∀ st n m, Request.getWrite st n m ∈ c.requests →
    c.shared.status = none ∨ c.shared.status = some st ∨ c.leftRunning = true

section

variable {dep : Deployment} {queries : List String} {cfg : ExperimentConfig} {c d : Cell}
  {l : Label}

/-- A GET that decides to write while its checks hold. -/
theorem reads_decided {i : Nat} {r : Request} {op : Op} {st : ExperimentStatus} {n : Nat}
    {m : String} (hi : c.requests[i]? = some r)
    (hgo : r.go cfg c.shared = some (op, .getWrite st n m))
    (hg : c.decidesStale cfg (.request i false) = false) :
    c.shared.status = none ∨ c.shared.status = some st ∨ c.leftRunning = true := by
  simp only [Cell.decidesStale, hi, hgo, Bool.and_eq_false_iff, Bool.not_eq_false',
    decide_eq_false_iff_not, not_not] at hg
  rcases hg with (hnone | hsame) | hleft
  · exact Or.inl (by simpa using hnone)
  · exact Or.inr (Or.inl hsame)
  · exact Or.inr (Or.inr hleft)

/-- An experiment left in RUNNING stays so, unless its status changes or a sweep is
    submitted. -/
theorem leftRunning_step (h : CellStep dep queries cfg c l d) (hl : c.leftRunning = true)
    (hs : d.shared.status = c.shared.status) (hsub : c.submits l = false) :
    d.leftRunning = true := by
  simp only [Cell.leftRunning, Bool.and_eq_true, decide_eq_true_eq, Option.isNone_iff_eq_none,
    List.isEmpty_iff] at hl ⊢
  obtain ⟨⟨hrun, hsweep⟩, hqueue⟩ := hl
  refine ⟨⟨hs.trans hrun, ?_⟩, ?_⟩
  · cases h with
    | start task rest _ hq => rw [hqueue] at hq; cases hq
    | sweep act t t' op ht _ => rw [hsweep] at ht; cases ht
    | worker i act t f op w ht _ _ _ => rw [hsweep] at ht; cases ht
    | _ => exact hsweep
  · cases h with
    | start task rest _ hq => rw [hqueue] at hq; cases hq
    | sweep act t t' op ht _ => rw [hsweep] at ht; cases ht
    | worker i act t f op w ht _ _ _ => rw [hsweep] at ht; cases ht
    | request i r r' op hi hstep =>
        cases hstep with
        | createSubmit serial => simp [Cell.submits, hi] at hsub
        | resumeSubmit serial => simp [Cell.submits, hi] at hsub
        | _ => exact hqueue
    | _ => exact hqueue

/-- A GET that was about to write before the step. -/
theorem reads_kept (hinv : ReadsInv c) (h : CellStep dep queries cfg c l d)
    (hg : c.overtakesRead l = false) {st : ExperimentStatus} {n : Nat} {m : String}
    (hm : Request.getWrite st n m ∈ c.requests) :
    d.shared.status = none ∨ d.shared.status = some st ∨ d.leftRunning = true := by
  have hstatus := status_step h
  have hover : c.overtakes l st = false := by
    have := List.any_eq_false.mp hg _ hm
    simpa using this
  simp only [Cell.overtakes, Bool.or_eq_false_iff, Bool.and_eq_false_iff, decide_eq_false_iff_not,
    ← hstatus, not_not] at hover
  obtain ⟨hafter, hsub⟩ := hover
  rcases hafter with (hnone | hsame) | hst
  · exact Or.inl (by simpa using hnone)
  · rw [hsame]
    rcases hinv st n m hm with hc | hc | hc
    · exact Or.inl hc
    · exact Or.inr (Or.inl hc)
    · have hns : c.submits l = false := by simpa [hc] using hsub
      exact Or.inr (Or.inr (leftRunning_step h hc hsame hns))
  · exact Or.inr (Or.inl hst)

theorem reads_step (hinv : ReadsInv c) (h : CellStep dep queries cfg c l d)
    (hg : ReadsCurrent cfg c l d) : ReadsInv d ∧ ReadHarmless c l d := by
  obtain ⟨hstale, hover⟩ := hg
  have hstatus := status_step h
  constructor
  · intro st n m hm
    have hkept := fun hm => @reads_kept dep queries cfg c d l hinv h hover st n m hm
    cases h with
    | arrive e =>
        rcases mem_requests_arrive hm with hm | hm
        · exact hkept hm
        · cases hm
    | request i r r' op hi hs hgo =>
        rcases mem_requests_set hm with rfl | hm
        · have hdecided := reads_decided hi hgo hstale
          -- the decision itself is a read
          cases hs with
          | getResolve doc runs _ _ _ _ _ _ => exact hdecided
          | getMoreResolve doc _ _ _ _ => exact hdecided
        · exact hkept hm
    | raised i r hi =>
        rcases mem_requests_set hm with hm | hm
        · cases hm
        · exact hkept hm
    | _ => exact hkept hm
  · intro hw
    cases h with
    | request i r r' op hi hs =>
        cases hs with
        | getWrite st n m =>
            rcases hinv st n m (List.mem_of_getElem? hi) with hc | hc | hc
            · left
              rw [hstatus]
              simp [Cell.statusAfter, hi, Request.statusAfter, hc]
            · left
              rw [hstatus]
              simp [Cell.statusAfter, hi, Request.statusAfter, hc]
            · exact Or.inr hc
        | _ => simp [Cell.readWrites, hi] at hw
    | _ => cases hw

end

/-! ## Whole runs -/

section

variable {ι : Type} [DecidableEq ι] (dep : Deployment) (queries : ι → List String)
  (cfgs : ι → ExperimentConfig)

/-- In a run in which the checks of every GET of `e` still hold when it writes, no GET undoes
    the status of `e`. -/
theorem read_harmless_of_run (e : ι) (ls : List (ι × Label))
    (hG : EveryStep (serverStep dep queries cfgs) (OnCell e (ReadsCurrent (cfgs e)))
      .initial ls) :
    EveryStep (serverStep dep queries cfgs) (OnCell e ReadHarmless) .initial ls :=
  everyStep_server ReadsInv (fun _ _ _ hinv h hg => reads_step hinv h hg)
    (by rintro st n m ⟨⟩) hG

end

/-- The thread ends by an exception, and a GET of the details settles what it left. -/
def reconciledByRead : List Label :=
  untilLoopCheck ++ sweepGo 3 ++ [.sweep .raise] ++ sweepGo 1 ++ [.arrive .getExperiment] ++
    requestGo 1 4

theorem read_harmless_of_run_reconciledByRead :
    EveryStep (sampleServer oneRunGrid) (OnCell () ReadHarmless) .initial
      (onlyExperiment reconciledByRead) :=
  read_harmless_of_run .mongo (fun _ => ["q"]) (fun _ => oneRunGrid) ()
    (onlyExperiment reconciledByRead) (by decide +kernel)

/-- A pause heard after the last run, and a GET that fetched the document and the rows before
    the thread wrote PAUSED, and looks for the entry after the thread has unregistered. -/
def readAcrossPause : List Label :=
  untilLoopCheck ++ [.arrive .pause] ++ requestGo 1 2 ++ [.arrive .getExperiment] ++
    requestGo 2 2 ++ sweepGo 5 ++ requestGo 2 2

/-- The status before the write of the GET, and after it. -/
theorem read_undoes_pause :
    ((exec (sampleServer oneRunGrid) .initial (onlyExperiment readAcrossPause.dropLast)).map
        fun s => (s.cells ()).shared.status) = some (some .paused) ∧
    ((exec (sampleServer oneRunGrid) .initial (onlyExperiment readAcrossPause)).map
        fun s => (s.cells ()).shared.status) = some (some .complete) ∧
    ¬ EveryStep (sampleServer oneRunGrid) (OnCell () ReadHarmless) .initial
      (onlyExperiment readAcrossPause) := by
  decide +kernel

end RagParamsFinder
