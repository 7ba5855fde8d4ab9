/-
  Runs of a labelled step function, and the induction rules used on them.

  A machine is a function `step : σ → α → Option σ`; `none` means that the label is not
  enabled. `exec` runs a list of labels. `EveryStep` states a property of each step a run
  takes, so it serves both as a condition on a run and as a conclusion about it.

  Proved:
  * `everyStep_of_inv`: an invariant that each step keeps under a condition, and that with
    the condition gives the conclusion, gives it for every step of every run that meets
    the condition throughout.
  * `everyStep_of_kept`: the same for an invariant that every step keeps.
  * `inv_of_exec`: an invariant that every step keeps holds where a run ends.
  * `decidableEveryStep`: a decidable property of the steps can be evaluated along a run.

  The second half indexes the machine: a family of cells, each stepping on its own label,
  under a common scheduler state that may forbid a step. `everyStep_cell` carries a rule
  for one cell over to the family.
-/
import Mathlib.Logic.Function.Basic

namespace StepMachine

universe u v w x

section Machine

variable {σ : Type u} {α : Type v} (step : σ → α → Option σ)

/-- Run a list of labels; `none` as soon as one is not enabled. -/
def exec : σ → List α → Option σ
  | s, [] => some s
  | s, a :: as => (step s a).bind fun t => exec t as

/-- Every step that the run of `as` from `s` takes is in `Q` (source, label, target). -/
def EveryStep (Q : σ → α → σ → Prop) : σ → List α → Prop
  | _, [] => True
  | s, a :: as => ∀ t, step s a = some t → Q s a t ∧ EveryStep Q t as

variable {step}

theorem everyStep_cons {Q : σ → α → σ → Prop} {s t : σ} {a : α} {as : List α}
    (h : step s a = some t) :
    EveryStep step Q s (a :: as) ↔ Q s a t ∧ EveryStep step Q t as := by
  constructor
  · intro hq; exact hq t h
  · intro hq t' ht'
    rw [h] at ht'
    cases ht'
    exact hq

/-- A step that a run comes to is in `Q`. -/
theorem everyStep_at {Q : σ → α → σ → Prop} {s t u : σ} {as bs : List α} {a : α}
    (hq : EveryStep step Q s (as ++ a :: bs)) (hrun : exec step s as = some t)
    (h : step t a = some u) : Q t a u := by
  induction as generalizing s with
  | nil =>
      cases hrun
      exact (hq u h).1
  | cons b as ih =>
      obtain ⟨r, hr, hrest⟩ := Option.bind_eq_some_iff.mp hrun
      exact ih (hq r hr).2 hrest

/-- The step rule: `Inv` is kept by every step in `G`, and such a step is in `Q`. -/
theorem everyStep_of_inv {Inv : σ → Prop} {G Q : σ → α → σ → Prop}
    (hstep : ∀ s a t, Inv s → step s a = some t → G s a t → Inv t ∧ Q s a t)
    {s : σ} (hs : Inv s) {as : List α} (hG : EveryStep step G s as) :
    EveryStep step Q s as := by
  induction as generalizing s with
  | nil => trivial
  | cons a as ih =>
      intro t ht
      obtain ⟨hg, hrest⟩ := hG t ht
      obtain ⟨hi, hq⟩ := hstep s a t hs ht hg
      exact ⟨hq, ih hi hrest⟩

/-- What a step's property gives for that step, along a run. -/
theorem everyStep_mono {Q R : σ → α → σ → Prop}
    (h : ∀ s a t, step s a = some t → Q s a t → R s a t) {s : σ} {as : List α}
    (hQ : EveryStep step Q s as) : EveryStep step R s as := by
  have hstep : ∀ s a t, True → step s a = some t → Q s a t → True ∧ R s a t :=
    fun s a t _ hst hq => ⟨trivial, h s a t hst hq⟩
  exact everyStep_of_inv hstep trivial hQ

/-- The step rule without a condition on the run. -/
theorem everyStep_of_kept {Inv : σ → Prop} {Q : σ → α → σ → Prop}
    (hstep : ∀ s a t, Inv s → step s a = some t → Inv t ∧ Q s a t) {s : σ} (hs : Inv s)
    (as : List α) : EveryStep step Q s as := by
  induction as generalizing s with
  | nil => trivial
  | cons a as ih =>
      intro t ht
      obtain ⟨hi, hq⟩ := hstep s a t hs ht
      exact ⟨hq, ih hi⟩

/-- What every step keeps holds where a run ends. -/
theorem inv_of_exec {Inv : σ → Prop} (hstep : ∀ s a t, Inv s → step s a = some t → Inv t)
    {s t : σ} (hs : Inv s) {as : List α} (hrun : exec step s as = some t) : Inv t := by
  induction as generalizing s with
  | nil => exact Option.some.inj hrun ▸ hs
  | cons a as ih =>
      obtain ⟨r, hr, hrest⟩ := Option.bind_eq_some_iff.mp hrun
      exact ih (hstep s a r hs hr) hrest

instance decidableEveryStep {Q : σ → α → σ → Prop} [∀ s a t, Decidable (Q s a t)] :
    ∀ s as, Decidable (EveryStep step Q s as)
  | _, [] => isTrue trivial
  | s, a :: as =>
      match h : step s a with
      | none => isTrue fun t ht => by rw [h] at ht; cases ht
      | some t =>
          have : Decidable (EveryStep step Q t as) := decidableEveryStep t as
          decidable_of_iff _ (everyStep_cons h).symm

end Machine

/-! ## A family of machines under one scheduler -/

section Family

variable {ι : Type u} [DecidableEq ι] {σ : Type v} {τ : Type w} {α : Type x}

/-- The cells of the family and the state of the scheduler they share. -/
structure Family (ι : Type u) (σ : Type v) (τ : Type w) where
  cells : ι → σ
  sched : τ

/-- The cell named by the label steps; `allow` updates the scheduler or forbids the step. -/
def familyStep (step : ι → σ → α → Option σ) (allow : τ → ι → σ → α → σ → Option τ)
    (s : Family ι σ τ) (l : ι × α) : Option (Family ι σ τ) :=
  (step l.1 (s.cells l.1) l.2).bind fun c =>
    (allow s.sched l.1 (s.cells l.1) l.2 c).map fun t =>
      { cells := Function.update s.cells l.1 c, sched := t }

variable {step : ι → σ → α → Option σ} {allow : τ → ι → σ → α → σ → Option τ}

/-- What a step of the family does to the cells: one of them takes its own step. -/
theorem familyStep_cells {s t : Family ι σ τ} {l : ι × α}
    (h : familyStep step allow s l = some t) :
    ∃ c, step l.1 (s.cells l.1) l.2 = some c ∧ t.cells = Function.update s.cells l.1 c := by
  unfold familyStep at h
  cases hc : step l.1 (s.cells l.1) l.2 with
  | none => rw [hc] at h; cases h
  | some c =>
      rw [hc] at h
      simp only [Option.bind_some, Option.map_eq_some_iff] at h
      obtain ⟨q, _, rfl⟩ := h
      exact ⟨c, rfl, rfl⟩

/-- A condition or a conclusion about the steps of cell `i`, read off the family. -/
def OnCell (i : ι) (Q : σ → α → σ → Prop) (s : Family ι σ τ) (l : ι × α)
    (t : Family ι σ τ) : Prop :=
  l.1 = i → Q (s.cells i) l.2 (t.cells i)

instance {i : ι} {Q : σ → α → σ → Prop} [∀ c a d, Decidable (Q c a d)]
    (s : Family ι σ τ) (l : ι × α) (t : Family ι σ τ) : Decidable (OnCell i Q s l t) :=
  inferInstanceAs (Decidable (l.1 = i → Q (s.cells i) l.2 (t.cells i)))

/-- The step rule of cell `i`, applied to every run of the family. -/
theorem everyStep_cell {i : ι} {Inv : σ → Prop} {G Q : σ → α → σ → Prop}
    (hstep : ∀ c a d, Inv c → step i c a = some d → G c a d → Inv d ∧ Q c a d)
    {s : Family ι σ τ} (hs : Inv (s.cells i)) {ls : List (ι × α)}
    (hG : EveryStep (familyStep step allow) (OnCell i G) s ls) :
    EveryStep (familyStep step allow) (OnCell i Q) s ls := by
  refine @everyStep_of_inv _ _ _ (fun s => Inv (s.cells i)) (OnCell i G) _ ?_ s hs ls hG
  intro s l t hinv ht hg
  obtain ⟨c, hc, hcells⟩ := familyStep_cells ht
  by_cases hl : l.1 = i
  · subst hl
    have htc : t.cells l.1 = c := by rw [hcells, Function.update_self]
    have hgc : G (s.cells l.1) l.2 c := htc ▸ hg rfl
    obtain ⟨hi, hq⟩ := hstep _ _ _ hinv hc hgc
    exact ⟨htc ▸ hi, fun _ => htc ▸ hq⟩
  · refine ⟨?_, fun he => absurd he hl⟩
    rw [hcells, Function.update_of_ne (Ne.symm hl)]
    exact hinv

end Family

end StepMachine
