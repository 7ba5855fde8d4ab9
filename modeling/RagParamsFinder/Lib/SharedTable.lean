/-
  A table that several writers share.

  Each writer has rows of its own, a value under a key, and puts them into the table one by
  one; rows may be dropped at any time. A history is any interleaving of the two.

  Proved:
  * `owned_of_history`: whatever the table holds is a row of some writer.
  * `kept_of_history`, `held_of_put`: when no two writers use a key, a row that was put stays
    until it is dropped itself.
  * `scope_iff`: the rows that carry the mark of a writer are then that writer's, and all of
    them if all are held.
-/
import RagParamsFinder.Lib.BatchWrites
import RagParamsFinder.Lib.StepMachine

namespace SharedTable

open BatchWrites StepMachine

universe u v w

variable {ω : Type u} {κ : Type v} {ν : Type w}

/-- A writer puts one of its rows, or some rows are dropped. -/
inductive Action (ω : Type u) (κ : Type v) (ν : Type w) where
  | put (writer : ω) (i : Nat)
  | drop (gone : κ → ν → Bool)

def dropRows (gone : κ → ν → Bool) (s : Cells κ ν) : Cells κ ν :=
  fun k => (s k).filter fun v => !gone k v

theorem dropRows_eq_some_iff {gone : κ → ν → Bool} {s : Cells κ ν} {k : κ} {v : ν} :
    dropRows gone s k = some v ↔ s k = some v ∧ gone k v = false := by
  rw [dropRows, Option.filter_eq_some_iff, Bool.not_eq_true']

/-- The rows that no writer shares: a key belongs to one writer, and has one value. -/
def Separate (rows : ω → List (κ × ν)) : Prop :=
  ∀ w w' k v v', (k, v) ∈ rows w → (k, v') ∈ rows w' → w = w' ∧ v = v'

/-- Every row of the table is a writer's. -/
def Owned (rows : ω → List (κ × ν)) (s : Cells κ ν) : Prop :=
  ∀ k v, s k = some v → ∃ w, (k, v) ∈ rows w

/-- All rows of a writer are in the table. -/
def Held (rows : ω → List (κ × ν)) (w : ω) (s : Cells κ ν) : Prop :=
  ∀ row ∈ rows w, s row.1 = some row.2

/-- The action does not drop the row. -/
def Action.Spares (row : κ × ν) : Action ω κ ν → Prop
  | .put .. => True
  | .drop gone => gone row.1 row.2 = false

theorem owned_empty (rows : ω → List (κ × ν)) : Owned rows (fun _ => none) := nofun

theorem Owned.dropRows {rows : ω → List (κ × ν)} {s : Cells κ ν} (h : Owned rows s)
    (gone : κ → ν → Bool) : Owned rows (dropRows gone s) :=
  fun k v hk => h k v (dropRows_eq_some_iff.mp hk).1

section History

variable [DecidableEq κ] (rows : ω → List (κ × ν))

def step (s : Cells κ ν) : Action ω κ ν → Option (Cells κ ν)
  | .put w i => (rows w)[i]?.map (write s)
  | .drop gone => some (dropRows gone s)

variable {rows}

theorem step_put {s t : Cells κ ν} {w : ω} {i : Nat} (h : step rows s (.put w i) = some t) :
    ∃ row ∈ rows w, t = write s row := by
  obtain ⟨row, hrow, rfl⟩ := Option.map_eq_some_iff.mp h
  exact ⟨row, List.mem_of_getElem? hrow, rfl⟩

theorem write_eq_some_iff {s : Cells κ ν} {row : κ × ν} {k : κ} {v : ν} :
    write s row k = some v ↔ row = (k, v) ∨ k ≠ row.1 ∧ s k = some v := by
  rw [write]
  by_cases h : k = row.1
  · subst h
    rw [Function.update_self, Option.some.injEq]
    constructor
    · rintro rfl
      exact Or.inl rfl
    · rintro (heq | ⟨hne, -⟩)
      · exact congrArg Prod.snd heq
      · exact absurd rfl hne
  · rw [Function.update_of_ne h]
    constructor
    · intro hs
      exact Or.inr ⟨h, hs⟩
    · rintro (rfl | ⟨-, hs⟩)
      · exact absurd rfl h
      · exact hs

theorem Owned.write {s : Cells κ ν} (h : Owned rows s) {w : ω} {row : κ × ν}
    (hrow : row ∈ rows w) : Owned rows (write s row) := by
  intro k v hk
  rcases write_eq_some_iff.mp hk with rfl | ⟨-, hs⟩
  · exact ⟨w, hrow⟩
  · exact h k v hs

theorem owned_step {s t : Cells κ ν} {a : Action ω κ ν} (h : Owned rows s)
    (hstep : step rows s a = some t) : Owned rows t := by
  cases a with
  | put w i =>
      obtain ⟨row, hrow, rfl⟩ := step_put hstep
      exact h.write hrow
  | drop gone =>
      cases hstep
      exact h.dropRows gone

/-- Whatever the table holds after a history is a row of some writer. -/
theorem owned_of_history {s t : Cells κ ν} {as : List (Action ω κ ν)} (h : Owned rows s)
    (hrun : exec (step rows) s as = some t) : Owned rows t :=
  inv_of_exec (fun _ _ _ => owned_step) h hrun

/-- An action keeps a writer's row that it spares. -/
theorem kept_step (hsep : Separate rows) {w : ω} {row : κ × ν} (hrow : row ∈ rows w)
    {s t : Cells κ ν} {a : Action ω κ ν} (hs : s row.1 = some row.2) (hspares : a.Spares row)
    (hstep : step rows s a = some t) : t row.1 = some row.2 := by
  cases a with
  | put w' i =>
      obtain ⟨row', hrow', rfl⟩ := step_put hstep
      refine write_eq_some_iff.mpr ?_
      by_cases hk : row.1 = row'.1
      · obtain ⟨-, hv⟩ := hsep w' w row'.1 row'.2 row.2 hrow' (hk ▸ hrow)
        exact Or.inl (Prod.ext hk.symm hv)
      · exact Or.inr ⟨hk, hs⟩
  | drop gone =>
      cases hstep
      exact dropRows_eq_some_iff.mpr ⟨hs, hspares⟩

/-- A row stays through every history that spares it. -/
theorem kept_of_history (hsep : Separate rows) {w : ω} {row : κ × ν} (hrow : row ∈ rows w)
    {as : List (Action ω κ ν)} (hspares : ∀ a ∈ as, a.Spares row) {s t : Cells κ ν}
    (hs : s row.1 = some row.2) (hrun : exec (step rows) s as = some t) :
    t row.1 = some row.2 := by
  induction as generalizing s with
  | nil => exact Option.some.inj hrun ▸ hs
  | cons a as ih =>
      obtain ⟨r, hr, hrest⟩ := Option.bind_eq_some_iff.mp hrun
      obtain ⟨ha, has⟩ := List.forall_mem_cons.mp hspares
      exact ih has (kept_step hsep hrow hs ha hr) hrest

/-- A row that was put, and never dropped, is in the table. -/
theorem held_of_put (hsep : Separate rows) {w : ω} {i : Nat} {row : κ × ν}
    (hi : (rows w)[i]? = some row) {as : List (Action ω κ ν)} (hput : .put w i ∈ as)
    (hspares : ∀ a ∈ as, a.Spares row) {s t : Cells κ ν}
    (hrun : exec (step rows) s as = some t) : t row.1 = some row.2 := by
  have hrow := List.mem_of_getElem? hi
  induction as generalizing s with
  | nil => cases hput
  | cons a as ih =>
      obtain ⟨r, hr, hrest⟩ := Option.bind_eq_some_iff.mp hrun
      obtain ⟨-, has⟩ := List.forall_mem_cons.mp hspares
      rcases List.mem_cons.mp hput with rfl | hput
      · have hhere : r row.1 = some row.2 := by
          rw [step, hi] at hr
          cases hr
          exact write_eq_some_iff.mpr (Or.inl rfl)
        exact kept_of_history hsep hrow has hhere hrest
      · exact ih hput has hrest

theorem exec_append {s : Cells κ ν} {as bs : List (Action ω κ ν)} :
    exec (step rows) s (as ++ bs) =
      (exec (step rows) s as).bind fun t => exec (step rows) t bs := by
  induction as generalizing s with
  | nil => rfl
  | cons a as ih =>
      rw [List.cons_append, exec, exec, Option.bind_assoc]
      exact congrArg _ (funext fun t => ih)

end History

/-- The rows of the table that carry a writer's mark are the writer's rows. -/
theorem scope_iff {rows : ω → List (κ × ν)} {mark : ω → κ → ν → Prop}
    (hmark : ∀ w w' k v, (k, v) ∈ rows w' → (mark w k v ↔ w' = w)) {s : Cells κ ν} {w : ω}
    (hown : Owned rows s) (hheld : Held rows w s) (k : κ) (v : ν) :
    s k = some v ∧ mark w k v ↔ (k, v) ∈ rows w := by
  constructor
  · rintro ⟨hs, hm⟩
    obtain ⟨w', hrow⟩ := hown k v hs
    exact (hmark w w' k v hrow).mp hm ▸ hrow
  · intro hrow
    exact ⟨hheld (k, v) hrow, (hmark w w k v hrow).mpr rfl⟩

end SharedTable
