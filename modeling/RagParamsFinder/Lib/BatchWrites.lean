/-
  Writes to the cells of a store, made in turns.

  A write puts one value into one cell. A turn makes some writes and may end the run with an
  error: the writes of the turns before it, and its own, have been made by then.

  * `forall_writeAll_iff`: all the wanted values are in their cells exactly when no two of them
    claim one cell and each was written, or was there before.
  * `exists_writeAll_iff`: a value of a kind is in the store exactly when something was written
    or one was there, if what is written includes a value of the kind.
  * `run_fst`, `run_ok_iff`: what a run leaves, and when it ends without an error. `run_abs`: a
    run on another store that holds the same.
  * `writesMade_eq_nil_iff`: when it has written nothing.
-/
import Mathlib.Data.List.Basic
import Mathlib.Logic.Function.Basic

namespace BatchWrites

universe u v w

/-- The value of each cell. -/
abbrev Cells (γ : Type u) (ν : Type v) := γ → Option ν

variable {γ : Type u} {ν : Type v} {ε : Type w}

/-- No two writes put different values into one cell. -/
def Agree (ws : List (γ × ν)) : Prop := ∀ w ∈ ws, ∀ w' ∈ ws, w.1 = w'.1 → w.2 = w'.2

/-- Some cell has a value of the kind. -/
def Cells.Has (P : γ × ν → Prop) (s : Cells γ ν) : Prop := ∃ c v, s c = some v ∧ P (c, v)

/-! ## Writes -/

section Writes

variable [DecidableEq γ]

def write (s : Cells γ ν) (w : γ × ν) : Cells γ ν := Function.update s w.1 (some w.2)

def writeAll (s : Cells γ ν) (ws : List (γ × ν)) : Cells γ ν := ws.foldl write s

theorem writeAll_append (s : Cells γ ν) (ws ws' : List (γ × ν)) :
    writeAll s (ws ++ ws') = writeAll (writeAll s ws) ws' := List.foldl_append

/-- A cell keeps its value, or has one that was written to it. -/
theorem writeAll_cases (s : Cells γ ν) (ws : List (γ × ν)) (c : γ) :
    (∀ v, (c, v) ∉ ws) ∧ writeAll s ws c = s c ∨
      ∃ v, (c, v) ∈ ws ∧ writeAll s ws c = some v := by
  induction ws generalizing s with
  | nil => exact Or.inl ⟨fun _ => List.not_mem_nil, rfl⟩
  | cons w ws ih =>
      change _ ∧ writeAll (write s w) ws c = s c ∨ ∃ v, _ ∧ writeAll (write s w) ws c = some v
      rcases ih (write s w) with ⟨hnone, hkeep⟩ | ⟨v, hv, hlast⟩
      · by_cases hc : c = w.1
        · subst hc
          refine Or.inr ⟨w.2, List.mem_cons_self .., ?_⟩
          rw [hkeep, write, Function.update_self]
        · refine Or.inl ⟨fun v hv => ?_, ?_⟩
          · rcases List.mem_cons.mp hv with rfl | hv
            · exact hc rfl
            · exact hnone v hv
          · rw [hkeep, write, Function.update_of_ne hc]
      · exact Or.inr ⟨v, List.mem_cons_of_mem _ hv, hlast⟩

/-- The wanted values are all there exactly when none is overwritten by another, and each was
    written or was there. -/
theorem forall_writeAll_iff {wanted ws : List (γ × ν)} (hsub : ∀ w ∈ ws, w ∈ wanted)
    (s : Cells γ ν) :
    (∀ w ∈ wanted, writeAll s ws w.1 = some w.2) ↔
      Agree wanted ∧ ∀ w ∈ wanted, w ∈ ws ∨ s w.1 = some w.2 := by
  constructor
  · intro h
    refine ⟨fun w hw w' hw' hc => ?_, fun w hw => ?_⟩
    · exact Option.some.inj ((h w hw).symm.trans (hc ▸ h w' hw'))
    · rcases writeAll_cases s ws w.1 with ⟨-, hkeep⟩ | ⟨v, hv, hlast⟩
      · exact Or.inr (hkeep ▸ h w hw)
      · obtain rfl := Option.some.inj (hlast.symm.trans (h w hw))
        exact Or.inl hv
  · rintro ⟨hagree, hmade⟩ w hw
    rcases writeAll_cases s ws w.1 with ⟨hnone, hkeep⟩ | ⟨v, hv, hlast⟩
    · rw [hkeep]
      exact (hmade w hw).resolve_left (hnone w.2)
    · have hval : v = w.2 := hagree _ (hsub _ hv) w hw rfl
      rw [hlast, hval]

/-- After writes that agree and include a value of the kind, if there are any, the store has
    one exactly when there are some or it had one. -/
theorem exists_writeAll_iff {P : γ × ν → Prop} {ws : List (γ × ν)} (s : Cells γ ν)
    (hP : ws ≠ [] → ∃ w ∈ ws, P w) (hcell : ∀ w ∈ ws, ∀ w' ∈ ws, w.1 = w'.1 → P w → P w') :
    (writeAll s ws).Has P ↔ ws ≠ [] ∨ s.Has P := by
  constructor
  · rintro ⟨c, v, hv, hPv⟩
    rcases writeAll_cases s ws c with ⟨-, hkeep⟩ | ⟨v', hv', -⟩
    · exact Or.inr ⟨c, v, hkeep ▸ hv, hPv⟩
    · exact Or.inl (List.ne_nil_of_mem hv')
  · intro h
    by_cases hnil : ws = []
    · subst hnil
      exact h.resolve_left fun hne => hne rfl
    · obtain ⟨w, hw, hPw⟩ := hP hnil
      rcases writeAll_cases s ws w.1 with ⟨hnone, -⟩ | ⟨v, hv, hlast⟩
      · exact absurd hw (hnone w.2)
      · exact ⟨w.1, v, hlast, hcell w hw _ hv rfl hPw⟩

end Writes

/-! ## Turns -/

/-- The writes that a turn makes, and the error that it ends the run with, if any. -/
structure Turn (γ : Type u) (ν : Type v) (ε : Type w) where
  writes : List (γ × ν)
  stop : Option ε

/-- What is written up to the first turn that ends the run. -/
def writesMade : List (Turn γ ν ε) → List (γ × ν)
  | [] => []
  | t :: ts => t.writes ++ if t.stop.isNone then writesMade ts else []

/-- No turn ends the run. -/
def Completes (ts : List (Turn γ ν ε)) : Prop := ∀ t ∈ ts, t.stop = none

/-- The turns one after the other: the store, how many did not end the run, and the result. -/
def run [DecidableEq γ] : Cells γ ν → List (Turn γ ν ε) → Cells γ ν × Nat × Except ε Unit
  | s, [] => (s, 0, .ok ())
  | s, t :: ts =>
      match t.stop with
      | some e => (writeAll s t.writes, 0, .error e)
      | none =>
          let r := run (writeAll s t.writes) ts
          (r.1, r.2.1 + 1, r.2.2)

section Run

variable [DecidableEq γ]

theorem run_stop (s : Cells γ ν) {t : Turn γ ν ε} {e : ε} (h : t.stop = some e)
    (ts : List (Turn γ ν ε)) : run s (t :: ts) = (writeAll s t.writes, 0, .error e) := by
  rw [run, h]

theorem run_go (s : Cells γ ν) {t : Turn γ ν ε} (h : t.stop = none) (ts : List (Turn γ ν ε)) :
    run s (t :: ts) = ((run (writeAll s t.writes) ts).1, (run (writeAll s t.writes) ts).2.1 + 1,
      (run (writeAll s t.writes) ts).2.2) := by
  rw [run, h]

theorem run_fst (s : Cells γ ν) (ts : List (Turn γ ν ε)) :
    (run s ts).1 = writeAll s (writesMade ts) := by
  induction ts generalizing s with
  | nil => rfl
  | cons t ts ih =>
      cases h : t.stop with
      | some e => simp [run_stop s h, writesMade, h]
      | none => simp [run_go s h, writesMade, h, ih, writeAll_append]

/-- A run seen through `abs`, when each turn's writes are: the states on the way are in `Inv`. -/
theorem run_abs {γ' : Type*} {ν' : Type*} [DecidableEq γ'] {abs : Cells γ ν → Cells γ' ν'}
    {Inv : Cells γ ν → Prop} {ts : List (Turn γ ν ε)} {us : List (Turn γ' ν' ε)}
    (hturns : List.Forall₂ (fun t u => u.stop = t.stop ∧ ∀ s, Inv s →
      Inv (writeAll s t.writes) ∧ writeAll (abs s) u.writes = abs (writeAll s t.writes)) ts us)
    {s : Cells γ ν} (hs : Inv s) : run (abs s) us = (abs (run s ts).1, (run s ts).2) := by
  induction hturns generalizing s with
  | nil => rfl
  | @cons t u ts us htu _ ih =>
      obtain ⟨hstop, hwrites⟩ := htu
      obtain ⟨hnext, habs⟩ := hwrites s hs
      cases h : t.stop with
      | some e => rw [run_stop s h, run_stop (abs s) (hstop.trans h), habs]
      | none => rw [run_go s h, run_go (abs s) (hstop.trans h), habs, ih hnext]

theorem run_ok_iff (s : Cells γ ν) (ts : List (Turn γ ν ε)) :
    (run s ts).2.2 = .ok () ↔ Completes ts := by
  induction ts generalizing s with
  | nil => exact iff_of_true rfl fun t ht => absurd ht List.not_mem_nil
  | cons t ts ih =>
      cases h : t.stop with
      | some e => simp [run_stop s h, Completes, h]
      | none => simp [run_go s h, Completes, h, ih]

theorem run_count_pos_iff (s : Cells γ ν) (ts : List (Turn γ ν ε)) :
    0 < (run s ts).2.1 ↔ ∃ t, ts[0]? = some t ∧ t.stop = none := by
  cases ts with
  | nil => simp [run]
  | cons t ts =>
      cases h : t.stop with
      | some e => simp [run_stop s h, h]
      | none => simp [run_go s h, h]

end Run

theorem writesMade_of_completes {ts : List (Turn γ ν ε)} (h : Completes ts) :
    writesMade ts = ts.flatMap Turn.writes := by
  induction ts with
  | nil => rfl
  | cons t ts ih =>
      obtain ⟨ht, hts⟩ := List.forall_mem_cons.mp h
      simp [writesMade, ht, ih hts]

/-- What is written was written by a turn, together with the other writes of the turn. -/
theorem mem_writesMade {ts : List (Turn γ ν ε)} {w : γ × ν} (h : w ∈ writesMade ts) :
    ∃ t ∈ ts, w ∈ t.writes ∧ ∀ w' ∈ t.writes, w' ∈ writesMade ts := by
  induction ts with
  | nil => cases h
  | cons t ts ih =>
      rcases List.mem_append.mp h with h | h
      · exact ⟨t, List.mem_cons_self .., h, fun w' hw' => List.mem_append_left _ hw'⟩
      · split at h
        · rename_i hgo
          obtain ⟨u, hu, hw, hall⟩ := ih h
          refine ⟨u, List.mem_cons_of_mem _ hu, hw, fun w' hw' => List.mem_append_right _ ?_⟩
          rw [if_pos hgo]
          exact hall w' hw'
        · cases h

/-- Nothing is written exactly when no turn that is reached writes anything. -/
theorem writesMade_eq_nil_iff (ts : List (Turn γ ν ε)) :
    writesMade ts = [] ↔ ∀ (i : Nat) (t : Turn γ ν ε), ts[i]? = some t →
      (∀ j < i, ∀ u : Turn γ ν ε, ts[j]? = some u → u.stop = none) → t.writes = [] := by
  induction ts with
  | nil => simp [writesMade]
  | cons t ts ih =>
      rw [writesMade, List.append_eq_nil_iff]
      constructor
      · rintro ⟨hhead, htail⟩ i u hu hreach
        cases i with
        | zero =>
            obtain rfl := Option.some.inj hu
            exact hhead
        | succ i =>
            rw [hreach 0 (Nat.succ_pos i) t rfl, Option.isNone_none, if_pos rfl] at htail
            exact ih.mp htail i u hu fun j hj v hv => hreach (j + 1) (Nat.succ_lt_succ hj) v hv
      · intro h
        refine ⟨h 0 t rfl fun j hj => absurd hj (Nat.not_lt_zero j), ?_⟩
        split
        · rename_i hgo
          refine ih.mpr fun i u hu hreach => h (i + 1) u hu fun j hj v hv => ?_
          cases j with
          | zero =>
              obtain rfl := Option.some.inj hv
              exact Option.isNone_iff_eq_none.mp hgo
          | succ j => exact hreach j (Nat.lt_of_succ_lt_succ hj) v hv
        · rfl

end BatchWrites
