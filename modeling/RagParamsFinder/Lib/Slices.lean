/-
  A list cut into windows: one starts at every multiple of `step` below its length and holds
  the next `size` entries, as `xs[i : i + size] for i in range(0, len(xs), step)` does.

  Proved: `getElem?_windows`: which windows there are. `flatten_windows`: windows as long as the
  step make up the list, and none of them is empty (`ne_nil_of_mem_windows`). `rebuild_windows`:
  longer ones do without their overlaps.
-/
import Mathlib.Data.List.Basic

namespace Slices

universe u

variable {α : Type u} (xs : List α) (step size : Nat)

/-- The `k`-th window. -/
def windowAt (k : Nat) : List α := (xs.drop (k * step)).take size

/-- A window starts at every multiple of the step below the length. -/
def windows : List (List α) :=
  (List.range ((xs.length + step - 1) / step)).map (windowAt xs step size)

theorem length_windowAt (k : Nat) :
    (windowAt xs step size k).length = min size (xs.length - k * step) := by
  rw [windowAt, List.length_take, List.length_drop]

variable {step} in
theorem lt_windowCount_iff (hstep : 0 < step) {n k : Nat} :
    k < (n + step - 1) / step ↔ k * step < n := by
  have hdiv : k + 1 ≤ (n + step - 1) / step ↔ (k + 1) * step ≤ n + step - 1 :=
    Nat.le_div_iff_mul_le hstep
  rw [Nat.succ_mul] at hdiv
  omega

variable {step} in
theorem getElem?_windows (hstep : 0 < step) {k : Nat} {c : List α} :
    (windows xs step size)[k]? = some c ↔
      k * step < xs.length ∧ windowAt xs step size k = c := by
  rw [windows, List.getElem?_map, Option.map_eq_some_iff]
  constructor
  · rintro ⟨i, hi, hc⟩
    obtain ⟨hlt, rfl⟩ := List.getElem?_eq_some_iff.mp hi
    rw [List.length_range] at hlt
    rw [List.getElem_range] at hc
    exact ⟨(lt_windowCount_iff hstep).mp hlt, hc⟩
  · rintro ⟨hlt, hc⟩
    exact ⟨k, List.getElem?_range ((lt_windowCount_iff hstep).mpr hlt), hc⟩

/-- Windows without overlaps make up the list. -/
theorem flatten_windowAt (n : Nat) :
    ((List.range n).map (windowAt xs step step)).flatten = xs.take (n * step) := by
  induction n with
  | zero => simp
  | succ n ih =>
      rw [List.range_succ, List.map_append, List.flatten_append, ih, Nat.succ_mul, List.take_add,
        List.map_singleton, List.flatten_singleton, windowAt]

variable {step} in
theorem flatten_windows (hstep : 0 < step) : (windows xs step step).flatten = xs := by
  have hend : ¬(xs.length + step - 1) / step * step < xs.length := fun h =>
    Nat.lt_irrefl _ ((lt_windowCount_iff hstep).mpr h)
  rw [windows, flatten_windowAt]
  exact List.take_of_length_le (by omega)

variable {step size} in
theorem ne_nil_of_mem_windows (hstep : 0 < step) (hsize : 0 < size) {c : List α}
    (h : c ∈ windows xs step size) : c ≠ [] := by
  obtain ⟨k, hk⟩ := List.mem_iff_getElem?.mp h
  obtain ⟨hlt, rfl⟩ := (getElem?_windows xs size hstep).mp hk
  have hlen := length_windowAt xs step size k
  intro hnil
  rw [hnil, List.length_nil] at hlen
  omega

/-- What a window has after its overlap is the step that follows the window before. -/
theorem drop_windowAt_succ {overlap : Nat} (h : step + overlap = size) (k : Nat) :
    (windowAt xs step size (k + 1)).drop overlap = windowAt (xs.drop size) step step k := by
  have hsize : size - overlap = step := by omega
  have hstart : (k + 1) * step + overlap = size + k * step := by
    rw [Nat.succ_mul]
    omega
  rw [windowAt, windowAt, List.drop_take, List.drop_drop, List.drop_drop, hsize, hstart]

/-- The chunks without their overlaps, put together. -/
def rebuild (overlap : Nat) : List (List α) → List α
  | [] => []
  | c :: cs => c ++ (cs.map (List.drop overlap)).flatten

variable {step size} in
/-- The windows without their overlaps are the list. -/
theorem rebuild_windows (hstep : 0 < step) {overlap : Nat} (h : step + overlap = size) :
    rebuild overlap (windows xs step size) = xs := by
  rw [windows]
  cases hn : (xs.length + step - 1) / step with
  | zero =>
      have hnil : ¬0 * step < xs.length := fun hlt =>
        absurd ((lt_windowCount_iff hstep).mpr hlt) (by omega)
      have hxs : xs = [] := List.eq_nil_of_length_eq_zero (by omega)
      rw [hxs]
      rfl
  | succ n =>
      have hall : ¬(n + 1) * step < xs.length := fun hlt =>
        absurd ((lt_windowCount_iff hstep).mpr hlt) (by omega)
      rw [Nat.succ_mul] at hall
      have hrest : ((List.range n).map Nat.succ).map (windowAt xs step size) =
          (List.range n).map fun k => windowAt xs step size (k + 1) := List.map_map ..
      rw [List.range_succ_eq_map, List.map_cons, hrest, rebuild, List.map_map]
      have hdrop : (List.drop overlap ∘ fun k => windowAt xs step size (k + 1)) =
          windowAt (xs.drop size) step step := funext (drop_windowAt_succ xs step size h)
      rw [hdrop, flatten_windowAt, windowAt, Nat.zero_mul, List.drop_zero, ← List.take_add]
      exact List.take_of_length_le (by omega)

end Slices
