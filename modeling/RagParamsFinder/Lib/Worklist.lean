/-
  Passes over a work list.

  A log holds the items worked on and how each attempt ended. A pass takes the pending items
  from the front, one for each ending it is given; an item is pending unless an item of its
  key has finished. So an item that was left or that failed is worked on again.

  Proved:
  * `count_finished_le`: no item finishes more often than the list holds it.
  * `done_perm`: on a list without repetitions, once every item has finished, the finished
    attempts are the items, each once.
-/
import Mathlib.Data.List.Count
import Mathlib.Data.List.Induction
import Mathlib.Data.List.Nodup
import Mathlib.Data.List.Perm.Basic

namespace Worklist

universe u v w

variable {α : Type u} {κ : Type v} {ω : Type w} [DecidableEq κ] [DecidableEq ω]
variable (key : α → κ) (finished : ω) (items : List α)

/-- The items of the finished attempts of a log. -/
def done (log : List (α × ω)) : List α := (log.filter (·.2 = finished)).map (·.1)

/-- The items of which no attempt has finished, told apart by key. -/
def pending (log : List (α × ω)) : List α :=
  items.filter fun a => key a ∉ (done finished log).map key

/-- The log entries of one pass. -/
def pass (log : List (α × ω)) (endings : List ω) : List (α × ω) :=
  (pending key finished items log).zip endings

/-- The log of several passes, from an empty one. -/
def passes (rounds : List (List ω)) : List (α × ω) :=
  rounds.foldl (fun log endings => log ++ pass key finished items log endings) []

variable {key finished items}

theorem passes_concat (rounds : List (List ω)) (endings : List ω) :
    passes key finished items (rounds ++ [endings]) =
      passes key finished items rounds ++
        pass key finished items (passes key finished items rounds) endings := by
  rw [passes, List.foldl_append]
  rfl

theorem mem_done {log : List (α × ω)} {a : α} : a ∈ done finished log ↔ (a, finished) ∈ log := by
  simp [done]

/-- Every entry of the log is about an item of the list. -/
theorem fst_mem_of_passes (rounds : List (List ω)) :
    ∀ x ∈ passes key finished items rounds, x.1 ∈ items := by
  induction rounds using List.reverseRecOn with
  | nil => intro x hx; cases hx
  | append_singleton rounds endings ih =>
      intro x hx
      rw [passes_concat, List.mem_append] at hx
      rcases hx with hx | hx
      · exact ih x hx
      · exact (List.mem_filter.mp (List.of_mem_zip hx).1).1

section Count

variable [DecidableEq α]

theorem count_zip_le (as : List α) (endings : List ω) (a : α) (e : ω) :
    (as.zip endings).count (a, e) ≤ as.count a := by
  induction as generalizing endings with
  | nil => simp
  | cons b as ih =>
      cases endings with
      | nil => simp
      | cons e' endings =>
          have hrest := ih endings
          rw [List.zip_cons_cons, List.count_cons, List.count_cons]
          by_cases hb : b = a
          · subst hb
            rw [if_pos (beq_self_eq_true b)]
            split <;> omega
          · rw [if_neg (by simp [hb])]
            omega

/-- A pass does not take up an item that has finished. -/
theorem count_pass_of_done {log : List (α × ω)} {a : α} (h : (a, finished) ∈ log)
    (endings : List ω) (e : ω) : (pass key finished items log endings).count (a, e) = 0 := by
  have hskip : a ∉ pending key finished items log := by
    intro hp
    have hkey := (List.mem_filter.mp hp).2
    rw [decide_eq_true_iff] at hkey
    exact hkey (List.mem_map_of_mem (mem_done.mpr h))
  have hle := count_zip_le (pending key finished items log) endings a e
  rw [List.count_eq_zero_of_not_mem hskip] at hle
  exact Nat.le_zero.mp hle

theorem count_pass_le (log : List (α × ω)) (endings : List ω) (a : α) (e : ω) :
    (pass key finished items log endings).count (a, e) ≤ items.count a :=
  Nat.le_trans (count_zip_le _ endings a e) (List.filter_sublist.count_le a)

/-- No item finishes more often than it is listed. -/
theorem count_finished_le (rounds : List (List ω)) (a : α) :
    (passes key finished items rounds).count (a, finished) ≤ items.count a := by
  induction rounds using List.reverseRecOn with
  | nil => exact Nat.zero_le _
  | append_singleton rounds endings ih =>
      rw [passes_concat, List.count_append]
      by_cases h : (a, finished) ∈ passes key finished items rounds
      · rw [count_pass_of_done h]
        exact ih
      · rw [List.count_eq_zero_of_not_mem h, Nat.zero_add]
        exact count_pass_le _ endings a finished

theorem count_done (log : List (α × ω)) (a : α) :
    (done finished log).count a = log.count (a, finished) := by
  induction log with
  | nil => rfl
  | cons x log ih =>
      obtain ⟨b, e⟩ := x
      unfold done at ih ⊢
      by_cases he : e = finished
      · subst he
        rw [List.filter_cons_of_pos (by simp), List.map_cons, List.count_cons, List.count_cons, ih]
        simp
      · rw [List.filter_cons_of_neg (by simpa using he), ih, List.count_cons,
          if_neg (by simp [he]), Nat.add_zero]

/-- Without repetitions each item finishes once, if it finishes. -/
theorem done_perm (hn : items.Nodup) {rounds : List (List ω)}
    (hall : ∀ a ∈ items, (a, finished) ∈ passes key finished items rounds) :
    (done finished (passes key finished items rounds)).Perm items := by
  rw [List.perm_iff_count]
  intro a
  rw [count_done]
  have hle : (passes key finished items rounds).count (a, finished) ≤ items.count a :=
    count_finished_le rounds a
  by_cases ha : a ∈ items
  · have hpos := List.count_pos_iff.mpr (hall a ha)
    rw [List.count_eq_one_of_mem hn ha] at hle ⊢
    omega
  · rw [List.count_eq_zero_of_not_mem ha] at hle ⊢
    omega

end Count

end Worklist
