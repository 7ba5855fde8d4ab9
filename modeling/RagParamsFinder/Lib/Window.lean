/-
  A log of timed entries seen through a sliding window.

  `recent` are the entries that are at most `width` old, and `purge` drops the old ones from
  the front of a queue. Proved: on a queue in order of time a purge keeps the recent entries
  (`purge_eq_recent`), and what is recent later is among what is recent now
  (`recent_recent`).
-/
import Mathlib.Algebra.Order.Group.Defs
import Mathlib.Algebra.Order.Sub.Basic
import RagParamsFinder.Lib.Ranking

namespace SlidingWindow

universe u v w

variable {α : Type u} {β : Type v} {T : Type w} [LinearOrder T] {time : α → T}

/-! ## Queues in order of time -/

/-- In order of time, no entry later than `now`. -/
structure InOrder (time : α → T) (now : T) (queue : List α) : Prop where
  sorted : queue.Pairwise fun a b => time a ≤ time b
  past : ∀ e ∈ queue, time e ≤ now

theorem InOrder.later {now later : T} {queue : List α} (h : InOrder time now queue)
    (hle : now ≤ later) : InOrder time later queue :=
  ⟨h.sorted, fun e he => (h.past e he).trans hle⟩

theorem InOrder.filter {now : T} {queue : List α} (h : InOrder time now queue)
    (p : α → Bool) : InOrder time now (queue.filter p) :=
  ⟨h.sorted.filter _, fun e he => h.past e (List.mem_filter.mp he).1⟩

theorem InOrder.append {now : T} {queue : List α} (h : InOrder time now queue) {e : α}
    (he : time e = now) : InOrder time now (queue ++ [e]) := by
  refine ⟨List.pairwise_append.mpr ⟨h.sorted, List.pairwise_singleton _ e, ?_⟩, ?_⟩
  · intro a ha b hb
    rw [List.mem_singleton.mp hb, he]
    exact h.past a ha
  · intro a ha
    rcases List.mem_append.mp ha with ha | ha
    · exact h.past a ha
    · exact (List.mem_singleton.mp ha ▸ he).le

/-! ## The window -/

section Window

variable [AddCommGroup T]

/-- The entries that are at most `width` old. -/
def recent (time : α → T) (width now : T) (log : List α) : List α :=
  log.filter fun e => now - time e ≤ width

/-- Drop the entries that are older than `width` from the front. -/
def purge (time : α → T) (width now : T) (queue : List α) : List α :=
  queue.dropWhile fun e => width < now - time e

variable {width : T}

theorem recent_filter (now : T) (p : α → Bool) (log : List α) :
    recent time width now (log.filter p) = (recent time width now log).filter p := by
  simp only [recent, List.filter_filter, Bool.and_comm]

theorem recent_map (f : β → α) (now : T) (log : List β) :
    recent time width now (log.map f) = (recent (fun b => time (f b)) width now log).map f :=
  List.filter_map

/-- A new entry is in the window. -/
theorem recent_append_now {now : T} (hw : 0 ≤ width) (log : List α) {e : α}
    (he : time e = now) :
    recent time width now (log ++ [e]) = recent time width now log ++ [e] := by
  unfold recent
  rw [List.filter_append]
  congr 1
  exact List.filter_cons_of_pos (by simpa [he] using hw)

variable [IsOrderedAddMonoid T]

/-- What is recent later is recent now. -/
theorem recent_recent {now later : T} (h : now ≤ later) (log : List α) :
    recent time width later (recent time width now log) = recent time width later log := by
  rw [recent, recent, List.filter_filter]
  refine List.filter_congr fun e _ => ?_
  rw [Bool.and_eq_left_iff_imp, decide_eq_true_iff, decide_eq_true_iff]
  exact (sub_le_sub_right h _).trans

theorem recent_sublist {now later : T} (h : now ≤ later) (log : List α) :
    (recent time width later log).Sublist (recent time width now log) := by
  rw [← recent_recent h]
  exact List.filter_sublist

/-- A purge keeps the recent entries of a queue in order. -/
theorem purge_eq_recent {now : T} {queue : List α} (h : InOrder time now queue) :
    purge time width now queue = recent time width now queue := by
  have hlower : ∀ a b, time a ≤ time b →
      decide (width < now - time b) = true → decide (width < now - time a) = true := by
    simp only [decide_eq_true_iff]
    exact fun a b hab hb => hb.trans_le (sub_le_sub_left hab now)
  rw [purge, (Ranking.takeWhile_eq_filter time h.sorted hlower).2, recent]
  simp only [← decide_not, not_lt]

theorem InOrder.purge {now : T} {queue : List α} (h : InOrder time now queue) :
    InOrder time now (purge time width now queue) := by
  rw [purge_eq_recent h]
  exact h.filter _

theorem recent_purge {now : T} {queue : List α} (h : InOrder time now queue) :
    recent time width now (SlidingWindow.purge time width now queue) =
      recent time width now queue := by
  rw [purge_eq_recent h, recent_recent le_rfl]

end Window

end SlidingWindow
