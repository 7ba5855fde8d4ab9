/-
  Buckets of equal values: each value once, with how often it occurs, at most `size` of them,
  and none is left out for a smaller one.

  * `sum_count`: the occurrences of some values add up to the entries with one of them.
  * `Largest.perm_iff`, `Largest.sum_eq_iff`: the buckets are all of them, and their counts add up
    to all entries, exactly when there are at most `size` values.
  * `largest_largestBuckets`: the buckets sorted by count and value, and cut.
-/
import Mathlib.Algebra.GroupWithZero.Nat
import Mathlib.Data.Prod.Lex
import RagParamsFinder.Lib.Ranking

namespace Buckets

open Grouping Ranking

universe u

variable {κ : Type u} [DecidableEq κ]

/-- The bucket of every value. -/
def bucketsOf (values : List κ) : List (κ × Nat) :=
  (firsts values).map fun v => (v, values.count v)

structure Largest (size : Nat) (values : List κ) (bs : List (κ × Nat)) : Prop where
  nodup : (bs.map Prod.fst).Nodup
  counted : ∀ b ∈ bs, b.1 ∈ values ∧ b.2 = values.count b.1
  length : bs.length = min size (firsts values).length
  largest : ∀ b ∈ bs, ∀ v ∈ values, v ∉ bs.map Prod.fst → values.count v ≤ b.2

theorem sum_count (values : List κ) {ks : List κ} (hn : ks.Nodup) :
    (ks.map fun k => values.count k).sum = (values.filter (· ∈ ks)).length := by
  rw [← (groups_perm (fun k => k) values hn).length_eq, groups, List.length_flatMap]
  refine congrArg List.sum (List.map_congr_left fun k _ => ?_)
  rw [← List.countP_eq_length_filter, List.count]
  exact List.countP_congr fun v _ => by simp

theorem map_fst_bucketsOf (values : List κ) : (bucketsOf values).map Prod.fst = firsts values := by
  rw [bucketsOf, List.map_map]
  exact List.map_id _

theorem sum_bucketsOf (values : List κ) :
    ((bucketsOf values).map Prod.snd).sum = values.length := by
  have hall : values.filter (· ∈ firsts values) = values :=
    List.filter_eq_self.mpr fun v hv => decide_eq_true (mem_firsts.mpr hv)
  rw [bucketsOf, List.map_map]
  exact (sum_count values (nodup_firsts values)).trans (congrArg List.length hall)

theorem lookup_bucketsOf {values : List κ} {v : κ} (hv : v ∈ values) :
    (bucketsOf values).lookup v = some (values.count v) := by
  rw [List.lookup_eq_some_iff]
  obtain ⟨pre, post, hsplit⟩ := List.append_of_mem (mem_firsts.mpr hv)
  have hfresh : v ∉ pre := by
    have hn := nodup_firsts values
    rw [hsplit, List.nodup_append] at hn
    exact fun hin => hn.2.2 v hin v (List.mem_cons_self ..) rfl
  refine ⟨pre.map fun v => (v, values.count v), post.map fun v => (v, values.count v), ?_, ?_⟩
  · rw [bucketsOf, hsplit, List.map_append, List.map_cons]
  · intro b hb
    obtain ⟨u, hu, rfl⟩ := List.mem_map.mp hb
    simpa using fun heq : v = u => hfresh (heq ▸ hu)

/-- An injective image has the images of the buckets. -/
theorem bucketsOf_map {κ' : Type*} [DecidableEq κ'] {f : κ → κ'} (hf : Function.Injective f)
    (values : List κ) :
    bucketsOf (values.map f) = (bucketsOf values).map fun b => (f b.1, b.2) := by
  have hfirsts : firsts (values.map f) = (firsts values).map f := by
    induction values with
    | nil => rfl
    | cons v values ih =>
        rw [List.map_cons, firsts, ih, firsts, List.map_cons, List.filter_map]
        congr 2
        exact List.filter_congr fun u _ => by simp [hf.eq_iff]
  rw [bucketsOf, hfirsts, bucketsOf, List.map_map, List.map_map]
  exact List.map_congr_left fun v _ => Prod.ext rfl (List.count_map_of_injective values f hf v)

section Largest

variable {size : Nat} {values : List κ} {bs : List (κ × Nat)}

theorem Largest.eq_map (h : Largest size values bs) :
    bs = (bs.map Prod.fst).map fun v => (v, values.count v) := by
  rw [List.map_map]
  refine (List.map_id bs).symm.trans (List.map_congr_left fun b hb => ?_)
  exact Prod.ext rfl (h.counted b hb).2

/-- No value is left out exactly when there are at most `size`. -/
theorem Largest.perm_iff (h : Largest size values bs) :
    bs.Perm (bucketsOf values) ↔ (firsts values).length ≤ size := by
  constructor
  · intro hperm
    have hlen := hperm.length_eq
    rw [h.length, bucketsOf, List.length_map] at hlen
    omega
  · intro hle
    have hsub : bs.map Prod.fst ⊆ firsts values := by
      intro v hv
      obtain ⟨b, hb, rfl⟩ := List.mem_map.mp hv
      exact mem_firsts.mpr (h.counted b hb).1
    have hlen : (firsts values).length ≤ (bs.map Prod.fst).length := by
      rw [List.length_map, h.length, Nat.min_eq_right hle]
    have hkeys := (h.nodup.subperm hsub).perm_of_length_le hlen
    rw [h.eq_map]
    exact hkeys.map _

theorem Largest.length_eq_iff (h : Largest size values bs) :
    bs.length = (firsts values).length ↔ (firsts values).length ≤ size := by
  rw [h.length]
  omega

/-- Only when a value is left out are there entries that no bucket counts. -/
theorem Largest.sum_eq_iff (h : Largest size values bs) :
    (bs.map Prod.snd).sum = values.length ↔ (firsts values).length ≤ size := by
  have hsum : (bs.map Prod.snd).sum = (values.filter (· ∈ bs.map Prod.fst)).length := by
    rw [← sum_count values h.nodup, List.map_map]
    exact congrArg List.sum (List.map_congr_left fun b hb => (h.counted b hb).2)
  rw [hsum, List.length_filter_eq_length_iff, ← h.perm_iff]
  constructor
  · intro hall
    have hkeys : (bs.map Prod.fst).Perm (firsts values) := by
      rw [List.perm_ext_iff_of_nodup h.nodup (nodup_firsts values)]
      intro v
      rw [mem_firsts]
      refine ⟨fun hv => ?_, fun hv => of_decide_eq_true (hall v hv)⟩
      obtain ⟨b, hb, rfl⟩ := List.mem_map.mp hv
      exact (h.counted b hb).1
    rw [h.eq_map]
    exact hkeys.map _
  · intro hperm v hv
    rw [decide_eq_true_iff, (hperm.map Prod.fst).mem_iff, map_fst_bucketsOf, mem_firsts]
    exact hv

end Largest

/-! ## By count, and by value among equal counts -/

section Sorted

variable [LinearOrder κ]

def bucketRank (b : κ × Nat) : Natᵒᵈ ×ₗ κ := toLex (OrderDual.toDual b.2, b.1)

def largestBuckets (size : Nat) (values : List κ) : List (κ × Nat) :=
  best bucketRank size (bucketsOf values)

theorem largest_largestBuckets (size : Nat) (values : List κ) :
    Largest size values (largestBuckets size values) where
  nodup := by
    have hperm := (rankBy_perm bucketRank (bucketsOf values)).map Prod.fst
    rw [map_fst_bucketsOf] at hperm
    rw [largestBuckets, best, List.map_take]
    exact (hperm.nodup_iff.mpr (nodup_firsts values)).sublist (List.take_sublist _ _)
  counted := by
    intro b hb
    obtain ⟨v, hv, rfl⟩ := List.mem_map.mp (mem_of_mem_best bucketRank hb)
    exact ⟨mem_firsts.mp hv, rfl⟩
  length := by
    rw [largestBuckets, length_best, bucketsOf, List.length_map]
  largest := by
    intro b hb v hv hout
    have hmem : (v, values.count v) ∈ bucketsOf values :=
      List.mem_map.mpr ⟨v, mem_firsts.mpr hv, rfl⟩
    have hcut : (v, values.count v) ∉ largestBuckets size values := fun hin =>
      hout (List.mem_map.mpr ⟨_, hin, rfl⟩)
    rcases Prod.Lex.le_iff.mp (rank_le_of_not_mem_best bucketRank hb hmem hcut) with hlt | ⟨heq, -⟩
    · exact Nat.le_of_lt (OrderDual.toDual_lt_toDual.mp hlt)
    · exact (OrderDual.toDual.injective heq).ge

end Sorted

end Buckets
