/-
  Lists whose entries are told apart by a key.

  * `filter_key_notMem_iff`: dropping the entries whose key a done list has drops exactly
    the done entries if and only if no other entry has a done key.
  * `countP_eq_sum_keys`: a list is counted key by key.
  * `groups_perm`, `filter_groups`: moving the groups of some keys moves their entries, each
    group as it was.
  * `firsts_flatMap`: blocks of distinct keys, by first appearance.
  * `firsts_perm`, `min?_perm`, `max?_perm`: groups and extremes do not depend on the order
    of the entries; `map_rank_perm`: nor do the rank keys of a stable sort; `flatMap_perm`:
    entries rearranged and each replaced by a related one, spread out.
-/
import Mathlib.Algebra.BigOperators.Group.Finset.Piecewise
import Mathlib.Data.List.Lex
import Mathlib.Data.List.Sort
import Mathlib.Data.Set.Function

namespace Grouping

universe u v

variable {α : Type u} {κ : Type v} [DecidableEq κ] (key : α → κ)

/-! ## Dropping by key -/

/-- Skipping by key skips what is done, and nothing else, when keys separate it. -/
theorem filter_key_notMem_iff [DecidableEq α] (xs done : List α) :
    (xs.filter fun x => key x ∉ done.map key) = (xs.filter fun x => x ∉ done) ↔
      ∀ x ∈ xs, ∀ d ∈ done, key x = key d → x ∈ done := by
  constructor
  · intro h x hx d hd hk
    by_contra hn
    have hin : x ∈ xs.filter fun x => x ∉ done :=
      List.mem_filter.mpr ⟨hx, by simpa using hn⟩
    rw [← h, List.mem_filter, decide_eq_true_iff] at hin
    exact hin.2 (hk ▸ List.mem_map_of_mem hd)
  · intro h
    refine List.filter_congr fun x hx => ?_
    rw [Bool.eq_iff_iff, decide_eq_true_iff, decide_eq_true_iff, not_iff_not]
    constructor
    · intro hm
      obtain ⟨d, hd, hk⟩ := List.mem_map.mp hm
      exact h x hx d hd hk.symm
    · exact fun hm => List.mem_map_of_mem hm

/-! ## Counting by key -/

theorem countP_eq_sum_keys {xs : List α} {S : Finset κ} (h : ∀ x ∈ xs, key x ∈ S)
    (p : α → Bool) : xs.countP p = ∑ k ∈ S, xs.countP fun x => decide (key x = k) && p x := by
  induction xs with
  | nil => simp
  | cons x xs ih =>
      have hx := h x (List.mem_cons_self ..)
      have hrest := ih fun y hy => h y (List.mem_cons_of_mem _ hy)
      simp only [List.countP_cons, Finset.sum_add_distrib, ← hrest]
      congr 1
      cases hp : p x with
      | false => simp
      | true => simp [Finset.sum_ite_eq, hx]

/-- Entries that are each sorted into one of two kinds are counted as such. -/
theorem countP_add_of_forall₂ {β : Type*} {R : α → β → Prop} {p q : β → Bool} {r : α → Bool}
    {xs : List α} {ys : List β} (h : List.Forall₂ R xs ys)
    (hR : ∀ x y, R x y → (p y).toNat + (q y).toNat = (r x).toNat) :
    ys.countP p + ys.countP q = xs.countP r := by
  induction h with
  | nil => rfl
  | @cons x y xs ys hxy _ ih =>
      have hone := hR x y hxy
      rw [List.countP_cons, List.countP_cons, List.countP_cons, ← ih]
      cases hp : p y <;> cases hq : q y <;> cases hr : r x <;>
        simp only [hp, hq, hr, Bool.toNat_true, Bool.toNat_false] at hone ⊢ <;> simp <;> omega

/-- The same for blocks of entries. -/
theorem countP_flatten_of_forall₂ {β : Type*} {R : α → List β → Prop} {p q : β → Bool}
    {r : α → Bool} {xs : List α} {yss : List (List β)} (h : List.Forall₂ R xs yss)
    (hR : ∀ x ys, R x ys → ys.countP p + ys.countP q = (r x).toNat) :
    yss.flatten.countP p + yss.flatten.countP q = xs.countP r := by
  induction h with
  | nil => rfl
  | @cons x ys xs yss hxy _ ih =>
      have hone := hR x ys hxy
      rw [List.flatten_cons, List.countP_append, List.countP_append, List.countP_cons, ← ih]
      cases hr : r x <;> simp only [hr, Bool.toNat_true, Bool.toNat_false] at hone ⊢ <;> simp <;>
        omega

/-- With distinct keys an entry is counted once under its key. -/
theorem countP_key {xs : List α} (hn : (xs.map key).Nodup) (k : κ) :
    xs.countP (fun x => decide (key x = k)) = (decide (k ∈ xs.map key)).toNat := by
  have hcount : xs.countP (fun x => decide (key x = k)) = (xs.map key).count k := by
    rw [List.count, List.countP_map]
    rfl
  rw [hcount]
  by_cases hk : k ∈ xs.map key
  · rw [List.count_eq_one_of_mem hn hk, decide_eq_true hk, Bool.toNat_true]
  · rw [List.count_eq_zero_of_not_mem hk, decide_eq_false hk, Bool.toNat_false]

theorem countP_getLeft? {β γ : Type*} (p : β → Bool) (vs : List (β ⊕ γ)) :
    (vs.filterMap (·.getLeft?)).countP p = vs.countP (Sum.elim p fun _ => false) := by
  rw [List.countP_filterMap]
  exact List.countP_congr fun v _ => by cases v <;> rfl

theorem countP_getRight? {β γ : Type*} (p : γ → Bool) (vs : List (β ⊕ γ)) :
    (vs.filterMap (·.getRight?)).countP p = vs.countP (Sum.elim (fun _ => false) p) := by
  rw [List.countP_filterMap]
  exact List.countP_congr fun v _ => by cases v <;> rfl

/-- A filter that keeps as many entries of a kind keeps all of them. -/
theorem of_countP_filter_eq {p q : α → Bool} {xs : List α}
    (h : (xs.filter q).countP p = xs.countP p) {x : α} (hx : x ∈ xs) (hp : p x = true) :
    q x = true := by
  have hsplit := List.countP_eq_countP_filter_add xs p q
  have hnone : (xs.filter fun x => !q x).countP p = 0 := by omega
  by_contra hq
  exact List.countP_eq_zero.mp hnone x (List.mem_filter.mpr ⟨hx, by simpa using hq⟩) hp

/-- A list with at most one entry of a kind has no two. -/
theorem eq_of_countP_le_one {p : α → Bool} {xs : List α} (h : xs.countP p ≤ 1) {x y : α}
    (hx : x ∈ xs) (hy : y ∈ xs) (hpx : p x = true) (hpy : p y = true) : x = y := by
  rw [List.countP_eq_length_filter] at h
  have hfx : x ∈ xs.filter p := List.mem_filter.mpr ⟨hx, hpx⟩
  have hfy : y ∈ xs.filter p := List.mem_filter.mpr ⟨hy, hpy⟩
  obtain ⟨z, hz⟩ := List.length_eq_one_iff.mp
    (le_antisymm h (List.length_pos_iff.mpr (List.ne_nil_of_mem hfx)))
  rw [hz, List.mem_singleton] at hfx hfy
  exact hfx.trans hfy.symm

/-- An element of blocks that share none is in one of them. -/
theorem index_of_nodup_flatMap {β : Type*} {xs : List α} {f : α → List β}
    (h : (xs.flatMap f).Nodup) {i j : ℕ} {a b : α} {y : β} (hi : xs[i]? = some a)
    (hj : xs[j]? = some b) (ha : y ∈ f a) (hb : y ∈ f b) : i = j := by
  obtain ⟨hib, rfl⟩ := List.getElem?_eq_some_iff.mp hi
  obtain ⟨hjb, rfl⟩ := List.getElem?_eq_some_iff.mp hj
  have hdisjoint := List.pairwise_iff_getElem.mp (List.nodup_flatMap.mp h).2
  rcases lt_trichotomy i j with hlt | heq | hgt
  · exact absurd hb (hdisjoint i j hib hjb hlt ha)
  · exact heq
  · exact absurd ha (hdisjoint j i hjb hib hgt hb)

/-! ## Moving whole groups -/

/-- The entries under each of the keys, key after key. -/
def groups (xs : List α) (ks : List κ) : List α := ks.flatMap fun k => xs.filter (key · = k)

theorem groups_cons (xs : List α) (k : κ) (ks : List κ) :
    groups key xs (k :: ks) = xs.filter (key · = k) ++ groups key xs ks :=
  List.flatMap_cons

theorem mem_groups {xs : List α} {ks : List κ} {x : α} :
    x ∈ groups key xs ks ↔ x ∈ xs ∧ key x ∈ ks := by
  simp only [groups, List.mem_flatMap, List.mem_filter, decide_eq_true_iff]
  constructor
  · rintro ⟨k, hk, hx, rfl⟩
    exact ⟨hx, hk⟩
  · rintro ⟨hx, hk⟩
    exact ⟨key x, hk, hx, rfl⟩

/-- The group of a key among moved groups: there once, or not at all. -/
theorem filter_groups (xs : List α) {ks : List κ} (hn : ks.Nodup) (k : κ) :
    (groups key xs ks).filter (key · = k) = if k ∈ ks then xs.filter (key · = k) else [] := by
  induction ks with
  | nil => rfl
  | cons k' ks ih =>
      obtain ⟨hfresh, hn⟩ := List.nodup_cons.mp hn
      rw [groups_cons, List.filter_append, ih hn, List.filter_filter]
      by_cases hk : k' = k
      · subst hk
        rw [if_neg hfresh, if_pos (List.mem_cons_self ..), List.append_nil]
        exact List.filter_congr fun x _ => by simp
      · have hnil : xs.filter (fun x => decide (key x = k) && decide (key x = k')) = [] := by
          refine List.filter_eq_nil_iff.mpr fun x _ hx => hk ?_
          simp only [Bool.and_eq_true, decide_eq_true_iff] at hx
          rw [← hx.2, hx.1]
        rw [hnil, List.nil_append]
        simp [Ne.symm hk]

/-- Moving whole groups moves the entries under the keys. -/
theorem groups_perm (xs : List α) {ks : List κ} (hn : ks.Nodup) :
    (groups key xs ks).Perm (xs.filter (key · ∈ ks)) := by
  induction ks with
  | nil => simp [groups]
  | cons k ks ih =>
      obtain ⟨hfresh, hn⟩ := List.nodup_cons.mp hn
      rw [groups_cons]
      refine ((ih hn).append_left _).trans ?_
      have hsplit := List.filter_append_perm (fun x => decide (key x = k))
        (xs.filter fun x => decide (key x ∈ k :: ks))
      rw [List.filter_filter, List.filter_filter] at hsplit
      refine List.Perm.trans (List.Perm.of_eq ?_) hsplit
      congr 1
      · exact List.filter_congr fun x _ => by
          by_cases hx : key x = k <;> simp [hx]
      · exact List.filter_congr fun x _ => by
          by_cases hx : key x = k
          · simp [hx, hfresh]
          · simp [hx]

/-- With distinct keys a group is one entry. -/
theorem filter_key_singleton {xs : List α} (hn : (xs.map key).Nodup) {k : κ}
    (hk : k ∈ xs.map key) : ∃ x, key x = k ∧ xs.filter (key · = k) = [x] := by
  induction xs with
  | nil => cases hk
  | cons x xs ih =>
      obtain ⟨hfresh, hn⟩ := List.nodup_cons.mp hn
      by_cases hx : key x = k
      · refine ⟨x, hx, ?_⟩
        rw [List.filter_cons_of_pos (by simpa using hx)]
        congr 1
        refine List.filter_eq_nil_iff.mpr fun y hy hyk => hfresh ?_
        rw [hx, ← of_decide_eq_true hyk]
        exact List.mem_map.mpr ⟨y, hy, rfl⟩
      · rw [List.filter_cons_of_neg (by simpa using hx)]
        exact ih hn ((List.mem_cons.mp hk).resolve_left (Ne.symm hx))

/-- One entry has the position `i`. -/
theorem countP_zipIdx {xs : List α} {i : Nat} {x : α}
    (h : xs[i]? = some x) (p : α → Bool) :
    xs.zipIdx.countP (fun d => decide (d.2 = i) && p d.1) = (p x).toNat := by
  have hmem : (x, i) ∈ xs.zipIdx := List.mem_zipIdx_iff_getElem?.mpr h
  have hn : (xs.zipIdx.map (·.2)).Nodup := by
    rw [List.zipIdx_map_snd]
    exact List.nodup_range'
  obtain ⟨d, -, hfilter⟩ := filter_key_singleton (·.2) hn (List.mem_map_of_mem hmem)
  have hd : (x, i) ∈ [d] := hfilter ▸ List.mem_filter.mpr ⟨hmem, decide_eq_true rfl⟩
  obtain rfl := List.mem_singleton.mp hd
  have hcount : xs.zipIdx.countP (fun d => decide (d.2 = i) && p d.1) =
      (xs.zipIdx.filter fun d => decide (d.2 = i)).countP fun d => p d.1 := by
    rw [List.countP_filter]
    exact List.countP_congr fun d _ => by rw [Bool.and_comm]
  rw [hcount, hfilter, List.countP_singleton]
  cases p x <;> rfl

/-- With distinct keys a search by key finds the one entry of the key. -/
theorem find?_key_eq_some_iff {xs : List α} (hn : (xs.map key).Nodup) {k : κ} {x : α} :
    (xs.find? fun y => key y == k) = some x ↔ x ∈ xs ∧ key x = k := by
  constructor
  · intro h
    exact ⟨List.mem_of_find?_eq_some h, by simpa using List.find?_some h⟩
  · rintro ⟨hx, rfl⟩
    cases hf : xs.find? fun y => key y == key x with
    | none =>
        rw [List.find?_eq_none] at hf
        exact absurd (beq_self_eq_true (key x)) (hf x hx)
    | some y =>
        have hy : y ∈ xs := List.mem_of_find?_eq_some hf
        have hk : key y = key x := by simpa using List.find?_some hf
        rw [List.inj_on_of_nodup_map hn hy hx hk]

/-- So does a search by key in a dictionary of the entries, the last one first. -/
theorem find?_zip_key {xs : List α} (hn : (xs.map key).Nodup) {x : α} (hx : x ∈ xs) :
    (((xs.map key).zip xs).reverse.find? fun kx => kx.1 == key x) = some (key x, x) := by
  have hzip : (xs.map key).zip xs = xs.map fun x => (key x, x) := by
    have h := List.zip_map' (f := key) (g := id) (l := xs)
    rwa [List.map_id] at h
  have hkeys : ((xs.map fun x => (key x, x)).reverse.map Prod.fst).Nodup := by
    rw [List.map_reverse, List.nodup_reverse, List.map_map]
    exact hn
  rw [hzip]
  exact (find?_key_eq_some_iff Prod.fst hkeys).mpr
    ⟨List.mem_reverse.mpr (List.mem_map.mpr ⟨x, hx, rfl⟩), rfl⟩

theorem find?_key_perm {xs ys : List α} (h : xs.Perm ys) (hn : (xs.map key).Nodup) (k : κ) :
    (xs.find? fun y => key y == k) = ys.find? fun y => key y == k := by
  have hn' : (ys.map key).Nodup := (h.map key).nodup_iff.mp hn
  ext x
  rw [find?_key_eq_some_iff key hn, find?_key_eq_some_iff key hn', h.mem_iff]

/-! ## Groups in order of first appearance -/

/-- The entries without repetitions, each where it first appears: the keys of a dictionary
    filled in list order. -/
def firsts : List κ → List κ
  | [] => []
  | k :: ks => k :: (firsts ks).filter (· ≠ k)

theorem mem_firsts {ks : List κ} {k : κ} : k ∈ firsts ks ↔ k ∈ ks := by
  induction ks with
  | nil => exact Iff.rfl
  | cons k' ks ih =>
      rw [firsts, List.mem_cons, List.mem_cons, List.mem_filter, ih]
      by_cases h : k = k'
      · simp [h]
      · simp [h]

theorem nodup_firsts (ks : List κ) : (firsts ks).Nodup := by
  induction ks with
  | nil => exact List.nodup_nil
  | cons k ks ih =>
      rw [firsts, List.nodup_cons]
      refine ⟨fun h => ?_, ih.filter _⟩
      simpa using (List.mem_filter.mp h).2

/-- Lists with the same entries have the same groups. -/
theorem firsts_perm {ks ks' : List κ} (h : ks.Perm ks') : (firsts ks).Perm (firsts ks') := by
  rw [List.perm_ext_iff_of_nodup (nodup_firsts ks) (nodup_firsts ks')]
  intro k
  rw [mem_firsts, mem_firsts, h.mem_iff]

/-- Lists that are related entry by entry after a rearrangement, each entry spread out. -/
theorem flatMap_perm {β γ : Type*} {R : α → β → Prop} {f : α → List γ} {g : β → List γ}
    {xs : List α} {ys : List β} (h : ∃ mid, xs.Perm mid ∧ List.Forall₂ R mid ys)
    (hfg : ∀ a b, R a b → (f a).Perm (g b)) : (xs.flatMap f).Perm (ys.flatMap g) := by
  obtain ⟨mid, hperm, hsame⟩ := h
  refine (hperm.flatMap_right f).trans ?_
  clear hperm
  induction hsame with
  | nil => exact List.Perm.refl _
  | cons hab _ ih =>
      rw [List.flatMap_cons, List.flatMap_cons]
      exact (hfg _ _ hab).append ih

theorem firsts_sublist (ks : List κ) : (firsts ks).Sublist ks := by
  induction ks with
  | nil => exact List.Sublist.refl _
  | cons k ks ih =>
      rw [firsts]
      exact (List.filter_sublist.trans ih).cons_cons k

/-- Keys that a function tells apart appear as their images do. -/
theorem firsts_map {ι : Type*} [DecidableEq ι] (f : κ → ι) {ks : List κ}
    (hinj : ∀ a ∈ ks, ∀ b ∈ ks, f a = f b → a = b) : firsts (ks.map f) = (firsts ks).map f := by
  induction ks with
  | nil => rfl
  | cons k ks ih =>
      have hrest := ih fun a ha b hb =>
        hinj a (List.mem_cons_of_mem _ ha) b (List.mem_cons_of_mem _ hb)
      rw [List.map_cons, firsts, firsts, hrest, List.map_cons, List.filter_map]
      congr 2
      refine List.filter_congr fun a ha => ?_
      have hmem := List.mem_cons_of_mem k (mem_firsts.mp ha)
      have hiff : f a = f k ↔ a = k :=
        ⟨hinj a hmem k (List.mem_cons_self ..), congrArg f⟩
      simp [hiff]

theorem firsts_append (ks ks' : List κ) :
    firsts (ks ++ ks') = firsts ks ++ (firsts ks').filter (· ∉ ks) := by
  induction ks with
  | nil => simp [firsts]
  | cons k ks ih =>
      rw [List.cons_append, firsts, firsts, ih, List.filter_append, List.filter_filter,
        List.cons_append]
      congr 2
      refine List.filter_congr fun x _ => ?_
      simp

/-- A block of one key appears once, if at all. -/
theorem firsts_of_forall_eq {ks : List κ} {k : κ} (h : ∀ x ∈ ks, x = k) (hne : ks ≠ []) :
    firsts ks = [k] := by
  cases ks with
  | nil => exact absurd rfl hne
  | cons x ks =>
      obtain rfl := h x (List.mem_cons_self ..)
      rw [firsts, List.filter_eq_nil_iff.mpr fun y hy => ?_]
      have heq := h y (List.mem_cons_of_mem _ (mem_firsts.mp hy))
      simpa using heq

/-- Blocks of distinct keys: the keys of the blocks that are not empty, block after block. -/
theorem firsts_flatMap {β : Type*} {xs : List β} {block : β → List κ} {key : β → κ}
    (hblock : ∀ x ∈ xs, ∀ k ∈ block x, k = key x) (hn : (xs.map key).Nodup) :
    firsts (xs.flatMap block) = (xs.filter fun x => !(block x).isEmpty).map key := by
  induction xs with
  | nil => rfl
  | cons x xs ih =>
      rw [List.map_cons, List.nodup_cons] at hn
      have hrest := ih (fun y hy => hblock y (List.mem_cons_of_mem _ hy)) hn.2
      have hx := hblock x (List.mem_cons_self ..)
      rw [List.flatMap_cons, firsts_append, hrest]
      have hkeep : ((xs.filter fun x => !(block x).isEmpty).map key).filter (· ∉ block x) =
          (xs.filter fun x => !(block x).isEmpty).map key := by
        refine List.filter_eq_self.mpr fun k hk => ?_
        obtain ⟨y, hy, rfl⟩ := List.mem_map.mp hk
        have hne : key y ∉ block x := fun hm =>
          hn.1 (hx _ hm ▸ List.mem_map_of_mem (List.mem_of_mem_filter hy))
        simpa using hne
      rw [hkeep]
      cases hb : block x with
      | nil => simp [firsts, hb]
      | cons k ks =>
          rw [← hb, firsts_of_forall_eq hx (by simp [hb])]
          simp [hb]

/-! ## Extremes and ranks -/

section Ranks

variable {β : Type v} [LinearOrder β]

theorem min?_perm {xs ys : List β} (h : xs.Perm ys) : xs.min? = ys.min? := by
  cases hy : ys.min? with
  | none =>
      rw [List.min?_eq_none_iff] at hy ⊢
      subst hy
      exact h.eq_nil
  | some m =>
      rw [List.min?_eq_some_iff] at hy ⊢
      exact ⟨h.mem_iff.mpr hy.1, fun b hb => hy.2 b (h.mem_iff.mp hb)⟩

theorem max?_perm {xs ys : List β} (h : xs.Perm ys) : xs.max? = ys.max? := by
  cases hy : ys.max? with
  | none =>
      rw [List.max?_eq_none_iff] at hy ⊢
      subst hy
      exact h.eq_nil
  | some m =>
      rw [List.max?_eq_some_iff] at hy ⊢
      exact ⟨h.mem_iff.mpr hy.1, fun b hb => hy.2 b (h.mem_iff.mp hb)⟩

/-- A stable sort by `rank`, least first. -/
def rankBy (rank : α → β) (xs : List α) : List α :=
  xs.insertionSort fun a b => rank a ≤ rank b

theorem rankBy_perm (rank : α → β) (xs : List α) : (rankBy rank xs).Perm xs :=
  List.perm_insertionSort _ xs

theorem pairwise_rankBy (rank : α → β) (xs : List α) :
    (rankBy rank xs).Pairwise fun a b => rank a ≤ rank b := by
  have : Std.Total fun a b : α => rank a ≤ rank b := ⟨fun a b => le_total (rank a) (rank b)⟩
  have : IsTrans α fun a b => rank a ≤ rank b := ⟨fun a b c => le_trans⟩
  exact List.pairwise_insertionSort _ xs

/-- Sorted entries show the same ranks, whatever the order they came in. -/
theorem map_rank_perm (rank : α → β) {xs ys : List α} (h : xs.Perm ys) :
    (rankBy rank xs).map rank = (rankBy rank ys).map rank := by
  have hx := List.pairwise_map.mpr (pairwise_rankBy rank xs)
  have hy := List.pairwise_map.mpr (pairwise_rankBy rank ys)
  refine List.Perm.eq_of_pairwise (fun a b _ _ hab hba => le_antisymm hab hba) hx hy ?_
  exact ((rankBy_perm rank xs).trans (h.trans (rankBy_perm rank ys).symm)).map rank

end Ranks

end Grouping
