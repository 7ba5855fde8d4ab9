/-
  The best entries of a list: a stable sort by a rank, least first, and a cut.

  * `pairwise_stable`: entries of the same rank keep the order they came in, for any order.
  * `rank_le_of_not_mem_best`: what is cut off ranks no better than what is kept.
  * `best_eq`: entries of distinct ranks that all rank before the rest are what is kept,
    whatever the order they came in.
  * `getElem?_rankBy_cons`: the first of its rank to come in is the first of its rank to go
    out, right after the entries of smaller rank.
  * `rankBy_eq_self`: a list already in order is left as it is.
  * `map_key_leastPer`, `leastPer_perm`: each key has one least entry, and when ranks tell the
    entries apart it does not depend on the order they came in.
  * `best_perm_of_decided`, `decided_of_best_perm`: what is kept does not depend on the order
    the entries came in exactly when no rank that reaches the cut is shared.
-/
import RagParamsFinder.Lib.Grouping

namespace Ranking

open Grouping

universe u v

variable {α : Type u} {β : Type v} [LinearOrder β] (rank : α → β)

/-- The first `n` entries of the sorted list. -/
def best (n : Nat) (xs : List α) : List α := (rankBy rank xs).take n

/-! ## The sorted list -/

/-- A sorted list begins with the entries of any lower set, and goes on with the others. -/
theorem takeWhile_eq_filter {s : List α} (hs : s.Pairwise fun a b => rank a ≤ rank b)
    {p : α → Bool} (hp : ∀ a b, rank a ≤ rank b → p b → p a) :
    s.takeWhile p = s.filter p ∧ s.dropWhile p = s.filter fun a => !p a := by
  induction s with
  | nil => exact ⟨rfl, rfl⟩
  | cons a s ih =>
      obtain ⟨hle, hs⟩ := List.pairwise_cons.mp hs
      cases ha : p a with
      | true => simp [ha, ih hs]
      | false =>
          have hnone : ∀ b ∈ s, p b = false := fun b hb =>
            Bool.eq_false_iff.mpr fun hpb => by simp [hp a b (hle b hb) hpb] at ha
          have hfilter : s.filter p = [] := by simpa using hnone
          have hrest : s.filter (fun b => !p b) = s := by simpa using hnone
          simp [ha, hfilter, hrest]

/-- Sorting puts a new first entry between the entries of smaller rank and the others. -/
theorem rankBy_cons (x : α) (xs : List α) :
    rankBy rank (x :: xs) =
      (rankBy rank xs).filter (fun b => decide (rank b < rank x)) ++
        x :: (rankBy rank xs).filter fun b => decide (rank x ≤ rank b) := by
  have hlower : ∀ a b, rank a ≤ rank b →
      decide (rank b < rank x) = true → decide (rank a < rank x) = true := by
    simp only [decide_eq_true_iff]
    exact fun a b hab hb => hab.trans_lt hb
  have hnot : (fun b => decide (¬rank x ≤ rank b)) = fun b => decide (rank b < rank x) :=
    funext fun b => decide_eq_decide.mpr not_le
  have hge : (fun b => !decide (rank b < rank x)) = fun b => decide (rank x ≤ rank b) := by
    simp only [← decide_not, not_lt]
  obtain ⟨htake, hdrop⟩ := takeWhile_eq_filter rank (pairwise_rankBy rank xs) hlower
  refine (List.insertionSort_cons_eq_take_drop (fun a b => rank a ≤ rank b) x xs).trans ?_
  change (rankBy rank xs).takeWhile (fun b => decide (¬rank x ≤ rank b)) ++
    x :: (rankBy rank xs).dropWhile (fun b => decide (¬rank x ≤ rank b)) = _
  rw [hnot, htake, hdrop, hge]

/-- A stable sort: entries of the same rank stay in the order they came in. -/
theorem pairwise_stable {R : α → α → Prop} {xs : List α} (h : xs.Pairwise R) :
    (rankBy rank xs).Pairwise fun a b => rank a < rank b ∨ (rank a = rank b ∧ R a b) := by
  induction xs with
  | nil => exact List.Pairwise.nil
  | cons x xs ih =>
      obtain ⟨hx, hxs⟩ := List.pairwise_cons.mp h
      rw [rankBy_cons, List.pairwise_append, List.pairwise_cons]
      refine ⟨(ih hxs).filter _, ⟨?_, (ih hxs).filter _⟩, ?_⟩
      · intro b hb
        obtain ⟨hmem, hle⟩ := List.mem_filter.mp hb
        rcases (of_decide_eq_true hle).lt_or_eq with hlt | heq
        · exact Or.inl hlt
        · exact Or.inr ⟨heq, hx b ((rankBy_perm rank xs).mem_iff.mp hmem)⟩
      · intro a ha b hb
        have hax := of_decide_eq_true (List.mem_filter.mp ha).2
        rcases List.mem_cons.mp hb with rfl | hb
        · exact Or.inl hax
        · exact Or.inl (hax.trans_le (of_decide_eq_true (List.mem_filter.mp hb).2))

/-- The first entry of its rank to come in is the first one to go out. -/
theorem getElem?_rankBy_cons (x : α) (xs : List α) :
    (rankBy rank (x :: xs))[xs.countP fun b => decide (rank b < rank x)]? = some x := by
  have hlen : ((rankBy rank xs).filter fun b => decide (rank b < rank x)).length =
      xs.countP fun b => decide (rank b < rank x) := by
    rw [← List.countP_eq_length_filter, (rankBy_perm rank xs).countP_eq]
  rw [rankBy_cons, ← hlen, List.getElem?_append_right le_rfl, Nat.sub_self,
    List.getElem?_cons_zero]

/-! ## The cut -/

theorem length_best (n : Nat) (xs : List α) : (best rank n xs).length = min n xs.length := by
  rw [best, List.length_take, (rankBy_perm rank xs).length_eq]

theorem mem_of_mem_best {n : Nat} {xs : List α} {a : α} (h : a ∈ best rank n xs) : a ∈ xs :=
  (rankBy_perm rank xs).mem_iff.mp (List.mem_of_mem_take h)

theorem nodup_best {xs : List α} (h : xs.Nodup) (n : Nat) : (best rank n xs).Nodup :=
  ((rankBy_perm rank xs).nodup_iff.mpr h).sublist (List.take_sublist n _)

/-- What is cut off ranks no better than what is kept. -/
theorem rank_le_of_not_mem_best {n : Nat} {xs : List α} {a b : α} (ha : a ∈ best rank n xs)
    (hb : b ∈ xs) (hcut : b ∉ best rank n xs) : rank a ≤ rank b := by
  have hsorted := pairwise_rankBy rank xs
  have hmem : b ∈ (rankBy rank xs).take n ++ (rankBy rank xs).drop n := by
    rw [List.take_append_drop]
    exact (rankBy_perm rank xs).mem_iff.mpr hb
  rw [← List.take_append_drop n (rankBy rank xs), List.pairwise_append] at hsorted
  exact hsorted.2.2 a ha b ((List.mem_append.mp hmem).resolve_left hcut)

theorem pairwise_best_stable {R : α → α → Prop} {xs : List α} (h : xs.Pairwise R) (n : Nat) :
    (best rank n xs).Pairwise fun a b => rank a < rank b ∨ (rank a = rank b ∧ R a b) :=
  (pairwise_stable rank h).sublist (List.take_sublist n _)

theorem map_rank_best_perm {xs ys : List α} (h : xs.Perm ys) (n : Nat) :
    (best rank n xs).map rank = (best rank n ys).map rank := by
  rw [best, best, List.map_take, List.map_take, map_rank_perm rank h]

/-- Entries of distinct ranks that all rank before the rest begin every sorted order. -/
theorem take_eq_of_perm {s kept rest : List α} (hs : s.Pairwise fun a b => rank a ≤ rank b)
    (hp : s.Perm (kept ++ rest)) (hlt : ∀ a ∈ kept, ∀ b ∈ rest, rank a < rank b)
    (hkept : kept.Pairwise fun a b => rank a < rank b) : s.take kept.length = kept := by
  induction kept generalizing s with
  | nil => exact List.take_zero
  | cons a kept ih =>
      obtain ⟨ha, hstrict⟩ := List.pairwise_cons.mp hkept
      have hfirst : ∀ b ∈ kept ++ rest, rank a < rank b := by
        intro b hb
        rcases List.mem_append.mp hb with hb | hb
        · exact ha b hb
        · exact hlt a (List.mem_cons_self ..) b hb
      cases s with
      | nil => exact absurd hp.symm.eq_nil (List.cons_ne_nil _ _)
      | cons c s =>
          obtain ⟨hc, hs⟩ := List.pairwise_cons.mp hs
          -- the head cannot be any other entry, since `a` would then follow it
          have hca : c = a := by
            rcases List.mem_cons.mp (hp.mem_iff.mp (List.mem_cons_self ..)) with h | h
            · exact h
            · rcases List.mem_cons.mp (hp.mem_iff.mpr (List.mem_cons_self ..)) with h' | h'
              · exact h'.symm
              · exact absurd (hc a h') (not_le.mpr (hfirst c h))
          subst hca
          rw [List.length_cons, List.take_succ_cons,
            ih hs hp.cons_inv (fun a ha => hlt a (List.mem_cons_of_mem _ ha)) hstrict]

/-- Entries of distinct ranks that all rank before the rest are the ones kept. -/
theorem best_eq {xs kept rest : List α} {n : Nat} (hp : xs.Perm (kept ++ rest))
    (hlt : ∀ a ∈ kept, ∀ b ∈ rest, rank a < rank b)
    (hkept : kept.Pairwise fun a b => rank a < rank b) (hlen : kept.length = min n xs.length) :
    best rank n xs = kept := by
  have hsorted := rankBy_perm rank xs
  have htake := take_eq_of_perm rank (pairwise_rankBy rank xs) (hsorted.trans hp) hlt hkept
  rw [hlen, ← hsorted.length_eq, ← List.take_eq_take_min] at htake
  exact htake

/-- The first entry of the sorted list ranks least. -/
theorem head?_rankBy {xs : List α} {a : α} (h : (rankBy rank xs).head? = some a) :
    a ∈ xs ∧ ∀ b ∈ xs, rank a ≤ rank b := by
  obtain ⟨rest, hrest⟩ := List.head?_eq_some_iff.mp h
  have hsorted := pairwise_rankBy rank xs
  have hmem : ∀ b, b ∈ xs ↔ b = a ∨ b ∈ rest := fun b => by
    rw [← (rankBy_perm rank xs).mem_iff, hrest, List.mem_cons]
  rw [hrest, List.pairwise_cons] at hsorted
  refine ⟨(hmem a).mpr (Or.inl rfl), fun b hb => ?_⟩
  rcases (hmem b).mp hb with rfl | hb
  · exact le_refl _
  · exact hsorted.1 b hb

/-! ## Order of arrival -/

/-- Entries that are told apart by their rank are sorted the same, however they come in. -/
theorem rankBy_eq_of_perm {xs ys : List α} (h : xs.Perm ys)
    (hinj : ∀ a ∈ xs, ∀ b ∈ xs, rank a = rank b → a = b) : rankBy rank xs = rankBy rank ys := by
  have hx := rankBy_perm rank xs
  have hy := rankBy_perm rank ys
  refine List.Perm.eq_of_pairwise (fun a b ha hb hab hba => ?_) (pairwise_rankBy rank xs)
    (pairwise_rankBy rank ys) (hx.trans (h.trans hy.symm))
  exact hinj a (hx.mem_iff.mp ha) b (h.mem_iff.mpr (hy.mem_iff.mp hb)) (le_antisymm hab hba)

/-- Where no two entries share a rank, the positions are the order of the ranks. -/
theorem rank_getElem_lt_iff {xs : List α} (h : xs.Pairwise fun a b => rank a < rank b)
    {i j : Nat} (hi : i < xs.length) (hj : j < xs.length) :
    rank xs[i] < rank xs[j] ↔ i < j := by
  have hlt := List.pairwise_iff_getElem.mp h
  constructor
  · intro hij
    rcases Nat.lt_trichotomy i j with hcase | rfl | hcase
    · exact hcase
    · exact absurd hij (lt_irrefl _)
    · exact absurd hij (hlt j i hj hi hcase).asymm
  · exact hlt i j hi hj

/-- A sorted list stays as it is. -/
theorem rankBy_eq_self {xs : List α} (h : xs.Pairwise fun a b => rank a ≤ rank b) :
    rankBy rank xs = xs := h.insertionSort_eq

/-- Entries that are mapped without a change of rank are sorted as before. -/
theorem rankBy_map {γ : Type*} {rank' : γ → β} {f : γ → α} {xs : List γ}
    (h : ∀ c ∈ xs, rank (f c) = rank' c) : rankBy rank (xs.map f) = (rankBy rank' xs).map f :=
  (List.map_insertionSort (r := fun a b => rank' a ≤ rank' b)
    (s := fun a b => rank a ≤ rank b) f xs fun a ha b hb => by rw [h a ha, h b hb]).symm

theorem best_map {γ : Type*} (f : γ → α) (n : Nat) (xs : List γ) :
    best rank n (xs.map f) = (best (fun c => rank (f c)) n xs).map f := by
  unfold best
  rw [List.map_take, rankBy_map rank fun _ _ => rfl]

/-! ## The least entry of each key -/

section Keys

variable {κ : Type*} [DecidableEq κ] (key : α → κ)

/-- The entry of least rank under each of some keys. -/
def leastAt (ks : List κ) (xs : List α) : List α :=
  ks.filterMap fun k => (rankBy rank (xs.filter (key · = k))).head?

/-- The other entries under these keys. -/
def restAt (ks : List κ) (xs : List α) : List α :=
  ks.flatMap fun k => (rankBy rank (xs.filter (key · = k))).tail

/-- The least entry of every key, the keys in order of first appearance. -/
def leastPer (xs : List α) : List α := leastAt rank key (firsts (xs.map key)) xs

/-- Entries that are mapped without a change of rank or key have the same least ones. -/
theorem leastAt_map {γ : Type*} {rank' : γ → β} {key' : γ → κ} {f : γ → α} {xs : List γ}
    (hrank : ∀ c ∈ xs, rank (f c) = rank' c) (hkey : ∀ c ∈ xs, key (f c) = key' c)
    (ks : List κ) : leastAt rank key ks (xs.map f) = (leastAt rank' key' ks xs).map f := by
  have hfilter : ∀ k, (xs.map f).filter (key · = k) = (xs.filter (key' · = k)).map f := by
    intro k
    rw [List.filter_map]
    exact congrArg (List.map f) (List.filter_congr fun c hc => by simp [hkey c hc])
  unfold leastAt
  rw [List.map_filterMap]
  refine List.filterMap_congr fun k _ => ?_
  rw [hfilter, rankBy_map rank fun c hc => hrank c (List.mem_of_mem_filter hc), List.head?_map]

variable {rank key}

theorem least_of_key {xs : List α} {k : κ} {a : α}
    (h : (rankBy rank (xs.filter (key · = k))).head? = some a) :
    a ∈ xs ∧ key a = k ∧ ∀ b ∈ xs, key b = k → rank a ≤ rank b := by
  obtain ⟨hmem, hleast⟩ := head?_rankBy rank h
  obtain ⟨ha, hk⟩ := List.mem_filter.mp hmem
  exact ⟨ha, of_decide_eq_true hk, fun b hb hbk =>
    hleast b (List.mem_filter.mpr ⟨hb, decide_eq_true hbk⟩)⟩

theorem mem_leastAt {ks : List κ} {xs : List α} {a : α} (h : a ∈ leastAt rank key ks xs) :
    a ∈ xs ∧ ∀ b ∈ xs, key b = key a → rank a ≤ rank b := by
  obtain ⟨k, -, ha⟩ := List.mem_filterMap.mp h
  obtain ⟨hmem, rfl, hleast⟩ := least_of_key ha
  exact ⟨hmem, hleast⟩

theorem mem_leastPer {xs : List α} {a : α} (h : a ∈ leastPer rank key xs) :
    a ∈ xs ∧ ∀ b ∈ xs, key b = key a → rank a ≤ rank b :=
  mem_leastAt h

variable (rank key) in
/-- Every key that appears has its entry, once. -/
theorem map_key_leastAt {ks : List κ} {xs : List α} (h : ∀ k ∈ ks, k ∈ xs.map key) :
    (leastAt rank key ks xs).map key = ks := by
  have hsome : ∀ k ∈ ks,
      ((rankBy rank (xs.filter (key · = k))).head?).map key = some k := by
    intro k hk
    obtain ⟨a, ha, hak⟩ := List.mem_map.mp (h k hk)
    have hmem : a ∈ rankBy rank (xs.filter (key · = k)) :=
      (rankBy_perm rank _).mem_iff.mpr (List.mem_filter.mpr ⟨ha, decide_eq_true hak⟩)
    cases hhead : (rankBy rank (xs.filter (key · = k))).head? with
    | none => exact absurd hmem (List.head?_eq_none_iff.mp hhead ▸ List.not_mem_nil)
    | some b => exact congrArg some (least_of_key hhead).2.1
  unfold leastAt
  rw [List.map_filterMap, List.filterMap_congr hsome, List.filterMap_some]

variable (rank key) in
theorem map_key_leastPer (xs : List α) :
    (leastPer rank key xs).map key = firsts (xs.map key) :=
  map_key_leastAt rank key fun _ hk => mem_firsts.mp hk

/-- The least entries and the others are all entries under the keys. -/
theorem leastAt_append_restAt_perm {ks : List κ} (hn : ks.Nodup) (xs : List α) :
    (leastAt rank key ks xs ++ restAt rank key ks xs).Perm (xs.filter (key · ∈ ks)) := by
  refine List.Perm.trans ?_ (groups_perm key xs hn)
  clear hn
  induction ks with
  | nil => exact List.Perm.refl _
  | cons k ks ih =>
      rw [groups_cons]
      refine List.Perm.trans ?_ (((rankBy_perm rank (xs.filter (key · = k))).append_right _).trans
        (ih.append_left _))
      unfold leastAt restAt
      rw [List.flatMap_cons]
      cases hsorted : rankBy rank (xs.filter (key · = k)) with
      | nil =>
          rw [List.filterMap_cons_none (by rw [hsorted]; rfl), List.tail_nil]
          exact List.Perm.refl _
      | cons a rest =>
          rw [List.filterMap_cons_some (by rw [hsorted]; rfl), List.tail_cons, List.cons_append,
            List.cons_append]
          exact (List.perm_append_comm_assoc _ _ _).cons a

/-- Entries of a key that are told apart by their rank may come in any order. -/
theorem leastAt_eq_of_perm {xs ys : List α} (h : xs.Perm ys)
    (hinj : ∀ a ∈ xs, ∀ b ∈ xs, key a = key b → rank a = rank b → a = b) (ks : List κ) :
    leastAt rank key ks xs = leastAt rank key ks ys := by
  refine List.filterMap_congr fun k _ => congrArg List.head? ?_
  refine rankBy_eq_of_perm rank (h.filter _) fun a ha b hb => ?_
  obtain ⟨ha, hak⟩ := List.mem_filter.mp ha
  obtain ⟨hb, hbk⟩ := List.mem_filter.mp hb
  exact hinj a ha b hb ((of_decide_eq_true hak).trans (of_decide_eq_true hbk).symm)

theorem leastPer_perm {xs ys : List α} (h : xs.Perm ys)
    (hinj : ∀ a ∈ xs, ∀ b ∈ xs, rank a = rank b → a = b) :
    (leastPer rank key xs).Perm (leastPer rank key ys) := by
  unfold leastPer
  rw [leastAt_eq_of_perm h fun a ha b hb _ => hinj a ha b hb]
  exact (firsts_perm (h.map key)).filterMap _

end Keys

/-- How many entries rank before `a`. -/
def ahead (xs : List α) (a : α) : Nat := xs.countP fun b => decide (rank b < rank a)

/-- No two entries share a rank that fewer than `n` entries are ahead of. -/
def Decided (n : Nat) (xs : List α) : Prop :=
  ∀ a ∈ xs, ∀ b ∈ xs, a ≠ b → rank a = rank b → n ≤ ahead rank xs a

theorem ahead_perm {xs ys : List α} (h : xs.Perm ys) (a : α) :
    ahead rank xs a = ahead rank ys a :=
  h.countP_eq _

/-- In a sorted list the entries ahead of one stand before it. -/
theorem ahead_getElem_le {s : List α} (hs : s.Pairwise fun a b => rank a ≤ rank b) {i : Nat}
    (hi : i < s.length) : ahead rank s s[i] ≤ i := by
  have hrest : (s.drop i).countP (fun b => decide (rank b < rank s[i])) = 0 := by
    refine List.countP_eq_zero.mpr fun b hb => ?_
    rw [decide_eq_true_iff, not_lt]
    obtain ⟨j, hj, rfl⟩ := List.mem_drop_iff_getElem.mp hb
    rcases Nat.eq_zero_or_pos j with rfl | hpos
    · exact le_rfl
    · exact List.pairwise_iff_getElem.mp hs i (i + j) hi (by omega) (by omega)
  have hsplit : ahead rank s s[i] = (s.take i).countP (fun b => decide (rank b < rank s[i])) +
      (s.drop i).countP (fun b => decide (rank b < rank s[i])) := by
    rw [← List.countP_append, List.take_append_drop]
    rfl
  rw [hsplit, hrest]
  exact List.countP_le_length.trans (List.length_take_le _ _)

section Decided

variable {rank} {n : Nat} {xs : List α} (hn : xs.Nodup) (hd : Decided rank n xs)

include hn hd

/-- What is placed before the cut ranks strictly before everything that follows it. -/
theorem rank_lt_of_decided {i j : Nat} (hi : i < n) (hij : i < j)
    (hj : j < (rankBy rank xs).length) :
    rank ((rankBy rank xs).get ⟨i, hij.trans hj⟩) < rank (rankBy rank xs)[j] := by
  have hs := pairwise_rankBy rank xs
  have hp := rankBy_perm rank xs
  refine lt_of_le_of_ne (List.pairwise_iff_getElem.mp hs i j (hij.trans hj) hj hij) fun heq => ?_
  have hne : (rankBy rank xs).get ⟨i, hij.trans hj⟩ ≠ (rankBy rank xs)[j] := fun he =>
    hij.ne ((hp.nodup_iff.mpr hn).getElem_inj_iff.mp he)
  have hahead := hd _ (hp.mem_iff.mp (List.getElem_mem _)) _ (hp.mem_iff.mp (List.getElem_mem _))
    hne heq
  rw [← ahead_perm rank hp] at hahead
  exact absurd (hahead.trans (ahead_getElem_le rank hs (hij.trans hj))) (not_le.mpr hi)

theorem pairwise_best_of_decided : (best rank n xs).Pairwise fun a b => rank a < rank b := by
  refine List.pairwise_iff_getElem.mpr fun i j hi hj hij => ?_
  have hjn : j < n ∧ j < (rankBy rank xs).length := by
    rw [best, List.length_take] at hj
    omega
  simp only [best, List.getElem_take]
  exact rank_lt_of_decided hn hd (hij.trans hjn.1) hij hjn.2

theorem best_lt_of_decided {a b : α} (ha : a ∈ best rank n xs)
    (hb : b ∈ (rankBy rank xs).drop n) : rank a < rank b := by
  obtain ⟨i, hi, rfl⟩ := List.mem_take_iff_getElem.mp ha
  obtain ⟨j, hj, rfl⟩ := List.mem_drop_iff_getElem.mp hb
  have hin : i < n := (lt_min_iff.mp hi).1
  exact rank_lt_of_decided hn hd hin (by omega) (by omega)

theorem best_perm_of_decided {ys : List α} (hp : ys.Perm xs) :
    best rank n ys = best rank n xs := by
  have hsplit : ys.Perm (best rank n xs ++ (rankBy rank xs).drop n) := by
    rw [best, List.take_append_drop]
    exact hp.trans (rankBy_perm rank xs).symm
  refine best_eq rank hsplit (fun a ha b hb => best_lt_of_decided hn hd ha hb)
    (pairwise_best_of_decided hn hd) ?_
  rw [length_best, hp.length_eq]

end Decided

/-- Fewer than `n` entries are ahead of what is kept. -/
theorem ahead_lt_of_mem_best {n : Nat} {xs : List α} {a : α} (ha : a ∈ best rank n xs) :
    ahead rank xs a < n := by
  obtain ⟨i, hi, rfl⟩ := List.mem_take_iff_getElem.mp ha
  rw [← ahead_perm rank (rankBy_perm rank xs)]
  exact (ahead_getElem_le rank (pairwise_rankBy rank xs) _).trans_lt (lt_min_iff.mp hi).1

section Fixed

variable {rank} [DecidableEq α] {n : Nat} {xs kept : List α}
  (h : ∀ ys, ys.Perm xs → best rank n ys = kept)

include h

/-- If every order keeps the same entries, one with few entries ahead has a fixed place. -/
theorem getElem?_of_best_perm {a : α} (ha : a ∈ xs) (hlt : ahead rank xs a < n) :
    kept[ahead rank xs a]? = some a := by
  have hp : (a :: xs.erase a).Perm xs := (List.perm_cons_erase ha).symm
  have hahead : ahead rank xs a = (xs.erase a).countP fun b => decide (rank b < rank a) := by
    rw [← ahead_perm rank hp]
    exact List.countP_cons_of_neg (by simp)
  rw [← h _ hp, best, List.getElem?_take_of_lt hlt, hahead]
  exact getElem?_rankBy_cons rank a (xs.erase a)

theorem decided_of_best_perm : Decided rank n xs := by
  intro a ha b hb hne heq
  by_contra hlt
  rw [not_le] at hlt
  have hsame : ahead rank xs b = ahead rank xs a := by
    unfold ahead
    rw [heq]
  have hfirst := getElem?_of_best_perm h ha hlt
  have hsecond := getElem?_of_best_perm h hb (hsame ▸ hlt)
  rw [hsame, hfirst] at hsecond
  exact hne (Option.some.inj hsecond)

end Fixed

end Ranking
