/-
  Rows inserted under keys: a record whose key is taken is skipped, one that `toRow` refuses
  is left out, and every other record is appended as its row.

  Proved: `mem_insertNew`: a row of the result was there before, or is the row of the first
  record of its key that is accepted. `insertNew_of_accepts`: with distinct fresh keys and
  no refusal the rows of all records are appended. `foldlM_eq_insertNew`: a loop whose turns
  insert the records, where it returns. `reads_back_iff`: in an empty table,
  the rows match the records one to one exactly when each record's own row matches it and
  no two records share a key. `exists_same_iff`: which documents have a matching row.
-/
import Mathlib.Data.List.Nodup
import RagParamsFinder.Lib.Traversals

namespace KeyedInsert

open Traversals

universe u v w x

variable {α : Type u} {ρ : Type v} {κ : Type w} [DecidableEq κ]

section Insert

variable (rowKey : ρ → κ) (toRow : α → Option ρ)

/-- Insert one record. -/
def insertRecord (t : List ρ) (a : α) : List ρ :=
  match toRow a with
  | none => t
  | some r => if rowKey r ∈ t.map rowKey then t else t ++ [r]

def insertNew (t : List ρ) (as : List α) : List ρ := as.foldl (insertRecord rowKey toRow) t

end Insert

/-- The record is accepted, and its row has this key. -/
def Accepted (rowKey : ρ → κ) (toRow : α → Option ρ) (k : κ) (a : α) : Bool :=
  (toRow a).any fun r => rowKey r = k

variable {rowKey : ρ → κ} {toRow : α → Option ρ}

theorem accepted_iff {k : κ} {a : α} :
    Accepted rowKey toRow k a = true ↔ ∃ r, toRow a = some r ∧ rowKey r = k := by
  unfold Accepted
  cases toRow a with
  | none => simp
  | some r => simp

omit [DecidableEq κ] in
theorem mem_keys_of_mem {t : List ρ} {r : ρ} (h : r ∈ t) : rowKey r ∈ t.map rowKey :=
  List.mem_map.mpr ⟨r, h, rfl⟩

/-- A row after one insert: it was there, or it is the new one under a fresh key. -/
theorem mem_insertRecord {t : List ρ} {a : α} {r : ρ} :
    r ∈ insertRecord rowKey toRow t a ↔
      r ∈ t ∨ (rowKey r ∉ t.map rowKey ∧ toRow a = some r) := by
  unfold insertRecord
  cases ha : toRow a with
  | none => simp
  | some r' =>
      dsimp only
      split
      · rename_i htaken
        refine ⟨Or.inl, fun h => h.resolve_right ?_⟩
        rintro ⟨hfresh, heq⟩
        exact hfresh (Option.some.inj heq ▸ htaken)
      · rename_i hfresh
        rw [List.mem_append, List.mem_singleton]
        refine or_congr_right ⟨?_, fun h => (Option.some.inj h.2).symm⟩
        rintro rfl
        exact ⟨hfresh, rfl⟩

theorem nodup_insertRecord {t : List ρ} (h : (t.map rowKey).Nodup) (a : α) :
    ((insertRecord rowKey toRow t a).map rowKey).Nodup := by
  unfold insertRecord
  cases toRow a with
  | none => exact h
  | some r =>
      dsimp only
      split
      · exact h
      · rename_i hfresh
        rw [List.map_append]
        refine List.Nodup.append h (List.nodup_singleton _) ?_
        intro k hk hr
        exact hfresh (List.mem_singleton.mp hr ▸ hk)

/-- Distinct keys stay distinct. -/
theorem nodup_insertNew {t : List ρ} (h : (t.map rowKey).Nodup) (as : List α) :
    ((insertNew rowKey toRow t as).map rowKey).Nodup := by
  induction as generalizing t with
  | nil => exact h
  | cons a as ih => exact ih (nodup_insertRecord h a)

/-- A key is taken after one insert. -/
theorem mem_keys_insertRecord {t : List ρ} {a : α} {k : κ} :
    k ∈ (insertRecord rowKey toRow t a).map rowKey ↔
      k ∈ t.map rowKey ∨ Accepted rowKey toRow k a = true := by
  rw [accepted_iff]
  constructor
  · intro h
    obtain ⟨r, hr, rfl⟩ := List.mem_map.mp h
    rcases mem_insertRecord.mp hr with hr | ⟨-, ha⟩
    · exact Or.inl (mem_keys_of_mem hr)
    · exact Or.inr ⟨r, ha, rfl⟩
  · rintro (h | ⟨r, ha, rfl⟩)
    · obtain ⟨r, hr, rfl⟩ := List.mem_map.mp h
      exact mem_keys_of_mem (mem_insertRecord.mpr (Or.inl hr))
    · by_cases htaken : rowKey r ∈ t.map rowKey
      · obtain ⟨r', hr', heq⟩ := List.mem_map.mp htaken
        rw [← heq]
        exact mem_keys_of_mem (mem_insertRecord.mpr (Or.inl hr'))
      · exact mem_keys_of_mem (mem_insertRecord.mpr (Or.inr ⟨htaken, ha⟩))

/-- A row of the result was there before, or is the row of the first accepted record of its
    key, which no row had before. -/
theorem mem_insertNew {t : List ρ} {as : List α} {r : ρ} :
    r ∈ insertNew rowKey toRow t as ↔
      r ∈ t ∨ (rowKey r ∉ t.map rowKey ∧
        ∃ a, as.find? (Accepted rowKey toRow (rowKey r)) = some a ∧ toRow a = some r) := by
  induction as generalizing t with
  | nil => simp [insertNew]
  | cons a as ih =>
      change r ∈ insertNew rowKey toRow (insertRecord rowKey toRow t a) as ↔ _
      rw [ih, mem_insertRecord, mem_keys_insertRecord, not_or]
      cases ha : Accepted rowKey toRow (rowKey r) a with
      | true =>
          rw [List.find?_cons_of_pos ha]
          simp
      | false =>
          have hrow : toRow a ≠ some r := by
            intro h
            have htrue : Accepted rowKey toRow (rowKey r) a = true :=
              accepted_iff.mpr ⟨r, h, rfl⟩
            exact Bool.false_ne_true (ha.symm.trans htrue)
          rw [List.find?_cons_of_neg (by rw [ha]; exact Bool.false_ne_true)]
          simp [hrow]

/-- Accepted records with distinct fresh keys are all appended, in their order. -/
theorem insertNew_of_accepts {row : α → ρ} {t : List ρ} {as : List α}
    (hrow : ∀ a ∈ as, toRow a = some (row a))
    (hn : (t.map rowKey ++ as.map (rowKey ∘ row)).Nodup) :
    insertNew rowKey toRow t as = t ++ as.map row := by
  induction as generalizing t with
  | nil => rw [List.map_nil, List.append_nil]; rfl
  | cons a as ih =>
      have ha := hrow a (List.mem_cons_self ..)
      rw [List.map_cons] at hn
      have hfresh : rowKey (row a) ∉ t.map rowKey := fun hm =>
        (List.nodup_append.mp hn).2.2 _ hm _ (List.mem_cons_self ..) rfl
      have hstep : insertRecord rowKey toRow t a = t ++ [row a] := by
        rw [insertRecord, ha]
        exact if_neg hfresh
      change insertNew rowKey toRow (insertRecord rowKey toRow t a) as = _
      rw [hstep, ih (fun b hb => hrow b (List.mem_cons_of_mem _ hb)), List.append_assoc]
      · rfl
      · rw [List.map_append, List.append_assoc]
        exact hn

/-- A loop whose turns do not raise does not raise. -/
theorem isSome_foldlM {β : Type u} {γ : Type v} {f : γ → β → Option γ} {bs : List β}
    (h : ∀ c, ∀ b ∈ bs, (f c b).isSome = true) (c : γ) : (bs.foldlM f c).isSome = true := by
  induction bs generalizing c with
  | nil => rfl
  | cons b bs ih =>
      obtain ⟨c', hc'⟩ := Option.isSome_iff_exists.mp (h c b (List.mem_cons_self ..))
      rw [List.foldlM_cons, hc']
      exact ih (fun c b hb => h c b (List.mem_cons_of_mem _ hb)) c'

/-- A loop whose turns insert the records, where it returns. -/
theorem foldlM_eq_insertNew (Inv : List ρ → Prop) {turn : List ρ → α → Option (List ρ)}
    (hturn : ∀ t t' a, Inv t → turn t a = some t' → t' = insertRecord rowKey toRow t a)
    (hkeep : ∀ t a, Inv t → Inv (insertRecord rowKey toRow t a)) {t t' : List ρ} (ht : Inv t)
    {as : List α} (h : as.foldlM turn t = some t') : t' = insertNew rowKey toRow t as := by
  induction as generalizing t with
  | nil => exact (Option.some.inj h).symm
  | cons a as ih =>
      rw [List.foldlM_cons, Option.bind_eq_bind, Option.bind_eq_some_iff] at h
      obtain ⟨t₁, hfirst, hrest⟩ := h
      obtain rfl := hturn t t₁ a ht hfirst
      exact ih (hkeep t a ht) hrest

/-! ## Matching the rows with the records -/

section Match

variable {δ : Type x} {Same : δ → δ → Prop} {view : ρ → δ} {target : α → δ} {viewKey : δ → κ}
  {key : α → κ}

/-- One to one: the views of the rows, in some order, match the targets of the records. -/
def Matches (Same : δ → δ → Prop) (targets views : List δ) : Prop :=
  ∃ l, l.Perm views ∧ List.Forall₂ Same targets l

/-- The record's own row matches it. -/
def ReadsBack (Same : δ → δ → Prop) (toRow : α → Option ρ) (view : ρ → δ) (target : α → δ)
    (a : α) : Prop :=
  ∃ r, toRow a = some r ∧ Same (target a) (view r)

omit [DecidableEq κ] in
theorem forall₂_keys (hsame : ∀ a b, Same a b → viewKey a = viewKey b) {l l' : List δ}
    (h : List.Forall₂ Same l l') : l.map viewKey = l'.map viewKey := by
  induction h with
  | nil => rfl
  | cons hab _ ih => rw [List.map_cons, List.map_cons, hsame _ _ hab, ih]

/-- In an empty table the rows match the records one to one exactly when each record is read
    back from its own row and no two records share a key. -/
theorem reads_back_iff (hsame : ∀ a b, Same a b → viewKey a = viewKey b)
    (hview : ∀ a r, toRow a = some r → viewKey (view r) = rowKey r)
    (hrowKey : ∀ a r, toRow a = some r → rowKey r = key a)
    (htarget : ∀ a, viewKey (target a) = key a) (as : List α) :
    Matches Same (as.map target) ((insertNew rowKey toRow [] as).map view) ↔
      (∀ a ∈ as, ReadsBack Same toRow view target a) ∧ (as.map key).Nodup := by
  constructor
  · rintro ⟨l, hperm, hall⟩
    have hrows : ∀ r ∈ insertNew rowKey toRow [] as, ∃ a ∈ as, toRow a = some r := by
      intro r hr
      rcases mem_insertNew.mp hr with hr | ⟨-, a, ha, hrow⟩
      · cases hr
      · exact ⟨a, List.mem_of_find?_eq_some ha, hrow⟩
    have hkeys : as.map key = l.map viewKey := by
      rw [← forall₂_keys hsame hall, List.map_map]
      exact List.map_congr_left fun a _ => (htarget a).symm
    have hviews : (l.map viewKey).Perm ((insertNew rowKey toRow [] as).map rowKey) := by
      refine (hperm.map viewKey).trans (List.Perm.of_eq ?_)
      rw [List.map_map]
      refine List.map_congr_left fun r hr => ?_
      obtain ⟨a, -, hrow⟩ := hrows r hr
      exact hview a r hrow
    have hnodup : (as.map key).Nodup := by
      rw [hkeys]
      exact hviews.nodup_iff.mpr (nodup_insertNew (t := []) List.nodup_nil as)
    refine ⟨fun a ha => ?_, hnodup⟩
    obtain ⟨d, hd, hs⟩ := exists_of_mem_forall₂ hall.flip (List.mem_map.mpr ⟨a, ha, rfl⟩)
    obtain ⟨r, hr, rfl⟩ := List.mem_map.mp (hperm.mem_iff.mp hd)
    obtain ⟨b, hb, hrow⟩ := hrows r hr
    have hab : key a = key b := by
      rw [← htarget a, hsame _ _ hs, hview b r hrow, hrowKey b r hrow]
    obtain rfl := List.inj_on_of_nodup_map hnodup ha hb hab
    exact ⟨r, hrow, hs⟩
  · rintro ⟨hback, hnodup⟩
    by_cases hempty : as = []
    · subst hempty
      exact ⟨[], List.Perm.refl _, List.Forall₂.nil⟩
    · obtain ⟨a₀, ha₀⟩ := List.exists_mem_of_ne_nil as hempty
      obtain ⟨r₀, -, -⟩ := hback a₀ ha₀
      let row : α → ρ := fun a => (toRow a).getD r₀
      have hrow : ∀ a ∈ as, toRow a = some (row a) := by
        intro a ha
        obtain ⟨r, hr, -⟩ := hback a ha
        have hget : row a = r := by
          change (toRow a).getD r₀ = r
          rw [hr, Option.getD_some]
        rw [hr, hget]
      have hkeys : as.map (rowKey ∘ row) = as.map key :=
        List.map_congr_left fun a ha => hrowKey a _ (hrow a ha)
      have hinsert : insertNew rowKey toRow [] as = as.map row := by
        rw [insertNew_of_accepts hrow (by rw [hkeys]; exact hnodup), List.nil_append]
      refine ⟨as.map (view ∘ row), ?_, ?_⟩
      · rw [hinsert, List.map_map]
      · rw [List.forall₂_map_left_iff, List.forall₂_map_right_iff, List.forall₂_same]
        intro a ha
        obtain ⟨r, hr, hs⟩ := hback a ha
        have hget : row a = r := Option.some.inj ((hrow a ha).symm.trans hr)
        change Same (target a) (view (row a))
        rw [hget]
        exact hs

/-- A document has a matching row after the inserts exactly when a row from before matches
    it, or no row had its key and the first accepted record of that key has one. -/
theorem exists_same_iff (hsame : ∀ a b, Same a b → viewKey a = viewKey b)
    (hview : ∀ r, viewKey (view r) = rowKey r) {t : List ρ} {as : List α} {d : δ} {k : κ}
    (hd : viewKey d = k) :
    (∃ r ∈ insertNew rowKey toRow t as, Same d (view r)) ↔
      (∃ r ∈ t, Same d (view r)) ∨
        (k ∉ t.map rowKey ∧ ∃ a r, as.find? (Accepted rowKey toRow k) = some a ∧
          toRow a = some r ∧ Same d (view r)) := by
  constructor
  · rintro ⟨r, hr, hs⟩
    have hkey : rowKey r = k := by rw [← hview r, ← hsame _ _ hs, hd]
    rcases mem_insertNew.mp hr with hr | ⟨hfresh, a, ha, hrow⟩
    · exact Or.inl ⟨r, hr, hs⟩
    · rw [hkey] at hfresh ha
      exact Or.inr ⟨hfresh, a, r, ha, hrow, hs⟩
  · rintro (⟨r, hr, hs⟩ | ⟨hfresh, a, r, ha, hrow, hs⟩)
    · exact ⟨r, mem_insertNew.mpr (Or.inl hr), hs⟩
    · obtain ⟨r', hrow', hkey⟩ := accepted_iff.mp (List.find?_some ha)
      obtain rfl := Option.some.inj (hrow.symm.trans hrow')
      subst hkey
      exact ⟨r, mem_insertNew.mpr (Or.inr ⟨hfresh, a, ha, hrow⟩), hs⟩

end Match

end KeyedInsert
