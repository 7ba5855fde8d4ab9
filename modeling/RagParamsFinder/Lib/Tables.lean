/-
  Tables with a primary key: rows in insertion order, each under its key.

  `insertOrIgnore` is `INSERT OR IGNORE`, `modify` is `UPDATE … WHERE key = k` and `put` is
  the assignment `t[k] = r` of a dictionary. A key is looked up at its first row.

  Proved: what each operation does to the row found under any key, and that the operations
  keep two tables related when they act on related rows (`Rel.insertOrIgnore`, `Rel.modify`).
-/
import Mathlib.Data.List.Nodup

namespace Tables

universe u v

/-- A table keyed by strings. -/
abbrev Table (ρ : Type u) := List (String × ρ)

namespace Table

variable {ρ : Type u}

def keys (t : Table ρ) : List String := t.map (·.1)

def find (t : Table ρ) (k : String) : Option ρ := t.lookup k

def insertOrIgnore (t : Table ρ) (k : String) (r : ρ) : Table ρ :=
  if (find t k).isSome then t else t ++ [(k, r)]

def modify (t : Table ρ) (k : String) (f : ρ → ρ) : Table ρ :=
  t.map fun kr => (kr.1, if kr.1 = k then f kr.2 else kr.2)

/-- `t[k] = r` of a dictionary: in place when the key is there, else at the end. -/
def put (t : Table ρ) (k : String) (r : ρ) : Table ρ :=
  if k ∈ keys t then modify t k fun _ => r else t ++ [(k, r)]

theorem find_cons_self (t : Table ρ) (k : String) (r : ρ) : find ((k, r) :: t) k = some r := by
  simp [find]

theorem find_cons_of_ne (t : Table ρ) {k k' : String} (h : k' ≠ k) (r : ρ) :
    find ((k', r) :: t) k = find t k := by
  have hb : (k == k') = false := by simpa using Ne.symm h
  simp [find, List.lookup_cons, hb]

theorem find_append (t t' : Table ρ) (k : String) :
    find (t ++ t') k = (find t k).or (find t' k) := by
  induction t with
  | nil => rfl
  | cons kr t ih =>
      obtain ⟨k', r⟩ := kr
      by_cases hk : k' = k
      · subst hk
        rw [List.cons_append, find_cons_self, find_cons_self, Option.some_or]
      · rw [List.cons_append, find_cons_of_ne _ hk, find_cons_of_ne _ hk, ih]

theorem find_insertOrIgnore_self (t : Table ρ) (k : String) (r : ρ) :
    find (insertOrIgnore t k r) k = (find t k).or (some r) := by
  unfold insertOrIgnore
  cases h : find t k with
  | some r' => simp [h]
  | none => simp [find_append, h, find_cons_self]

theorem find_insertOrIgnore_of_ne (t : Table ρ) {k k' : String} (h : k ≠ k') (r : ρ) :
    find (insertOrIgnore t k r) k' = find t k' := by
  unfold insertOrIgnore
  split
  · rfl
  · rw [find_append, find_cons_of_ne _ h]
    exact Option.or_none

theorem find_modify (t : Table ρ) (k : String) (f : ρ → ρ) (k' : String) :
    find (modify t k f) k' = if k' = k then (find t k').map f else find t k' := by
  induction t with
  | nil => simp [modify, find]
  | cons kr t ih =>
      obtain ⟨k₀, r⟩ := kr
      change find ((k₀, _) :: modify t k f) k' = _
      by_cases hk : k₀ = k'
      · subst hk
        rw [find_cons_self, find_cons_self]
        split <;> rfl
      · rw [find_cons_of_ne _ hk, find_cons_of_ne _ hk, ih]

theorem keys_modify (t : Table ρ) (k : String) (f : ρ → ρ) : keys (modify t k f) = keys t := by
  simp [keys, modify, Function.comp_def]

theorem find_eq_none_iff {t : Table ρ} {k : String} : find t k = none ↔ k ∉ keys t := by
  induction t with
  | nil => simp [find, keys]
  | cons kr t ih =>
      obtain ⟨k', r⟩ := kr
      by_cases hk : k' = k
      · subst hk
        simp [find_cons_self, keys]
      · rw [find_cons_of_ne _ hk, ih]
        simp [keys, Ne.symm hk]

theorem keys_put (t : Table ρ) (k : String) (r : ρ) :
    keys (put t k r) = if k ∈ keys t then keys t else keys t ++ [k] := by
  unfold put
  split
  · exact keys_modify t k _
  · simp [keys]

theorem find_put (t : Table ρ) (k : String) (r : ρ) (k' : String) :
    find (put t k r) k' = if k' = k then some r else find t k' := by
  unfold put
  split
  · rename_i hk
    rw [find_modify]
    by_cases h : k' = k
    · subst h
      obtain ⟨r', hr'⟩ := Option.ne_none_iff_exists'.mp (fun hn => find_eq_none_iff.mp hn hk)
      rw [if_pos rfl, if_pos rfl, hr', Option.map_some]
    · rw [if_neg h, if_neg h]
  · rename_i hk
    rw [find_append]
    by_cases h : k' = k
    · subst h
      rw [find_eq_none_iff.mpr hk, find_cons_self, Option.none_or, if_pos rfl]
    · rw [find_cons_of_ne _ (Ne.symm h), if_neg h]
      exact Option.or_none

/-! ## Tables related key by key -/

section Rel

variable {σ : Type v} {R : ρ → σ → Prop}

/-- The same keys, with related rows. -/
def Rel (R : ρ → σ → Prop) (t : Table ρ) (t' : Table σ) : Prop :=
  ∀ k, Option.Rel R (find t k) (find t' k)

theorem Rel.empty : Rel R ([] : Table ρ) ([] : Table σ) := fun _ => Option.Rel.none

theorem Rel.isSome_eq {t : Table ρ} {t' : Table σ} (h : Rel R t t') (k : String) :
    (find t k).isSome = (find t' k).isSome := by
  have hk := h k
  generalize find t k = r, find t' k = r' at hk
  cases hk <;> rfl

theorem Rel.insertOrIgnore {t : Table ρ} {t' : Table σ} (h : Rel R t t') (k : String)
    {r : ρ} {r' : σ} (hr : R r r') :
    Rel R (Table.insertOrIgnore t k r) (Table.insertOrIgnore t' k r') := by
  intro k'
  by_cases hk : k = k'
  · subst hk
    rw [find_insertOrIgnore_self, find_insertOrIgnore_self]
    have hold := h k
    generalize find t k = x, find t' k = x' at hold
    cases hold with
    | none => exact Option.Rel.some hr
    | some hx => exact Option.Rel.some hx
  · rw [find_insertOrIgnore_of_ne t hk, find_insertOrIgnore_of_ne t' hk]
    exact h k'

theorem Rel.modify {t : Table ρ} {t' : Table σ} (h : Rel R t t') (k : String)
    {f : ρ → ρ} {g : σ → σ} (hfg : ∀ r r', R r r' → R (f r) (g r')) :
    Rel R (Table.modify t k f) (Table.modify t' k g) := by
  intro k'
  rw [find_modify, find_modify]
  split
  · have hold := h k'
    generalize find t k' = x, find t' k' = x' at hold
    cases hold with
    | none => exact Option.Rel.none
    | some hx => exact Option.Rel.some (hfg _ _ hx)
  · exact h k'

end Rel

end Table

end Tables
