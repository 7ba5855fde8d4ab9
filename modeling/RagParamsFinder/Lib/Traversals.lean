/-
  Traversals of a list by a function that may fail (`List.mapM` in `Option` and in `Except`).

  * `forall₂_of_mapM`: a traversal that succeeds relates the entries to the results one by one.
  * `exists_mapM_iff`: it succeeds if and only if the function does on every entry.
  * `mapM_eq_some_map`, `exists_mapM_some`: the same in `Option`, for a known function and for a
    known relation. `forall₂_of_mapM_some`, `mapM_some_of_forall₂`: back and forth.
  * `mapM_filter_some`: what it makes of the entries that a test selects.
-/
import Mathlib.Data.List.Forall2

namespace Traversals

universe u

variable {ε α β : Type u}

theorem of_error_eq_ok {e : ε} {a : α} {p : Prop} (h : (.error e : Except ε α) = .ok a) : p := by
  cases h

theorem toOption_eq_some {x : Except ε α} {a : α} : x.toOption = some a ↔ x = .ok a := by
  cases x <;> simp [Except.toOption]

theorem bind_eq_ok {x : Except ε α} {f : α → Except ε β} {b : β} :
    (x >>= f) = .ok b ↔ ∃ a, x = .ok a ∧ f a = .ok b := by
  cases x with
  | error e =>
      constructor
      · intro h
        cases h
      · rintro ⟨_, h, _⟩
        cases h
  | ok a =>
      constructor
      · exact fun h => ⟨a, rfl, h⟩
      · rintro ⟨a', ha, h⟩
        obtain rfl := Except.ok.inj ha
        exact h

theorem mapError_eq_ok {ε' : Type u} {x : Except ε α} {f : ε → ε'} {a : α} :
    x.mapError f = .ok a ↔ x = .ok a := by
  cases x with
  | error e =>
      constructor
      · intro h
        cases h
      · intro h
        cases h
  | ok b =>
      constructor
      · exact fun h => congrArg Except.ok (Except.ok.inj h)
      · exact fun h => congrArg Except.ok (Except.ok.inj h)

/-- An entry on the right is related to one on the left. -/
theorem exists_of_mem_forall₂ {R : α → β → Prop} {xs : List α} {ys : List β}
    (h : List.Forall₂ R xs ys) {y : β} (hy : y ∈ ys) : ∃ x ∈ xs, R x y := by
  induction h with
  | nil => cases hy
  | @cons x y' xs ys hxy _ ih =>
      rcases List.mem_cons.mp hy with rfl | hy
      · exact ⟨x, List.mem_cons_self .., hxy⟩
      · obtain ⟨x', hx', hR⟩ := ih hy
        exact ⟨x', List.mem_cons_of_mem _ hx', hR⟩

/-- Related lists are related entry by entry. -/
theorem getElem?_of_forall₂ {R : α → β → Prop} {xs : List α} {ys : List β}
    (h : List.Forall₂ R xs ys) {k : Nat} {x : α} (hx : xs[k]? = some x) :
    ∃ y, ys[k]? = some y ∧ R x y := by
  obtain ⟨hk, rfl⟩ := List.getElem?_eq_some_iff.mp hx
  have hk' : k < ys.length := h.length_eq ▸ hk
  exact ⟨ys[k], List.getElem?_eq_getElem hk', h.get hk hk'⟩

theorem forall₂_imp_of_mem {R S : α → β → Prop} {xs : List α} {ys : List β}
    (h : List.Forall₂ R xs ys) (himp : ∀ x ∈ xs, ∀ y, R x y → S x y) : List.Forall₂ S xs ys := by
  induction h with
  | nil => exact .nil
  | @cons x y xs ys hxy _ ih =>
      obtain ⟨hx, hxs⟩ := List.forall_mem_cons.mp himp
      exact .cons (hx y hxy) (ih hxs)

theorem forall₂_of_mapM {f : α → Except ε β} {xs : List α} {ys : List β}
    (h : xs.mapM f = .ok ys) : List.Forall₂ (fun x y => f x = .ok y) xs ys := by
  induction xs generalizing ys with
  | nil =>
      obtain rfl := Except.ok.inj h
      exact .nil
  | cons x xs ih =>
      rw [List.mapM_cons] at h
      obtain ⟨y, hy, h⟩ := bind_eq_ok.mp h
      obtain ⟨ys', hys, h⟩ := bind_eq_ok.mp h
      obtain rfl := Except.ok.inj h
      exact .cons hy (ih hys)

theorem mapM_of_forall₂ {f : α → Except ε β} {xs : List α} {ys : List β}
    (h : List.Forall₂ (fun x y => f x = .ok y) xs ys) : xs.mapM f = .ok ys := by
  induction h with
  | nil => rfl
  | cons hxy _ ih =>
      rw [List.mapM_cons, hxy, ih]
      rfl

/-- A traversal whose results, where it has them, are those of a function. -/
theorem eq_map_of_mapM {f : α → Except ε β} {g : α → β} (hg : ∀ x y, f x = .ok y → y = g x)
    {xs : List α} {ys : List β} (h : xs.mapM f = .ok ys) : ys = xs.map g := by
  rw [eq_comm, ← List.forall₂_eq_eq_eq, List.forall₂_map_left_iff]
  exact (forall₂_of_mapM h).imp fun x y hxy => (hg x y hxy).symm

theorem exists_mapM_iff {f : α → Except ε β} {xs : List α} :
    (∃ ys, xs.mapM f = .ok ys) ↔ ∀ x ∈ xs, ∃ y, f x = .ok y := by
  constructor
  · rintro ⟨ys, h⟩ x hx
    obtain ⟨y, -, hy⟩ := exists_of_mem_forall₂ (forall₂_of_mapM h).flip hx
    exact ⟨y, hy⟩
  · intro h
    induction xs with
    | nil => exact ⟨[], rfl⟩
    | cons x xs ih =>
        obtain ⟨y, hy⟩ := h x (List.mem_cons_self ..)
        obtain ⟨ys, hys⟩ := ih fun x' hx' => h x' (List.mem_cons_of_mem _ hx')
        refine ⟨y :: ys, ?_⟩
        rw [List.mapM_cons, hy, bind_eq_ok]
        exact ⟨y, rfl, bind_eq_ok.mpr ⟨ys, hys, rfl⟩⟩

/-- Functions that agree up to a map have traversals that agree up to it. -/
theorem map_mapM_congr {f g : α → Except ε β} {γ : Type u} {r : β → γ}
    (h : ∀ a, (f a).map r = (g a).map r) (xs : List α) :
    (xs.mapM f).map (List.map r) = (xs.mapM g).map (List.map r) := by
  have hall : ∀ f : α → Except ε β,
      (xs.mapM f).map (List.map r) = xs.mapM fun a => (f a).map r := by
    intro f
    induction xs with
    | nil => rfl
    | cons a xs ih =>
        rw [List.mapM_cons, List.mapM_cons, ← ih]
        cases f a with
        | error e => rfl
        | ok b => cases xs.mapM f <;> rfl
  rw [hall, hall, funext h]

theorem eq_map_ok_of_mapM_id {xs : List (Except ε α)} {ys : List α}
    (h : xs.mapM id = .ok ys) : xs = ys.map .ok := by
  rw [← List.forall₂_eq_eq_eq, List.forall₂_map_right_iff]
  exact forall₂_of_mapM h

theorem mapM_eq_some_map {f : α → Option β} {g : α → β} {xs : List α}
    (h : ∀ x ∈ xs, f x = some (g x)) : xs.mapM f = some (xs.map g) := by
  induction xs with
  | nil => rfl
  | cons x xs ih =>
      rw [List.mapM_cons, h x (List.mem_cons_self ..),
        ih fun y hy => h y (List.mem_cons_of_mem _ hy)]
      rfl

theorem exists_mapM_some {f : α → Option β} {R : α → β → Prop} {xs : List α}
    (h : ∀ x ∈ xs, ∃ y, f x = some y ∧ R x y) :
    ∃ ys, xs.mapM f = some ys ∧ List.Forall₂ R xs ys := by
  induction xs with
  | nil => exact ⟨[], rfl, .nil⟩
  | cons x xs ih =>
      obtain ⟨y, hy, hR⟩ := h x (List.mem_cons_self ..)
      obtain ⟨ys, hys, hall⟩ := ih fun x' hx' => h x' (List.mem_cons_of_mem _ hx')
      refine ⟨y :: ys, ?_, .cons hR hall⟩
      rw [List.mapM_cons, hy, hys]
      rfl

theorem forall₂_of_mapM_some {f : α → Option β} {xs : List α} {ys : List β}
    (h : xs.mapM f = some ys) : List.Forall₂ (fun x y => f x = some y) xs ys := by
  induction xs generalizing ys with
  | nil =>
      obtain rfl := Option.some.inj h
      exact .nil
  | cons x xs ih =>
      rw [List.mapM_cons] at h
      obtain ⟨y, hy, h⟩ := Option.bind_eq_some_iff.mp h
      obtain ⟨ys', hys, h⟩ := Option.bind_eq_some_iff.mp h
      obtain rfl := Option.some.inj h
      exact .cons hy (ih hys)

theorem mapM_some_of_forall₂ {f : α → Option β} {xs : List α} {ys : List β}
    (h : List.Forall₂ (fun x y => f x = some y) xs ys) : xs.mapM f = some ys := by
  induction h with
  | nil => rfl
  | cons hxy _ ih =>
      rw [List.mapM_cons, hxy, ih]
      rfl

theorem mapM_map_some {γ : Type u} (g : α → β) (f : β → Option γ) (xs : List α) :
    (xs.map g).mapM f = xs.mapM fun x => f (g x) := by
  induction xs with
  | nil => rfl
  | cons x xs ih => rw [List.map_cons, List.mapM_cons, List.mapM_cons, ih]

theorem mapM_option_map {γ : Type u} (f : α → Option β) (g : β → γ) (xs : List α) :
    (xs.mapM fun x => (f x).map g) = (xs.mapM f).map (List.map g) := by
  induction xs with
  | nil => rfl
  | cons x xs ih =>
      rw [List.mapM_cons, List.mapM_cons, ih]
      cases f x with
      | none => rfl
      | some y => cases xs.mapM f <;> rfl

/-- What a traversal makes of the entries that a test selects. -/
theorem mapM_filter_some {f : α → Option β} {p : α → Bool} {q : β → Bool}
    (hpq : ∀ x y, f x = some y → q y = p x) {xs : List α} {ys : List β}
    (h : xs.mapM f = some ys) : (xs.filter p).mapM f = some (ys.filter q) := by
  refine mapM_some_of_forall₂ ?_
  have hall := forall₂_of_mapM_some h
  clear h
  induction hall with
  | nil => exact .nil
  | @cons x y xs ys hxy _ ih =>
      cases hp : p x with
      | true =>
          rw [List.filter_cons_of_pos hp, List.filter_cons_of_pos ((hpq x y hxy).trans hp)]
          exact .cons hxy ih
      | false =>
          have hq : ¬q y = true := by rw [hpq x y hxy, hp]; decide
          rw [List.filter_cons_of_neg (by simp [hp]), List.filter_cons_of_neg hq]
          exact ih

end Traversals
