/-
  Dictionaries that keep their items in the order in which the keys came, as Python's do.

  * `mem_items_set`, `mem_keys_set`: an assignment gives its key the value and leaves the others.
  * `mem_of_mem_setAll`, `mem_keys_setAll`: what is there after some assignments.
  * `items_setAll`: assignments to distinct keys are the items.
-/
import Mathlib.Data.List.Nodup

universe u v

/-- No key has two items. -/
structure Dict (κ : Type u) (ν : Type v) where
  items : List (κ × ν)
  nodup : (items.map (·.1)).Nodup

namespace Dict

variable {κ : Type u} {ν : Type v}

def empty : Dict κ ν := ⟨[], List.nodup_nil⟩

def keys (d : Dict κ ν) : List κ := d.items.map (·.1)

section Assign

variable [DecidableEq κ]

/-- Where `k` is a key, its value is replaced in place. -/
def replaced (items : List (κ × ν)) (k : κ) (v : ν) : List (κ × ν) :=
  items.map fun e => if e.1 = k then (k, v) else e

theorem keys_replaced (items : List (κ × ν)) (k : κ) (v : ν) :
    (replaced items k v).map (·.1) = items.map (·.1) := by
  rw [replaced, List.map_map]
  refine List.map_congr_left fun e _ => ?_
  show (if e.1 = k then (k, v) else e).1 = e.1
  split
  · rename_i heq
    exact heq.symm
  · rfl

/-- `d[k] = v`. -/
def set (d : Dict κ ν) (k : κ) (v : ν) : Dict κ ν :=
  if h : k ∈ d.keys then ⟨replaced d.items k v, (keys_replaced d.items k v).symm ▸ d.nodup⟩
  else
    ⟨d.items ++ [(k, v)], by
      rw [List.map_append, List.nodup_append]
      refine ⟨d.nodup, List.nodup_singleton k, fun a ha b hb heq => h ?_⟩
      obtain rfl := List.mem_singleton.mp hb
      exact heq ▸ ha⟩

/-- `d[k] = v` for each of some pairs. -/
def setAll (d : Dict κ ν) (es : List (κ × ν)) : Dict κ ν :=
  es.foldl (fun d e => d.set e.1 e.2) d

theorem set_of_notMem {d : Dict κ ν} {k : κ} (h : k ∉ d.keys) (v : ν) :
    (d.set k v).items = d.items ++ [(k, v)] := by
  rw [set, dif_neg h]

theorem mem_items_set {d : Dict κ ν} {k : κ} {v : ν} {e : κ × ν} :
    e ∈ (d.set k v).items ↔ e = (k, v) ∨ (e ∈ d.items ∧ e.1 ≠ k) := by
  unfold set
  split
  · rename_i hk
    show e ∈ replaced d.items k v ↔ _
    rw [replaced, List.mem_map]
    constructor
    · rintro ⟨e', he', rfl⟩
      split
      · exact Or.inl rfl
      · rename_i hne
        exact Or.inr ⟨he', hne⟩
    · rintro (rfl | ⟨he, hne⟩)
      · obtain ⟨e', he', hkey⟩ := List.mem_map.mp hk
        exact ⟨e', he', if_pos hkey⟩
      · exact ⟨e, he, if_neg hne⟩
  · rename_i hk
    show e ∈ d.items ++ [(k, v)] ↔ _
    rw [List.mem_append, List.mem_singleton, or_comm]
    refine or_congr_right (iff_self_and.mpr fun he heq => hk ?_)
    exact heq ▸ List.mem_map_of_mem he

theorem mem_keys_set {d : Dict κ ν} {k k' : κ} {v : ν} :
    k' ∈ (d.set k v).keys ↔ k' = k ∨ k' ∈ d.keys := by
  by_cases hk : k ∈ d.keys
  · have hkeys : (d.set k v).keys = d.keys := by
      rw [set, dif_pos hk]
      exact keys_replaced d.items k v
    rw [hkeys]
    refine ⟨Or.inr, ?_⟩
    rintro (rfl | hmem)
    · exact hk
    · exact hmem
  · rw [keys, set_of_notMem hk, List.map_append, List.mem_append, List.map_singleton,
      List.mem_singleton]
    exact or_comm

theorem setAll_cons (d : Dict κ ν) (e : κ × ν) (es : List (κ × ν)) :
    d.setAll (e :: es) = (d.set e.1 e.2).setAll es := rfl

theorem mem_of_mem_setAll {d : Dict κ ν} {es : List (κ × ν)} {e : κ × ν}
    (h : e ∈ (d.setAll es).items) : e ∈ d.items ∨ e ∈ es := by
  induction es generalizing d with
  | nil => exact Or.inl h
  | cons a es ih =>
      rcases ih h with hset | hes
      · rcases mem_items_set.mp hset with rfl | ⟨he, -⟩
        · exact Or.inr (List.mem_cons_self ..)
        · exact Or.inl he
      · exact Or.inr (List.mem_cons_of_mem _ hes)

theorem mem_keys_setAll {d : Dict κ ν} {es : List (κ × ν)} {k : κ} :
    k ∈ (d.setAll es).keys ↔ k ∈ d.keys ∨ k ∈ es.map (·.1) := by
  induction es generalizing d with
  | nil => simp [setAll]
  | cons a es ih =>
      rw [setAll_cons, ih, mem_keys_set, List.map_cons, List.mem_cons, ← or_assoc,
        or_comm (a := k = a.1)]

/-- New keys come after the others. -/
theorem items_setAll {d : Dict κ ν} {es : List (κ × ν)}
    (h : ((d.items ++ es).map (·.1)).Nodup) : (d.setAll es).items = d.items ++ es := by
  induction es generalizing d with
  | nil => exact (List.append_nil _).symm
  | cons e es ih =>
      have hnew : e.1 ∉ d.keys := by
        intro hmem
        rw [List.map_append, List.nodup_append] at h
        exact h.2.2 _ hmem _ (List.mem_cons_self ..) rfl
      have hitems := set_of_notMem hnew e.2
      have hmoved : d.items ++ e :: es = d.items ++ [(e.1, e.2)] ++ es := by simp
      rw [setAll_cons, ih, hitems, hmoved]
      rwa [hitems, ← hmoved]

end Assign

end Dict
