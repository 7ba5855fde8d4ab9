/-
  A read-through cache: the answer to a request is kept under a key that is derived from the
  request, and whatever is kept under the key answers the next request that has it.

  `Coherent`: what is kept answers every request it would be used for. It is kept by filling in
  an answer when requests of one key have one answer (`Coherent.put`), and lost by filling in
  anything else (`not_coherent_put`).
-/
import Mathlib.Data.Set.Basic
import Mathlib.Logic.Function.Basic

namespace ReadThrough

universe u v w

variable {ρ : Type u} {κ : Type v} {β : Type w} (key : ρ → κ) (answer : ρ → β) (requests : Set ρ)

/-- Requests of one key have one answer. -/
def Apart : Prop :=
  ∀ r ∈ requests, ∀ s ∈ requests, key r = key s → answer r = answer s

/-- Whatever is kept under the key of a request answers it. -/
def Coherent (cache : κ → Option β) : Prop :=
  ∀ r ∈ requests, ∀ b, cache (key r) = some b → b = answer r

theorem coherent_empty : Coherent key answer requests fun _ => none := by
  rintro r - b ⟨⟩

variable [DecidableEq κ]

/-- Keep `b` under the key `k`. -/
def put (cache : κ → Option β) (k : κ) (b : β) : κ → Option β := Function.update cache k (some b)

theorem put_self (cache : κ → Option β) (k : κ) (b : β) : put cache k b k = some b := by
  unfold put
  rw [Function.update_self]

theorem put_of_ne (cache : κ → Option β) {k k' : κ} (h : k' ≠ k) (b : β) :
    put cache k b k' = cache k' := by
  unfold put
  rw [Function.update_of_ne h]

variable {key answer requests}

theorem Coherent.put {cache : κ → Option β} (h : Coherent key answer requests cache)
    (hapart : Apart key answer requests) {r : ρ} (hr : r ∈ requests) :
    Coherent key answer requests (put cache (key r) (answer r)) := by
  intro s hs b hb
  by_cases hkey : key s = key r
  · rw [hkey, put_self] at hb
    exact (Option.some.inj hb).symm.trans (hapart r hr s hs hkey.symm)
  · rw [put_of_ne cache hkey] at hb
    exact h s hs b hb

theorem not_coherent_put (cache : κ → Option β) {r : ρ} (hr : r ∈ requests) {b : β}
    (hb : b ≠ answer r) : ¬Coherent key answer requests (put cache (key r) b) :=
  fun h => hb (h r hr b (put_self cache (key r) b))

end ReadThrough
