/-
  Lists cut at a separator.

  * `append_cons_inj_of_not_mem`: the first separator determines both sides.
  * `append_cons_inj_of_not_mem_right`: so does the last one.
  * `underscore_toDigits_inj`: a name and a number, joined by an underscore, are read back.
-/
import Mathlib.Data.List.Basic

namespace Delimited

universe u

variable {α : Type u}

/-- Cut at the first separator. -/
theorem append_cons_inj_of_not_mem {c : α} {a a' b b' : List α} (ha : c ∉ a) (ha' : c ∉ a')
    (h : a ++ c :: b = a' ++ c :: b') : a = a' ∧ b = b' := by
  induction a generalizing a' with
  | nil =>
      cases a' with
      | nil => exact ⟨rfl, (List.cons.inj h).2⟩
      | cons x a' => exact absurd ((List.cons.inj h).1 ▸ List.mem_cons_self ..) ha'
  | cons x a ih =>
      cases a' with
      | nil => exact absurd ((List.cons.inj h).1 ▸ List.mem_cons_self ..) ha
      | cons y a' =>
          obtain ⟨rfl, htail⟩ := List.cons.inj h
          obtain ⟨rfl, hb⟩ := ih (fun hc => ha (List.mem_cons_of_mem _ hc))
            (fun hc => ha' (List.mem_cons_of_mem _ hc)) htail
          exact ⟨rfl, hb⟩

/-- Cut at the last separator. -/
theorem append_cons_inj_of_not_mem_right {c : α} {a a' b b' : List α} (hb : c ∉ b)
    (hb' : c ∉ b') (h : a ++ c :: b = a' ++ c :: b') : a = a' ∧ b = b' := by
  have hrev := congrArg List.reverse h
  simp only [List.reverse_append, List.reverse_cons, List.append_assoc, List.singleton_append]
    at hrev
  obtain ⟨hbs, has⟩ := append_cons_inj_of_not_mem (mt List.mem_reverse.mp hb)
    (mt List.mem_reverse.mp hb') hrev
  exact ⟨List.reverse_injective has, List.reverse_injective hbs⟩

theorem toDigits_inj {n m : Nat} (h : Nat.toDigits 10 n = Nat.toDigits 10 m) : n = m := by
  have hback := congrArg (Nat.ofDigitChars 10 · 0) h
  simpa only [Nat.ofDigitChars_ten_toDigits] using hback

/-- A name is told from the decimal number behind it, even if it has underscores itself. -/
theorem underscore_toDigits_inj {a a' : List Char} {n m : Nat}
    (h : a ++ '_' :: Nat.toDigits 10 n = a' ++ '_' :: Nat.toDigits 10 m) : a = a' ∧ n = m := by
  obtain ⟨ha, hn⟩ := append_cons_inj_of_not_mem_right Nat.underscore_not_in_toDigits
    Nat.underscore_not_in_toDigits h
  exact ⟨ha, toDigits_inj hn⟩

end Delimited
