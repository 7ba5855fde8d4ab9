/-
  Escaping by a table: the listed characters are written with an escape character before
  them. A reader takes the character after an escape character as it is, and stops at any
  other special one.

  * `readWord_escape`: an escaped word of safe characters is read back, up to what follows it.
  * `safe_of_readWord_escape`: only such words are read back, whatever the reader makes of the
    delimiter that follows them.
-/
import Mathlib.Data.List.Basic

namespace Escaping

universe u

variable {α : Type u} (esc : α) (listed special : α → Bool)

/-- A word as it is written. -/
def escape (v : List α) : List α := v.flatMap fun c => if listed c then [esc, c] else [c]

/-- Every character is listed, or neither the escape character nor special. -/
def Escapable (v : List α) : Prop := ∀ c ∈ v, listed c = true ∨ (c ≠ esc ∧ special c = false)

/-- The reader stops here. -/
def Stops : List α → Prop
  | [] => True
  | c :: _ => c ≠ esc ∧ special c = true

/-- A special character, after which the reader stops as well. -/
def Delimits : List α → Prop
  | [] => True
  | c :: cs => c ≠ esc ∧ special c = true ∧ Stops esc special cs

/-- The word that is read first, and what is left. -/
def readWord [DecidableEq α] : List α → List α × List α
  | [] => ([], [])
  | [c] => if c = esc ∨ special c then ([], [c]) else ([c], [])
  | c :: d :: cs =>
      if c = esc then (d :: (readWord cs).1, (readWord cs).2)
      else if special c then ([], c :: d :: cs)
      else (c :: (readWord (d :: cs)).1, (readWord (d :: cs)).2)

section Words

variable {esc listed special}

theorem Delimits.stops {cs : List α} (h : Delimits esc special cs) : Stops esc special cs := by
  cases cs with
  | nil => trivial
  | cons c cs => exact ⟨h.1, h.2.1⟩

theorem escape_cons_listed {c : α} (h : listed c = true) (v : List α) :
    escape esc listed (c :: v) = esc :: c :: escape esc listed v := by
  simp [escape, h]

theorem escape_cons_unlisted {c : α} (h : listed c = false) (v : List α) :
    escape esc listed (c :: v) = c :: escape esc listed v := by
  simp [escape, h]

theorem safe_cons {c : α} {v : List α} : Escapable esc listed special (c :: v) ↔
    (listed c = true ∨ (c ≠ esc ∧ special c = false)) ∧ Escapable esc listed special v :=
  List.forall_mem_cons

end Words

variable {esc listed special} [DecidableEq α]

/-! ## One character -/

theorem readWord_esc (c : α) (cs : List α) : readWord esc special (esc :: c :: cs) =
    (c :: (readWord esc special cs).1, (readWord esc special cs).2) := if_pos rfl

theorem readWord_of_stops {cs : List α} (h : Stops esc special cs) :
    readWord esc special cs = ([], cs) := by
  match cs, h with
  | [], _ => rfl
  | [c], h => exact if_pos (Or.inr h.2)
  | c :: d :: cs, h => rw [readWord, if_neg h.1, if_pos h.2]

theorem readWord_plain {c : α} (hesc : c ≠ esc) (hspecial : special c = false) (cs : List α) :
    readWord esc special (c :: cs) =
      (c :: (readWord esc special cs).1, (readWord esc special cs).2) := by
  cases cs with
  | nil =>
      have hneither : ¬(c = esc ∨ special c = true) := by simp [hesc, hspecial]
      exact if_neg hneither
  | cons d cs => rw [readWord, if_neg hesc, if_neg (by simp [hspecial])]

/-- A safe character is read back. -/
theorem readWord_escape_cons {c : α} (h : listed c = true ∨ (c ≠ esc ∧ special c = false))
    (v tail : List α) : readWord esc special (escape esc listed (c :: v) ++ tail) =
      (c :: (readWord esc special (escape esc listed v ++ tail)).1,
        (readWord esc special (escape esc listed v ++ tail)).2) := by
  by_cases hlisted : listed c = true
  · rw [escape_cons_listed hlisted, List.cons_append, List.cons_append, readWord_esc]
  · obtain ⟨hesc, hspecial⟩ := h.resolve_left hlisted
    rw [escape_cons_unlisted (Bool.eq_false_iff.mpr hlisted), List.cons_append,
      readWord_plain hesc hspecial]

/-! ## Words -/

/-- An escaped word of safe characters is read back. -/
theorem readWord_escape {v : List α} (hv : Escapable esc listed special v) {tail : List α}
    (htail : Stops esc special tail) :
    readWord esc special (escape esc listed v ++ tail) = (v, tail) := by
  induction v with
  | nil => exact readWord_of_stops htail
  | cons c v ih =>
      obtain ⟨hc, hv⟩ := safe_cons.mp hv
      rw [readWord_escape_cons hc, ih hv]

/-- An escape character that the table leaves out takes the next character as it is: the first
    of the delimiter, the escape character of a listed one, or an unlisted one. -/
theorem readWord_escape_esc (hesc : listed esc = false)
    (hlisted : ∀ c, listed c = true → special c = true) {tail : List α}
    (htail : Delimits esc special tail) (v : List α) :
    (readWord esc special (escape esc listed (esc :: v) ++ tail)).1 =
      match v with
      | [] => tail.take 1
      | c :: v =>
          if listed c = true then [esc]
          else c :: (readWord esc special (escape esc listed v ++ tail)).1 := by
  rw [escape_cons_unlisted hesc, List.cons_append]
  cases v with
  | nil =>
      cases tail with
      | nil => exact congrArg Prod.fst (if_pos (Or.inl rfl))
      | cons d tail =>
          have hrest := readWord_of_stops htail.2.2
          exact congrArg Prod.fst ((readWord_esc d tail).trans (by rw [hrest]))
  | cons c v =>
      by_cases hc : listed c = true
      · have hne : c ≠ esc := fun heq => by rw [heq, hesc] at hc; cases hc
        have hstop : readWord esc special (c :: (escape esc listed v ++ tail)) =
            ([], c :: (escape esc listed v ++ tail)) := readWord_of_stops ⟨hne, hlisted c hc⟩
        rw [escape_cons_listed hc, List.cons_append, List.cons_append, readWord_esc, hstop]
        exact (if_pos hc).symm
      · rw [escape_cons_unlisted (Bool.eq_false_iff.mpr hc), List.cons_append, readWord_esc]
        exact (if_neg hc).symm

/-- A word is never read as a longer one, and read back only if it is safe. An escape character
    at its end takes the delimiter for a character, but nothing after it. -/
theorem readWord_escape_spec (hlisted : ∀ c, listed c = true → special c = true)
    {tail : List α} (htail : Delimits esc special tail) :
    ∀ v : List α, (readWord esc special (escape esc listed v ++ tail)).1.length ≤ v.length ∧
      ((readWord esc special (escape esc listed v ++ tail)).1 = v → Escapable esc listed special v)
  | [] => by
      have hstop : readWord esc special (escape esc listed [] ++ tail) = ([], tail) :=
        readWord_of_stops htail.stops
      rw [hstop]
      exact ⟨Nat.le_refl 0, fun _ c hc => absurd hc List.not_mem_nil⟩
  | c :: v => by
      by_cases hsafe : listed c = true ∨ (c ≠ esc ∧ special c = false)
      · obtain ⟨hlen, hback⟩ := readWord_escape_spec hlisted htail v
        rw [readWord_escape_cons hsafe]
        exact ⟨Nat.succ_le_succ hlen, fun heq => safe_cons.mpr ⟨hsafe, hback (List.cons.inj heq).2⟩⟩
      · obtain ⟨hunlisted, hbad⟩ := not_or.mp hsafe
        have hunlisted := Bool.eq_false_iff.mpr hunlisted
        by_cases hesc : c = esc
        · rw [hesc, readWord_escape_esc (hesc ▸ hunlisted) hlisted htail]
          match v with
          | [] =>
              refine ⟨List.length_take_le 1 tail, fun heq => ?_⟩
              cases tail with
              | nil => cases heq
              | cons d tail => exact absurd (List.cons.inj heq).1 htail.1
          | d :: v =>
              obtain ⟨hlen, -⟩ := readWord_escape_spec hlisted htail v
              dsimp only
              split
              · exact ⟨by simp, fun heq => absurd heq (by simp)⟩
              · refine ⟨Nat.le_succ_of_le (Nat.succ_le_succ hlen), fun heq => ?_⟩
                have hword := congrArg List.length (List.cons.inj heq).2
                rw [List.length_cons] at hword
                omega
        · have hspecial : special c = true := by
            by_contra hplain
            exact hbad ⟨hesc, Bool.eq_false_iff.mpr hplain⟩
          rw [escape_cons_unlisted hunlisted, List.cons_append,
            readWord_of_stops (show Stops esc special (c :: _) from ⟨hesc, hspecial⟩)]
          exact ⟨Nat.zero_le _, fun heq => absurd heq (by simp)⟩

theorem safe_of_readWord_escape (hlisted : ∀ c, listed c = true → special c = true)
    {tail : List α} (htail : Delimits esc special tail) {v : List α}
    (h : (readWord esc special (escape esc listed v ++ tail)).1 = v) :
    Escapable esc listed special v :=
  (readWord_escape_spec hlisted htail v).2 h

end Escaping
