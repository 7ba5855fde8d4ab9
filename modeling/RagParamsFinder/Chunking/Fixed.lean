/-
  The tiling of the fixed chunker: `chunk_fixed` of `server/core/chunkers/fixed.py`, for an
  overlap smaller than the chunk size.

  A window starts at every multiple of `chunk_size - overlap` below the length of the text,
  also where the window before has reached the end already.

  Proved: `chunkFixed_eq`: the chunks are the windows of the text. `fixedTiles_iff`: they tile
  it exactly when the last window has more characters than the overlap, or there is one window
  at most.
-/
import RagParamsFinder.Chunking.Chunkers
import RagParamsFinder.Lib.Slices

namespace RagParamsFinder

open Slices

/-- The chunks are the windows of the text. -/
theorem chunkFixed_eq (text : Text) {chunkSize overlap : Nat} (h : overlap < chunkSize) :
    chunkFixed text chunkSize overlap = windows text (chunkSize - overlap) chunkSize := by
  have hstep : (max 1 ((chunkSize : Int) - overlap)).toNat = chunkSize - overlap := by omega
  have hpos : 0 < chunkSize - overlap := by omega
  have hslice : ∀ i : Nat, text.slice i (i + chunkSize) = (text.drop i).take chunkSize := by
    intro i
    have hpos : ¬(i + chunkSize : Int) < 0 := by omega
    have hstop : (i + chunkSize : Int).toNat = i + chunkSize := by omega
    rw [Text.slice, if_neg hpos, hstop, List.drop_take, Nat.add_sub_cancel_left]
  have hchunks : chunkFixed text chunkSize overlap =
      (windows text (chunkSize - overlap) chunkSize).filter (· ≠ []) := by
    unfold chunkFixed rangeBy windows
    simp only [hstep, List.map_map, Function.comp_def, hslice]
    rfl
  rw [hchunks, List.filter_eq_self]
  intro c hc
  exact decide_eq_true (ne_nil_of_mem_windows text hpos (by omega) hc)

/-! ## The tiling -/

/-- What the chunks of a text are to satisfy. The `k`-th chunk starts at the `k`-th multiple of
    the step. -/
structure FixedTiles (text : Text) (chunkSize overlap : Nat) (chunks : List Text) : Prop where
  full : ∀ c ∈ chunks.dropLast, c.length = chunkSize
  last : ∀ c ∈ chunks.getLast?, 1 ≤ c.length ∧ c.length ≤ chunkSize
  shared : ∀ k c d, chunks[k]? = some c → chunks[k + 1]? = some d →
    ∃ t, t.length = overlap ∧ t <:+ c ∧ t <+: d
  rebuilt : rebuild overlap chunks = text
  apart : ∀ i j c d, i ≠ j → chunks[i]? = some c → chunks[j]? = some d →
    ¬(j * (chunkSize - overlap) ≤ i * (chunkSize - overlap) ∧
      i * (chunkSize - overlap) + c.length ≤ j * (chunkSize - overlap) + d.length)

/-- There is one window at most, or the last one has more characters than the overlap. -/
def TailCovered (length chunkSize overlap : Nat) : Prop :=
  length ≤ chunkSize - overlap ∨ overlap ≤ (length - 1) % (chunkSize - overlap)

/-- Every window that is followed by another ends before the text does. -/
theorem tailCovered_iff {length chunkSize overlap : Nat} (h : overlap < chunkSize) :
    TailCovered length chunkSize overlap ↔
      ∀ k, (k + 1) * (chunkSize - overlap) < length →
        k * (chunkSize - overlap) + chunkSize < length := by
  obtain ⟨step, rfl⟩ : ∃ step, chunkSize = step + overlap := ⟨chunkSize - overlap, by omega⟩
  rw [TailCovered, Nat.add_sub_cancel]
  have hstep : 0 < step := by omega
  have hdiv := Nat.div_add_mod (length - 1) step
  rw [Nat.mul_comm] at hdiv
  constructor
  · intro hcond k hk
    have hle : k + 1 ≤ (length - 1) / step := (Nat.le_div_iff_mul_le hstep).mpr (by omega)
    have hmul := Nat.mul_le_mul_right step hle
    rw [Nat.succ_mul] at hk hmul
    omega
  · intro hroom
    by_cases hone : length ≤ step
    · exact Or.inl hone
    · have hpos : 1 ≤ (length - 1) / step := (Nat.le_div_iff_mul_le hstep).mpr (by omega)
      obtain ⟨m, hm⟩ := Nat.exists_eq_add_of_le' hpos
      rw [hm, Nat.succ_mul] at hdiv
      have hlast := hroom m (by rw [Nat.succ_mul]; omega)
      exact Or.inr (by omega)

section Tiling

variable {text : Text} {chunkSize overlap : Nat}

theorem fixedTiles_of_room (h : overlap < chunkSize)
    (hroom : ∀ k, (k + 1) * (chunkSize - overlap) < text.length →
      k * (chunkSize - overlap) + chunkSize < text.length) :
    FixedTiles text chunkSize overlap (windows text (chunkSize - overlap) chunkSize) := by
  have hstep : 0 < chunkSize - overlap := by omega
  constructor
  · intro c hc
    obtain ⟨k, hk⟩ := List.mem_iff_getElem?.mp hc
    rw [List.getElem?_dropLast, windows, List.length_map, List.length_range] at hk
    split at hk
    · rename_i hlast
      have hnext := hroom k ((lt_windowCount_iff hstep).mp (by omega))
      obtain ⟨-, rfl⟩ := (getElem?_windows text chunkSize hstep).mp hk
      rw [length_windowAt]
      omega
    · cases hk
  · intro c hc
    obtain ⟨k, hk⟩ := List.mem_iff_getElem?.mp (List.mem_of_getLast? hc)
    obtain ⟨hlt, rfl⟩ := (getElem?_windows text chunkSize hstep).mp hk
    rw [length_windowAt]
    omega
  · intro k c d hc hd
    obtain ⟨hk, rfl⟩ := (getElem?_windows _ _ hstep).mp hc
    obtain ⟨hk', rfl⟩ := (getElem?_windows _ _ hstep).mp hd
    have hend := hroom k hk'
    rw [Nat.succ_mul] at hk'
    refine ⟨(text.drop ((k + 1) * (chunkSize - overlap))).take overlap, ?_, ?_, ?_⟩
    · rw [List.length_take, List.length_drop, Nat.succ_mul]
      omega
    · have hsize : chunkSize = chunkSize - overlap + overlap := by omega
      have hsplit : windowAt text (chunkSize - overlap) chunkSize k =
          (text.drop (k * (chunkSize - overlap))).take (chunkSize - overlap) ++
            (text.drop ((k + 1) * (chunkSize - overlap))).take overlap := by
        rw [windowAt, Nat.succ_mul, ← List.drop_drop, ← List.take_add, ← hsize]
      exact ⟨_, hsplit.symm⟩
    · exact List.take_prefix_take_left (by omega)
  · exact rebuild_windows text hstep (by omega)
  · rintro i j c d hij hc hd ⟨hle, hend⟩
    obtain ⟨hi, rfl⟩ := (getElem?_windows _ _ hstep).mp hc
    obtain ⟨hj, rfl⟩ := (getElem?_windows _ _ hstep).mp hd
    rw [length_windowAt, length_windowAt] at hend
    have hji : j + 1 ≤ i := by
      have hle' := Nat.le_of_mul_le_mul_right hle hstep
      omega
    have hmul := Nat.mul_le_mul_right (chunkSize - overlap) hji
    have hj' := hroom j (Nat.lt_of_le_of_lt hmul hi)
    rw [Nat.succ_mul] at hmul
    omega

theorem room_of_fixedTiles (h : overlap < chunkSize)
    (htiles : FixedTiles text chunkSize overlap (windows text (chunkSize - overlap) chunkSize))
    (k : Nat) (hk : (k + 1) * (chunkSize - overlap) < text.length) :
    k * (chunkSize - overlap) + chunkSize < text.length := by
  have hstep : 0 < chunkSize - overlap := by omega
  have hsucc : (k + 1) * (chunkSize - overlap) = k * (chunkSize - overlap) +
      (chunkSize - overlap) := Nat.succ_mul k _
  have hfirst : k * (chunkSize - overlap) < text.length := by omega
  have happart := htiles.apart (k + 1) k _ _ (Nat.succ_ne_self k)
    ((getElem?_windows _ _ hstep).mpr ⟨hk, rfl⟩) ((getElem?_windows _ _ hstep).mpr ⟨hfirst, rfl⟩)
  rw [length_windowAt, length_windowAt] at happart
  omega

/-- The chunks tile the text exactly when the last window has more characters than the overlap
    or there is one window at most. -/
theorem fixedTiles_iff (text : Text) {chunkSize overlap : Nat} (h : overlap < chunkSize) :
    FixedTiles text chunkSize overlap (chunkFixed text chunkSize overlap) ↔
      TailCovered text.length chunkSize overlap := by
  rw [chunkFixed_eq text h, tailCovered_iff h]
  exact ⟨fun htiles k hk => room_of_fixedTiles h htiles k hk, fixedTiles_of_room h⟩

end Tiling

/-- Windows of three characters, one apart: of `abcd`, the third is `cd` and the last is `d`. -/
theorem third_window_too_short :
    ¬∀ (text : Text) (chunkSize overlap : Nat), overlap < chunkSize →
      FixedTiles text chunkSize overlap (chunkFixed text chunkSize overlap) := by
  intro h
  have htiles := h ['a', 'b', 'c', 'd'] 3 2 (by decide)
  exact absurd (htiles.full ['c', 'd'] (by decide)) (by decide)

/-- Four characters in windows of three, two apart: both conditions hold. -/
theorem four_tile :
    1 < 3 ∧ (FixedTiles ['a', 'b', 'c', 'd'] 3 1 (chunkFixed ['a', 'b', 'c', 'd'] 3 1) ↔
      TailCovered 4 3 1) := ⟨by decide, fixedTiles_iff ['a', 'b', 'c', 'd'] (by decide)⟩

end RagParamsFinder
