/-
  Batches for the Voyage embedder: `_split_into_batches` and `_token_budget_per_request` of
  `server/core/embedding/embedder.py`, and `estimate_tokens` of `rate_limiter.py`.

  The splitter adds up the estimates of single texts, each rounded down and raised to at
  least 1; the request is charged with the estimate of the whole batch, rounded once.

  Proved: `flatten_splitIntoBatches`, `splitIntoBatches_ne_nil`: no text is lost, moved or
  left alone in an empty batch, for any counter. `batches_fit_iff`: the batches of two or
  more texts stay within the budget exactly when no texts that begin a batch together lose
  more by the rounding of each than the budget has left for them. Which texts begin a batch is
  said by the groups that those before them fill (`FillBatches`).
-/
import Mathlib.Algebra.BigOperators.Group.List.Basic
import Mathlib.Algebra.Order.Ring.Int
import Mathlib.Algebra.Order.Ring.Nat
import Mathlib.Data.List.Induction
import RagParamsFinder.Lib.Packing

namespace RagParamsFinder

open Packing

/-! ## Estimates -/

/-- `CHARS_PER_TOKEN_ESTIMATE`. -/
def charsPerTokenEstimate : Nat := 4

/-- The characters of a list of texts. -/
def charCount (texts : List String) : Nat := (texts.map String.length).sum

/-- `estimate_tokens`. -/
def estimateTokens (texts : List String) : Nat := max 1 (charCount texts / charsPerTokenEstimate)

/-- `_token_budget_per_request`. -/
def tokenBudgetPerRequest (tpm : Int) : Nat := if 0 < tpm then tpm.toNat else 100000

/-! ## Splitting -/

/-- The locals of `_split_into_batches`. -/
structure Splitter where
  batches : List (List String)
  currentBatch : List String
  currentTokens : Nat
  deriving DecidableEq

def Splitter.start : Splitter := ⟨[], [], 0⟩

/-- Close the current batch. -/
def Splitter.flush (s : Splitter) : Splitter := ⟨s.batches ++ [s.currentBatch], [], 0⟩

/-- Append a text to the current batch. -/
def Splitter.push (s : Splitter) (text : String) (textTokens : Nat) : Splitter where
  batches := s.batches
  currentBatch := s.currentBatch ++ [text]
  currentTokens := s.currentTokens + textTokens

/-- One round of the loop. -/
def Splitter.next (countTokens : List String → Nat) (tokenBudget : Nat) (s : Splitter)
    (text : String) : Splitter :=
  let textTokens := countTokens [text]
  if s.currentBatch ≠ [] ∧ tokenBudget < s.currentTokens + textTokens then
    s.flush.push text textTokens
  else s.push text textTokens

/-- What is returned after the loop. -/
def Splitter.finish (s : Splitter) : List (List String) :=
  if s.currentBatch ≠ [] then s.batches ++ [s.currentBatch] else s.batches

/-- `_split_into_batches`. -/
def splitIntoBatches (texts : List String) (tokenBudget : Nat)
    (tokenCounter : Option (List String → Nat)) : List (List String) :=
  (texts.foldl (Splitter.next (tokenCounter.getD estimateTokens) tokenBudget) .start).finish

/-! ## Nothing is lost -/

section Any

variable (countTokens : List String → Nat) (tokenBudget : Nat)

/-- The counts of single texts, added up. -/
def addedTokens (batch : List String) : Nat := (batch.map fun t => countTokens [t]).sum

/-- A text that the open batch has no room for. -/
def OverBudget (batch : Bin Unit String) (text : String) : Prop :=
  tokenBudget < addedTokens countTokens batch.items + countTokens [text]

instance (batch : Bin Unit String) (text : String) :
    Decidable (OverBudget countTokens tokenBudget batch text) :=
  inferInstanceAs (Decidable (_ < _))

/-- The locals hold the closed batches and the open one, with its count. -/
structure Splitter.Sim (s : Splitter) (done : List (List String)) (b : Bin Unit String) :
    Prop where
  batches : s.batches = done
  currentBatch : s.currentBatch = b.items
  currentTokens : s.currentTokens = addedTokens countTokens b.items

theorem Splitter.sim_next {s : Splitter} {done : List (List String)} {b : Bin Unit String}
    (h : s.Sim countTokens done b) (text : String) :
    (s.next countTokens tokenBudget text).Sim countTokens
      (done ++ (closed (OverBudget countTokens tokenBudget) b text).map Bin.items)
      (place (OverBudget countTokens tokenBudget) (fun _ => ()) b text) := by
  have hiff : (s.currentBatch ≠ [] ∧ tokenBudget < s.currentTokens + countTokens [text]) ↔
      Closes (OverBudget countTokens tokenBudget) b text := by
    rw [h.currentBatch, h.currentTokens]
    exact Iff.rfl
  by_cases hfull : Closes (OverBudget countTokens tokenBudget) b text
  · have hnext : s.next countTokens tokenBudget text = s.flush.push text (countTokens [text]) :=
      if_pos (hiff.mpr hfull)
    rw [hnext, closed_of_closes hfull, place_of_closes hfull]
    exact ⟨by simp [flush, push, h.batches, h.currentBatch], by simp [flush, push, Bin.open],
      by simp [flush, push, Bin.open, addedTokens]⟩
  · have hnext : s.next countTokens tokenBudget text = s.push text (countTokens [text]) :=
      if_neg fun hc => hfull (hiff.mp hc)
    rw [hnext, closed_of_room hfull, place_of_room hfull]
    exact ⟨by simp [push, h.batches], by simp [push, Bin.put, h.currentBatch],
      by simp [push, Bin.put, addedTokens, h.currentTokens]⟩

theorem Splitter.finish_eq {s : Splitter} {done : List (List String)} {b : Bin Unit String}
    (h : s.Sim countTokens done b) :
    s.finish = done ++
      (packFrom (OverBudget countTokens tokenBudget) (fun _ => ()) b []).map Bin.items := by
  rw [finish, h.batches, h.currentBatch, append_packFrom_nil]

end Any

/-- The splitter packs greedily. -/
theorem splitIntoBatches_eq (texts : List String) (tokenBudget : Nat)
    (tokenCounter : Option (List String → Nat)) :
    splitIntoBatches texts tokenBudget tokenCounter =
      (packFrom (OverBudget (tokenCounter.getD estimateTokens) tokenBudget) (fun _ => ()) ⟨(), []⟩
        texts).map Bin.items := by
  have hstart : Splitter.start.Sim (tokenCounter.getD estimateTokens) [] ⟨(), []⟩ :=
    ⟨rfl, rfl, rfl⟩
  exact finish_foldl (Splitter.next (tokenCounter.getD estimateTokens) tokenBudget)
    Splitter.finish (Splitter.Sim (tokenCounter.getD estimateTokens))
    (fun _ _ _ text h => Splitter.sim_next _ tokenBudget h text)
    (fun _ _ _ h => Splitter.finish_eq _ tokenBudget h) hstart texts

theorem flatten_splitIntoBatches (texts : List String) (tokenBudget : Nat)
    (tokenCounter : Option (List String → Nat)) :
    (splitIntoBatches texts tokenBudget tokenCounter).flatten = texts := by
  rw [splitIntoBatches_eq]
  exact (packed_packFrom _ texts).flatten

theorem splitIntoBatches_ne_nil (texts : List String) (tokenBudget : Nat)
    (tokenCounter : Option (List String → Nat)) :
    ∀ b ∈ splitIntoBatches texts tokenBudget tokenCounter, b ≠ [] := by
  rw [splitIntoBatches_eq]
  exact List.forall_mem_map.mpr (packed_packFrom _ texts).ne_nil

/-! ## The budget -/

/-- What a split into batches is to satisfy under the default counter. -/
structure BatchesFit (texts : List String) (tokenBudget : Nat) (batches : List (List String)) :
    Prop where
  nonempty : ∀ b ∈ batches, b ≠ []
  flatten : batches.flatten = texts
  fits : ∀ b ∈ batches, 2 ≤ b.length → estimateTokens b ≤ tokenBudget

/-- The tokens that the splitter counts for a batch. -/
def countedTokens (batch : List String) : Nat := addedTokens estimateTokens batch

/-- The characters that the estimate of one text leaves out: its length modulo four, or, of
    fewer than four characters, less than nothing. -/
def roundedOff (text : String) : Int :=
  if text.length < charsPerTokenEstimate then (text.length : Int) - charsPerTokenEstimate
  else (text.length % charsPerTokenEstimate : Nat)

/-- The texts before one that begins a batch. They fall into groups, each of one text or
    counted within the budget, and none with room for the text behind it. -/
inductive FillBatches (tokenBudget : Nat) : List String → String → Prop
  | nil (text : String) : FillBatches tokenBudget [] text
  | group {before rest : List String} {first text : String}
      (hbefore : FillBatches tokenBudget before first)
      (hroom : rest = [] ∨ countedTokens (first :: rest) ≤ tokenBudget)
      (hfull : tokenBudget < countedTokens (first :: rest) + estimateTokens [text]) :
      FillBatches tokenBudget (before ++ first :: rest) text

/-- No texts that begin a batch together and are counted within the budget lose more by the
    rounding of each than the budget has left for them. -/
def RoundingFits (tokenBudget : Nat) (texts : List String) : Prop :=
  ∀ (before : List String) (first : String) (rest after : List String),
    texts = before ++ (first :: rest) ++ after → rest ≠ [] →
    FillBatches tokenBudget before first → countedTokens (first :: rest) ≤ tokenBudget →
    ((first :: rest).map roundedOff).sum <
      charsPerTokenEstimate * (tokenBudget - countedTokens (first :: rest) + 1)

theorem one_le_estimateTokens (texts : List String) : 1 ≤ estimateTokens texts :=
  le_max_left _ _

theorem charCount_append (batch : List String) (text : String) :
    charCount (batch ++ [text]) = charCount batch + text.length := by
  simp [charCount]

theorem countedTokens_append (batch : List String) (text : String) :
    countedTokens (batch ++ [text]) = countedTokens batch + estimateTokens [text] := by
  simp [countedTokens, addedTokens]

theorem estimateTokens_singleton (text : String) :
    (text.length : Int) = charsPerTokenEstimate * estimateTokens [text] + roundedOff text := by
  have hone : estimateTokens [text] = max 1 (text.length / charsPerTokenEstimate) := by
    simp [estimateTokens, charCount]
  unfold roundedOff
  split <;> rw [hone] <;> unfold charsPerTokenEstimate at * <;> omega

/-- What the texts are counted for and what they are rounded by make up their characters. -/
theorem charCount_eq (batch : List String) :
    (charCount batch : Int) =
      charsPerTokenEstimate * countedTokens batch + (batch.map roundedOff).sum := by
  induction batch using List.reverseRecOn with
  | nil => rfl
  | append_singleton batch text ih =>
      have hone := estimateTokens_singleton text
      have hcount : (countedTokens (batch ++ [text]) : Int) =
          countedTokens batch + estimateTokens [text] :=
        congrArg Int.ofNat (countedTokens_append batch text)
      have hchars : (charCount (batch ++ [text]) : Int) = charCount batch + text.length :=
        congrArg Int.ofNat (charCount_append batch text)
      rw [hchars, ih, hone, hcount, List.map_append, List.sum_append, List.map_singleton,
        List.sum_singleton, Int.mul_add]
      ac_rfl

/-- A batch fits exactly when its texts lose no more than the budget has left. -/
theorem estimateTokens_le_iff {batch : List String} {tokenBudget : Nat} (h : 1 ≤ tokenBudget) :
    estimateTokens batch ≤ tokenBudget ↔
      (batch.map roundedOff).sum <
        charsPerTokenEstimate * (tokenBudget - countedTokens batch + 1) := by
  have hchars := charCount_eq batch
  unfold estimateTokens charsPerTokenEstimate at *
  omega

/-- A batch within the budget was within it before its last text. -/
theorem estimateTokens_le_append (batch : List String) (text : String) :
    estimateTokens batch ≤ estimateTokens (batch ++ [text]) := by
  unfold estimateTokens
  rw [charCount_append]
  exact max_le_max_left 1 (Nat.div_le_div_right (Nat.le_add_right _ _))

/-- A batch of one text may exceed the budget; a larger one must not. -/
def BatchFits (tokenBudget : Nat) (batch : List String) : Prop :=
  2 ≤ batch.length → estimateTokens batch ≤ tokenBudget

theorem batchFits_singleton (tokenBudget : Nat) (text : String) : BatchFits tokenBudget [text] :=
  fun h => absurd h (by simp)

theorem batchFits_append_iff {tokenBudget : Nat} {batch : List String} {text : String}
    (hopen : batch ≠ []) (hroom : countedTokens (batch ++ [text]) ≤ tokenBudget) :
    BatchFits tokenBudget (batch ++ [text]) ↔
      BatchFits tokenBudget batch ∧
        ((batch ++ [text]).map roundedOff).sum <
          charsPerTokenEstimate * (tokenBudget - countedTokens (batch ++ [text]) + 1) := by
  have hlen : 2 ≤ (batch ++ [text]).length := by
    have hpos := List.length_pos_iff.mpr hopen
    rw [List.length_append, List.length_singleton]
    omega
  have hbudget : 1 ≤ tokenBudget := by
    rw [countedTokens_append] at hroom
    exact (one_le_estimateTokens [text]).trans ((Nat.le_add_left _ _).trans hroom)
  rw [← estimateTokens_le_iff hbudget]
  constructor
  · intro h
    exact ⟨fun _ => (estimateTokens_le_append batch text).trans (h hlen), h hlen⟩
  · exact fun h _ => h.2

/-! ## Which texts begin a batch -/

section Open

variable {tokenBudget : Nat}

/-- The open batch after some texts. -/
def openBatch (tokenBudget : Nat) (texts : List String) : Bin Unit String :=
  texts.foldl (place (OverBudget estimateTokens tokenBudget) fun _ => ()) ⟨(), []⟩

theorem openBatch_of_room {texts : List String} {text : String}
    (h : countedTokens ((openBatch tokenBudget texts).items ++ [text]) ≤ tokenBudget) :
    (openBatch tokenBudget (texts ++ [text])).items =
      (openBatch tokenBudget texts).items ++ [text] := by
  rw [countedTokens_append] at h
  unfold openBatch
  rw [List.foldl_append, List.foldl_cons, List.foldl_nil, place_of_room]
  · rfl
  · exact fun hcloses => absurd hcloses.2 (not_lt.mpr h)

theorem openBatch_of_full {texts : List String} {text : String}
    (h : (openBatch tokenBudget texts).items = [] ∨
      tokenBudget < countedTokens (openBatch tokenBudget texts).items + estimateTokens [text]) :
    (openBatch tokenBudget (texts ++ [text])).items = [text] := by
  by_cases hopen : (openBatch tokenBudget texts).items = []
  · unfold openBatch at hopen ⊢
    rw [List.foldl_append, List.foldl_cons, List.foldl_nil,
      place_of_room fun hcloses => hcloses.1 hopen, Bin.put, hopen, List.nil_append]
  · have hfull := h.resolve_left hopen
    unfold openBatch at hopen hfull ⊢
    rw [List.foldl_append, List.foldl_cons, List.foldl_nil, place_of_closes ⟨hopen, hfull⟩]
    rfl

/-- Texts that are counted within the budget share the batch that the first of them begins. -/
theorem openBatch_group {before rest : List String} {first : String}
    (hfirst : (openBatch tokenBudget (before ++ [first])).items = [first])
    (hroom : rest = [] ∨ countedTokens (first :: rest) ≤ tokenBudget) :
    (openBatch tokenBudget (before ++ first :: rest)).items = first :: rest := by
  induction rest using List.reverseRecOn with
  | nil => exact hfirst
  | append_singleton rest text ih =>
      have hall : countedTokens (first :: rest ++ [text]) ≤ tokenBudget :=
        hroom.resolve_left (by simp)
      have hless : countedTokens (first :: rest) ≤ tokenBudget := by
        rw [countedTokens_append] at hall
        exact (Nat.le_add_right _ _).trans hall
      have hprev := ih (Or.inr hless)
      have hroom : countedTokens ((openBatch tokenBudget (before ++ first :: rest)).items ++
          [text]) ≤ tokenBudget := by rwa [hprev]
      have hnext := openBatch_of_room hroom
      rw [hprev, List.append_assoc] at hnext
      exact hnext

/-- A text behind groups that are full begins a batch. -/
theorem openBatch_of_fillBatches {before : List String} {text : String}
    (h : FillBatches tokenBudget before text) :
    (openBatch tokenBudget (before ++ [text])).items = [text] := by
  induction h with
  | nil text => exact openBatch_of_full (Or.inl rfl)
  | group _ hroom hfull ih =>
      exact openBatch_of_full (Or.inr ((openBatch_group ih hroom).symm ▸ hfull))

/-- The open batch is the last group, behind groups that are full. -/
theorem exists_fillBatches {texts : List String} (h : texts ≠ []) :
    ∃ before first rest, texts = before ++ first :: rest ∧
      FillBatches tokenBudget before first ∧
      (openBatch tokenBudget texts).items = first :: rest ∧
      (rest = [] ∨ countedTokens (first :: rest) ≤ tokenBudget) := by
  induction texts using List.reverseRecOn with
  | nil => exact absurd rfl h
  | append_singleton texts text ih =>
      by_cases htexts : texts = []
      · subst htexts
        exact ⟨[], text, [], rfl, .nil text, rfl, Or.inl rfl⟩
      · obtain ⟨before, first, rest, rfl, hfill, hopen, hroom⟩ := ih htexts
        by_cases hfits : countedTokens (first :: rest ++ [text]) ≤ tokenBudget
        · have hroom : countedTokens ((openBatch tokenBudget (before ++ first :: rest)).items ++
              [text]) ≤ tokenBudget := by rwa [hopen]
          have hnext := openBatch_of_room hroom
          rw [hopen] at hnext
          exact ⟨before, first, rest ++ [text], by simp, hfill, hnext, Or.inr hfits⟩
        · rw [countedTokens_append, not_le] at hfits
          exact ⟨_, text, [], rfl, .group hfill hroom hfits,
            openBatch_of_full (Or.inr (hopen.symm ▸ hfits)), Or.inl rfl⟩

end Open

/-- The batches stay within the budget exactly when rounding does. -/
theorem batchFits_split_iff (texts : List String) (tokenBudget : Nat) :
    (∀ b ∈ splitIntoBatches texts tokenBudget none, BatchFits tokenBudget b) ↔
      RoundingFits tokenBudget texts := by
  rw [splitIntoBatches_eq, List.forall_mem_map]
  have hjoin : ∀ (o : Bin Unit String) (text : String), o.items ≠ [] →
      ¬OverBudget estimateTokens tokenBudget o text →
      (BatchFits tokenBudget (o.put text).items ↔ BatchFits tokenBudget o.items ∧
        ((o.items ++ [text]).map roundedOff).sum <
          charsPerTokenEstimate * (tokenBudget - countedTokens (o.items ++ [text]) + 1)) := by
    intro o text hopen hroom
    refine batchFits_append_iff hopen ?_
    rw [countedTokens_append]
    exact not_lt.mp hroom
  refine (forall_packFrom_iff (fun _ text => batchFits_singleton tokenBudget text) hjoin
    texts).trans ?_
  rw [and_iff_right fun h => absurd rfl h]
  constructor
  · intro h before first rest after htexts hrest hfill hcounted
    obtain ⟨rest, text, rfl⟩ := (List.eq_nil_or_concat' rest).resolve_left hrest
    have hsplit : countedTokens (first :: rest) + estimateTokens [text] ≤ tokenBudget := by
      rwa [← countedTokens_append]
    have hopen : (openBatch tokenBudget (before ++ first :: rest)).items = first :: rest :=
      openBatch_group (openBatch_of_fillBatches hfill)
        (Or.inr ((Nat.le_add_right _ _).trans hsplit))
    have hkeeps := h (before ++ first :: rest) text after (by rw [htexts]; simp)
    change (openBatch tokenBudget (before ++ first :: rest)).items ≠ [] →
      ¬tokenBudget < countedTokens (openBatch tokenBudget (before ++ first :: rest)).items +
        estimateTokens [text] →
      (((openBatch tokenBudget (before ++ first :: rest)).items ++ [text]).map roundedOff).sum <
        _ * (_ - countedTokens ((openBatch tokenBudget (before ++ first :: rest)).items ++ [text])
          + 1) at hkeeps
    rw [hopen] at hkeeps
    exact hkeeps (List.cons_ne_nil _ _) (not_lt.mpr hsplit)
  · intro h before text after htexts
    change (openBatch tokenBudget before).items ≠ [] →
      ¬tokenBudget < countedTokens (openBatch tokenBudget before).items + estimateTokens [text] →
      (((openBatch tokenBudget before).items ++ [text]).map roundedOff).sum <
        _ * (_ - countedTokens ((openBatch tokenBudget before).items ++ [text]) + 1)
    intro hopen hroom
    have hbefore : before ≠ [] := fun hnil => hopen (by rw [hnil]; rfl)
    obtain ⟨pre, first, rest, rfl, hfill, hitems, -⟩ :=
      @exists_fillBatches tokenBudget _ hbefore
    rw [hitems, not_lt, ← countedTokens_append] at hroom
    rw [hitems]
    exact h pre first (rest ++ [text]) after (by rw [htexts]; simp) (by simp) hfill hroom

end RagParamsFinder
