/-
  The budget of the sentence chunker: `chunk_sentence` of `server/core/chunkers/sentence.py`.

  The counter adds a joining space to every sentence, and none to the overlap that a chunk
  starts with. So it runs one ahead of the joined text in the first chunk, and is equal to it
  in the others.

  Proved: `chunkSentence_eq`: the chunks are those of a greedy packing, whose bins are the
  overlap and the new sentences; nothing is lost. `sentenceChunksFit_iff`: the budget holds
  exactly when no sentence fills the counter of a chunk with an overlap to the character.
-/
import RagParamsFinder.Chunking.Chunkers
import RagParamsFinder.Lib.Packing

namespace RagParamsFinder

open Packing

/-! ## Joined lengths -/

/-- The characters of some parts, each with a space after it. -/
def spacedLen (parts : List Text) : Nat := (parts.map fun p => p.length + 1).sum

theorem spacedLen_append (ps qs : List Text) :
    spacedLen (ps ++ qs) = spacedLen ps + spacedLen qs := by
  simp [spacedLen]

theorem spacedLen_singleton (p : Text) : spacedLen [p] = p.length + 1 := rfl

theorem spacedLen_pos {parts : List Text} (h : parts ≠ []) : 0 < spacedLen parts := by
  obtain ⟨p, ps, rfl⟩ := List.exists_cons_of_ne_nil h
  rw [spacedLen, List.map_cons, List.sum_cons]
  omega

/-- A joined text has no space after its last part. -/
theorem length_join {parts : List Text} (h : parts ≠ []) :
    (Text.join parts).length + 1 = spacedLen parts := by
  induction parts with
  | nil => exact absurd rfl h
  | cons p parts ih =>
      cases parts with
      | nil => simp [Text.join, spacedLen]
      | cons q qs =>
          have hrest := ih (List.cons_ne_nil q qs)
          have hcons : Text.join (p :: q :: qs) = p ++ ' ' :: Text.join (q :: qs) := by
            simp [Text.join, List.intercalate_cons_cons]
          have hsum : spacedLen (p :: q :: qs) = p.length + 1 + spacedLen (q :: qs) := by
            simp [spacedLen]
          rw [hcons, hsum, ← hrest, List.length_append, List.length_cons]
          omega

/-- More parts make a longer text. -/
theorem length_join_lt {ps qs : List Text} (hps : ps ≠ []) (hqs : qs ≠ []) :
    (Text.join ps).length < (Text.join (ps ++ qs)).length := by
  have hleft := length_join hps
  have hboth := length_join (List.append_ne_nil_of_left_ne_nil hps qs)
  have hpos := spacedLen_pos hqs
  rw [spacedLen_append] at hboth
  omega

/-- Texts joined from a list and from a longer one differ. -/
theorem eq_of_join_eq {ps qs rs : List Text} (hne : ps ++ qs ≠ []) (hpre : qs <+: rs)
    (heq : Text.join (ps ++ qs) = Text.join (ps ++ rs)) : qs = rs := by
  obtain ⟨more, rfl⟩ := hpre
  by_cases hmore : more = []
  · rw [hmore, List.append_nil]
  · have hlt := length_join_lt hne hmore
    rw [heq, List.append_assoc] at hlt
    exact absurd hlt (Nat.lt_irrefl _)

/-! ## Chunks as bins -/

/-- The chunk of an overlap and some new sentences. -/
def sentenceChunk (b : Bin (Option Text) Text) : Text := Text.join (b.seed.toList ++ b.items)

/-- The overlap that a chunk hands on: its last characters. -/
def overlapText (overlap : Int) (b : Bin (Option Text) Text) : Option Text :=
  if overlap > 0 then some ((sentenceChunk b).tail overlap.toNat) else none

/-- `current_len`: an overlap is counted without a joining space. -/
def sentenceCounter (b : Bin (Option Text) Text) : Nat :=
  (b.seed.elim 0 List.length) + spacedLen b.items

/-- A sentence that the open chunk has no room for. -/
def SentenceFull (chunkSize : Int) (b : Bin (Option Text) Text) (sentence : Text) : Prop :=
  chunkSize < (sentenceCounter b + sentence.length : Int)

instance (chunkSize : Int) (b : Bin (Option Text) Text) (sentence : Text) :
    Decidable (SentenceFull chunkSize b sentence) := inferInstanceAs (Decidable (_ < _))

/-- The locals hold the chunks flushed and the open one. It has an overlap exactly when some
    chunk was flushed and overlaps are asked for. -/
structure SentenceState.Sim (overlap : Int) (st : SentenceState) (done : List Text)
    (b : Bin (Option Text) Text) : Prop where
  chunks : st.chunks = done
  current : st.current = b.seed.toList ++ b.items
  currentLen : st.currentLen = sentenceCounter b
  seeded : b.seed = none ↔ done = [] ∨ overlap ≤ 0
  opened : b.items = [] → done = []

section Loop

variable {chunkSize overlap : Int}

theorem SentenceState.Sim.current_ne_nil {st : SentenceState} {done : List Text}
    {b : Bin (Option Text) Text} (h : st.Sim overlap done b) :
    st.current ≠ [] ↔ b.items ≠ [] := by
  rw [h.current]
  constructor
  · intro hne hitems
    have hseed : b.seed = none := h.seeded.mpr (Or.inl (h.opened hitems))
    exact hne (by rw [hseed, hitems]; rfl)
  · exact fun hne => List.append_ne_nil_of_right_ne_nil _ hne

theorem SentenceState.sim_add {st : SentenceState} {done : List Text}
    {b : Bin (Option Text) Text} (h : st.Sim overlap done b) (sentence : Text) :
    (st.add chunkSize overlap sentence).Sim overlap
      (done ++ (closed (SentenceFull chunkSize) b sentence).map sentenceChunk)
      (place (SentenceFull chunkSize) (overlapText overlap) b sentence) := by
  have hiff : (st.current ≠ [] ∧ (st.currentLen + sentence.length : Int) > chunkSize) ↔
      Closes (SentenceFull chunkSize) b sentence := by
    rw [h.current_ne_nil, h.currentLen]
    exact Iff.rfl
  unfold add
  by_cases hfull : Closes (SentenceFull chunkSize) b sentence
  · rw [if_pos (hiff.mpr hfull), closed_of_closes hfull, place_of_closes hfull, flush]
    have hchunk : Text.join st.current = sentenceChunk b := congrArg Text.join h.current
    dsimp only
    split
    · rename_i hpos
      exact ⟨by simp [h.chunks, hchunk], by simp [Bin.open, overlapText, hpos, hchunk],
        by simp [Bin.open, overlapText, hpos, hchunk, sentenceCounter, spacedLen]; omega,
        by simp [Bin.open, overlapText, hpos], by simp [Bin.open]⟩
    · rename_i hpos
      exact ⟨by simp [h.chunks, hchunk], by simp [Bin.open, overlapText, hpos],
        by simp [Bin.open, overlapText, hpos, sentenceCounter, spacedLen],
        by simp [Bin.open, overlapText, hpos, Int.not_lt.mp hpos], by simp [Bin.open]⟩
  · rw [if_neg fun hc => hfull (hiff.mp hc), closed_of_room hfull, place_of_room hfull]
    exact ⟨by simp [h.chunks], by simp [Bin.put, h.current],
      by simp [Bin.put, h.currentLen, sentenceCounter, spacedLen]; omega,
      by simpa [Bin.put] using h.seeded, by simp [Bin.put]⟩

end Loop

theorem chunkSentence_eq (sentences : List Text) (chunkSize overlap : Int) :
    chunkSentence sentences chunkSize overlap =
      (packFrom (SentenceFull chunkSize) (overlapText overlap) ⟨none, []⟩ sentences).map
        sentenceChunk := by
  have hstart : (⟨[], [], 0⟩ : SentenceState).Sim overlap [] ⟨none, []⟩ :=
    ⟨rfl, rfl, rfl, by simp, fun _ => rfl⟩
  refine finish_foldl (SentenceState.add chunkSize overlap)
    (fun st => if st.current = [] then st.chunks else st.chunks ++ [Text.join st.current])
    (SentenceState.Sim overlap) (fun _ _ _ sentence h => SentenceState.sim_add h sentence) ?_
    hstart sentences
  intro st done b h
  rw [h.chunks]
  by_cases hb : b.items = []
  · rw [if_pos (not_not.mp fun hne => h.current_ne_nil.mp hne hb), packFrom_nil hb, List.map_nil,
      List.append_nil]
  · rw [if_neg (h.current_ne_nil.mpr hb), packFrom_open hb, List.map_singleton, h.current]
    rfl

/-! ## The budget -/

/-- The chunks hold the sentences in order, each after the overlap with the chunk before, and
    are within the budget unless they have one new sentence only. -/
def SentenceChunksFit (sentences : List Text) (chunkSize overlap : Int) (chunks : List Text) :
    Prop :=
  ∃ bins : List (Bin (Option Text) Text),
    Packed (overlapText overlap) none sentences bins ∧ chunks = bins.map sentenceChunk ∧
      ∀ b ∈ bins, ((sentenceChunk b).length : Int) ≤ chunkSize ∨ ∃ s, b.items = [s]

/-- No sentence fills the counter of a chunk with an overlap to the character. -/
def SeedsLeaveRoom (sentences : List Text) (chunkSize overlap : Int) : Prop :=
  ∀ before sentence after, sentences = before ++ sentence :: after →
    let st := before.foldl (SentenceState.add chunkSize overlap) ⟨[], [], 0⟩
    ¬(0 < overlap ∧ st.chunks ≠ [] ∧ (st.currentLen + sentence.length : Int) = chunkSize)

/-- The counter runs one ahead of a chunk that has no overlap. -/
theorem sentenceCounter_eq {b : Bin (Option Text) Text} (h : b.items ≠ []) :
    sentenceCounter b = (sentenceChunk b).length + if b.seed = none then 1 else 0 := by
  have hjoin := length_join (List.append_ne_nil_of_right_ne_nil b.seed.toList h)
  rw [spacedLen_append] at hjoin
  unfold sentenceCounter sentenceChunk
  cases hseed : b.seed with
  | none =>
      rw [hseed] at hjoin
      simpa [spacedLen] using hjoin.symm
  | some t =>
      rw [hseed] at hjoin
      simp [spacedLen] at hjoin ⊢
      omega

theorem length_sentenceChunk_put {b : Bin (Option Text) Text} (h : b.items ≠ []) (s : Text) :
    (sentenceChunk (b.put s)).length = (sentenceChunk b).length + 1 + s.length := by
  have hparts : b.seed.toList ++ b.items ≠ [] := List.append_ne_nil_of_right_ne_nil _ h
  have hold := length_join hparts
  have hnew := length_join (List.append_ne_nil_of_left_ne_nil hparts [s])
  rw [spacedLen_append, ← hold, spacedLen_singleton] at hnew
  have hput : sentenceChunk (b.put s) = Text.join (b.seed.toList ++ b.items ++ [s]) := by
    rw [List.append_assoc]
    rfl
  rw [hput]
  unfold sentenceChunk
  omega

/-- A chunk within the budget, or with one new sentence only. -/
def SentenceChunkFits (chunkSize : Int) (b : Bin (Option Text) Text) : Prop :=
  ((sentenceChunk b).length : Int) ≤ chunkSize ∨ ∃ s, b.items = [s]

/-- A sentence that finds room keeps the budget unless it fills the counter of a chunk with an
    overlap. -/
theorem sentenceChunkFits_put_iff {chunkSize : Int} {b : Bin (Option Text) Text} {s : Text}
    (h : b.items ≠ []) (hroom : ¬SentenceFull chunkSize b s) :
    SentenceChunkFits chunkSize (b.put s) ↔ SentenceChunkFits chunkSize b ∧
      (b.seed ≠ none → (sentenceCounter b + s.length : Int) ≠ chunkSize) := by
  have hle : (sentenceCounter b + s.length : Int) ≤ chunkSize := Int.not_lt.mp hroom
  have hlen := length_sentenceChunk_put h s
  have hcounter := sentenceCounter_eq h
  have hmany : ¬∃ t, (b.put s).items = [t] := by
    rintro ⟨t, ht⟩
    have hone := congrArg List.length ht
    have hpos := List.length_pos_iff.mpr h
    rw [Bin.put, List.length_append, List.length_singleton, List.length_singleton] at hone
    omega
  have hfits : SentenceChunkFits chunkSize b := Or.inl (by omega)
  rw [and_iff_right hfits, SentenceChunkFits, or_iff_left hmany, hlen]
  by_cases hseed : b.seed = none
  · rw [if_pos hseed] at hcounter
    exact iff_of_true (by omega) fun hne => absurd hseed hne
  · rw [if_neg hseed] at hcounter
    constructor
    · intro hnew _
      omega
    · intro hne
      have hlt := hne hseed
      omega

/-- The condition along the greedy bins is the one along the loop. -/
theorem seedsLeaveRoom_iff (sentences : List Text) (chunkSize overlap : Int) :
    SeedsLeaveRoom sentences chunkSize overlap ↔
      ∀ before s after, sentences = before ++ s :: after →
        let o := before.foldl (place (SentenceFull chunkSize) (overlapText overlap)) ⟨none, []⟩
        o.items ≠ [] → ¬SentenceFull chunkSize o s →
          o.seed ≠ none → (sentenceCounter o + s.length : Int) ≠ chunkSize := by
  have hstart : (⟨[], [], 0⟩ : SentenceState).Sim overlap [] ⟨none, []⟩ :=
    ⟨rfl, rfl, rfl, by simp, fun _ => rfl⟩
  refine forall_congr' fun before => forall_congr' fun s => forall_congr' fun after =>
    imp_congr_right fun _ => ?_
  obtain ⟨done, hsim, -⟩ := sim_foldl (SentenceState.add chunkSize overlap)
    (SentenceState.Sim overlap) (fun _ _ _ sentence h => SentenceState.sim_add h sentence)
    hstart before
  dsimp only
  rw [hsim.chunks, hsim.currentLen]
  constructor
  · intro hroom _ _ hseed heq
    obtain ⟨hdone, hpos⟩ := not_or.mp (mt hsim.seeded.mpr hseed)
    exact hroom ⟨Int.not_le.mp hpos, hdone, heq⟩
  · rintro hroom ⟨hpos, hdone, heq⟩
    have hitems := mt hsim.opened hdone
    have hseed := mt hsim.seeded.mp (not_or.mpr ⟨hdone, Int.not_le.mpr hpos⟩)
    exact hroom hitems (fun hfull => absurd heq (Int.ne_of_gt hfull)) hseed heq

/-- A bin is known by its seed and the text it is written as, among those that go on from it. -/
theorem bin_eq_of_join_eq {σ : Type} (texts : σ → List Text) {b c : Bin σ Text}
    (hseed : b.seed = c.seed) (hne : b.items ≠ []) (hpre : b.items <+: c.items)
    (heq : Text.join (texts b.seed ++ b.items) = Text.join (texts c.seed ++ c.items)) : b = c := by
  rw [← hseed] at heq
  have hitems := eq_of_join_eq (List.append_ne_nil_of_right_ne_nil _ hne) hpre heq
  cases b
  cases c
  exact congrArg₂ Bin.mk hseed hitems

/-- The only bins that give the chunks are the greedy ones. -/
theorem sentenceChunksFit_iff_bins (sentences : List Text) (chunkSize overlap : Int) :
    SentenceChunksFit sentences chunkSize overlap (chunkSentence sentences chunkSize overlap) ↔
      ∀ b ∈ packFrom (SentenceFull chunkSize) (overlapText overlap) ⟨none, []⟩ sentences,
        SentenceChunkFits chunkSize b := by
  have hpacked : Packed (overlapText overlap) none sentences
      (packFrom (SentenceFull chunkSize) (overlapText overlap) ⟨none, []⟩ sentences) :=
    packed_packFrom ⟨none, []⟩ sentences
  rw [chunkSentence_eq]
  constructor
  · rintro ⟨bins, hcut, heq, hfit⟩
    have hsame := hpacked.eq_of_map_eq (fun _ _ => bin_eq_of_join_eq Option.toList) hcut heq
    exact hsame ▸ hfit
  · exact fun hfit => ⟨_, hpacked, rfl, hfit⟩

/-- The chunks keep to the budget exactly when no sentence fills the counter of a chunk with an
    overlap to the character. -/
theorem sentenceChunksFit_iff (sentences : List Text) (chunkSize overlap : Int) :
    SentenceChunksFit sentences chunkSize overlap (chunkSentence sentences chunkSize overlap) ↔
      SeedsLeaveRoom sentences chunkSize overlap := by
  rw [sentenceChunksFit_iff_bins, seedsLeaveRoom_iff,
    forall_packFrom_iff (fun _ s => Or.inr ⟨s, rfl⟩)
      (fun _ _ h hroom => sentenceChunkFits_put_iff h hroom)]
  exact and_iff_right fun hne => absurd rfl hne

/-- Eight characters are allowed; the second chunk, `? De? Fg?`, has nine. -/
theorem overlap_overruns_budget :
    ¬∀ (sentences : List Text) (chunkSize overlap : Int), 1 ≤ chunkSize → 0 ≤ overlap →
      SentenceChunksFit sentences chunkSize overlap
        (chunkSentence sentences chunkSize overlap) := by
  intro h
  have hfit := (sentenceChunksFit_iff_bins _ _ _).mp
    (h ["Abcdef?".toList, "De?".toList, "Fg?".toList] 8 1 (by decide) (by decide))
    ⟨some ['?'], ["De?".toList, "Fg?".toList]⟩ (by decide +kernel)
  rcases hfit with hlen | ⟨s, hs⟩
  · exact absurd hlen (by decide +kernel)
  · exact absurd (congrArg List.length hs) (by simp)

end RagParamsFinder
