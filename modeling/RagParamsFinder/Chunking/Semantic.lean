/-
  The character cap of the semantic chunker: `chunk_semantic` of
  `server/core/chunkers/semantic.py`.

  The counter of a group starts at the bare length of the first sentence, and each later
  sentence is added with its joining space. After a flush it starts at the carried sentences
  with a space for each. So it is equal to the joined text in the first group, and runs one
  ahead of it in the others.

  Proved: `chunkSemantic_eq`: the chunks are those of a greedy packing, whose bins are the
  carried sentences and the new ones; nothing is lost. `semanticChunksFit_iff`: the cap holds
  exactly when no run of similar sentences from the first on joins to one character more.
  `overlapSentences_longest`: what a chunk hands on is the longest tail that fits.
-/
import RagParamsFinder.Chunking.Sentences

namespace RagParamsFinder

open Packing

/-! ## Chunks as bins -/

/-- The chunk of some carried sentences and some new ones. -/
def semanticChunk (b : Bin (List Text) Text) : Text := Text.join (b.seed ++ b.items)

/-- The sentences that a chunk hands on. -/
def carriedSentences (overlap : Int) (b : Bin (List Text) Text) : List Text :=
  overlapSentences (b.seed ++ b.items) overlap

/-- A group of the loop: no seed for the first, the carried sentences for the others. The new
    sentences come with their indices. -/
abbrev Group := Bin (Option (List Text)) (Text × Nat)

/-- A group without the indices. -/
def Group.plain (b : Group) : Bin (List Text) Text := b.map (·.getD []) Prod.fst

/-- The sentences of a group. -/
def Group.sentences (b : Group) : List Text := b.plain.seed ++ b.plain.items

/-- `group_len`: the first group is counted without a space for its first sentence. -/
def Group.counter (b : Group) : Nat := spacedLen b.sentences - if b.seed = none then 1 else 0

def Group.handOn (overlap : Int) (b : Group) : Option (List Text) :=
  some (overlapSentences b.sentences overlap)

/-- `should_flush`. -/
def GroupFull (similar : Nat → Bool) (chunkSize : Int) (b : Group) (s : Text × Nat) : Prop :=
  similar s.2 = false ∨ chunkSize < (b.counter + s.1.length : Int)

instance (similar : Nat → Bool) (chunkSize : Int) (b : Group) (s : Text × Nat) :
    Decidable (GroupFull similar chunkSize b s) := inferInstanceAs (Decidable (_ ∨ _))

theorem Group.sentences_ne_nil {b : Group} (h : b.items ≠ []) : b.sentences ≠ [] :=
  List.append_ne_nil_of_right_ne_nil _ fun hnil => h (List.map_eq_nil_iff.mp hnil)

theorem Group.sentences_put (b : Group) (s : Text × Nat) :
    Group.sentences (b.put s) = b.sentences ++ [s.1] := by
  simp [sentences, plain, Bin.map, Bin.put]

/-- The counter is equal to the joined text in the first group, and one ahead in the others. -/
theorem Group.counter_eq {b : Group} (h : b.items ≠ []) :
    b.counter = (semanticChunk b.plain).length + if b.seed = none then 0 else 1 := by
  have hjoin := length_join (sentences_ne_nil h)
  have hchunk : semanticChunk b.plain = Text.join b.sentences := rfl
  rw [counter, hchunk, ← hjoin]
  split <;> omega

theorem Group.counter_put {b : Group} (h : b.items ≠ []) (s : Text × Nat) :
    Group.counter (b.put s) = b.counter + s.1.length + 1 := by
  have hpos := spacedLen_pos (sentences_ne_nil h)
  have hseed : (b.put s).seed = b.seed := rfl
  rw [counter, counter, sentences_put, hseed, spacedLen_append, spacedLen_singleton]
  split <;> omega

theorem Group.counter_open (overlap : Int) (b : Group) (s : Text × Nat) :
    Group.counter (b.open (Group.handOn overlap) s) =
      spacedLen (overlapSentences b.sentences overlap) + s.1.length + 1 := by
  have hsentences : Group.sentences (b.open (Group.handOn overlap) s) =
      overlapSentences b.sentences overlap ++ [s.1] := rfl
  have hseed : (b.open (Group.handOn overlap) s).seed ≠ none := Option.some_ne_none _
  rw [counter, hsentences, spacedLen_append, spacedLen_singleton, if_neg hseed]
  omega

/-- The locals hold the chunks flushed and the open group. -/
structure SemanticState.Sim (st : SemanticState) (done : List Text) (b : Group) : Prop where
  chunks : st.chunks = done
  group : st.group = b.sentences
  groupLen : st.groupLen = b.counter
  opened : b.items ≠ []

/-- A turn of the loop, for a sentence and its index. -/
def SemanticState.next (similar : Nat → Bool) (chunkSize overlap : Int) (st : SemanticState)
    (s : Text × Nat) : SemanticState := st.add chunkSize overlap s.1 (similar s.2)

section Loop

variable {similar : Nat → Bool} {chunkSize overlap : Int}

theorem SemanticState.sim_next {st : SemanticState} {done : List Text} {b : Group}
    (h : st.Sim done b) (s : Text × Nat) :
    (st.next similar chunkSize overlap s).Sim
      (done ++ (closed (GroupFull similar chunkSize) b s).map (semanticChunk ∘ Group.plain))
      (place (GroupFull similar chunkSize) (Group.handOn overlap) b s) := by
  have hiff : ((similar s.2 = false ∨ (st.groupLen + s.1.length : Int) > chunkSize) ∧
      st.group ≠ []) ↔ Closes (GroupFull similar chunkSize) b s := by
    have hgroup : st.group ≠ [] := h.group ▸ Group.sentences_ne_nil h.opened
    rw [and_iff_left hgroup, Closes, and_iff_right h.opened, h.groupLen]
    exact Iff.rfl
  have hplace : (place (GroupFull similar chunkSize) (Group.handOn overlap) b s).items ≠ [] :=
    place_ne_nil b s
  unfold next add
  by_cases hfull : Closes (GroupFull similar chunkSize) b s
  · rw [closed_of_closes hfull]
    rw [place_of_closes hfull] at hplace ⊢
    dsimp only
    rw [if_pos (hiff.mpr hfull)]
    refine ⟨?_, ?_, ?_, hplace⟩
    · rw [flush, h.chunks, h.group]
      rfl
    · rw [flush, h.group]
      rfl
    · rw [Group.counter_open, flush, h.group]
      rfl
  · rw [closed_of_room hfull]
    rw [place_of_room hfull] at hplace ⊢
    dsimp only
    rw [if_neg fun hc => hfull (hiff.mp hc)]
    refine ⟨?_, ?_, ?_, hplace⟩
    · rw [h.chunks, List.map_nil, List.append_nil]
    · rw [h.group, Group.sentences_put]
    · rw [h.groupLen, Group.counter_put h.opened]

end Loop

/-- The sentences after the first, with their indices. -/
def laterSentences (rest : List Text) : List (Text × Nat) := rest.zipIdx 1

theorem chunkSemantic_eq (first : Text) (rest : List Text) (similar : Nat → Bool)
    (chunkSize overlap : Int) :
    chunkSemantic (first :: rest) similar chunkSize overlap =
      (packFrom (GroupFull similar chunkSize) (Group.handOn overlap) ⟨none, [(first, 0)]⟩
        (laterSentences rest)).map (semanticChunk ∘ Group.plain) := by
  have hstart : (⟨[], [first], first.length⟩ : SemanticState).Sim [] ⟨none, [(first, 0)]⟩ :=
    ⟨rfl, rfl, rfl, List.cons_ne_nil _ _⟩
  refine finish_foldl (SemanticState.next similar chunkSize overlap)
    (fun st => if st.group = [] then st.chunks else st.chunks ++ [Text.join st.group])
    SemanticState.Sim (fun _ _ _ s h => SemanticState.sim_next h s) ?_ hstart
    (laterSentences rest)
  intro st done b h
  rw [h.chunks, h.group, if_neg (Group.sentences_ne_nil h.opened), packFrom_open h.opened,
    List.map_singleton]
  rfl

/-! ## The cap -/

/-- A chunk within the cap, or with one new sentence only. -/
def SemanticChunkFits (chunkSize : Int) (b : Bin (List Text) Text) : Prop :=
  ((semanticChunk b).length : Int) ≤ chunkSize ∨ ∃ s, b.items = [s]

/-- The chunks hold the sentences in order, each after the sentences carried over from the
    chunk before, and are within the cap unless they have one new sentence only. -/
def SemanticChunksFit (sentences : List Text) (chunkSize overlap : Int) (chunks : List Text) :
    Prop :=
  ∃ bins : List (Bin (List Text) Text),
    Packed (carriedSentences overlap) [] sentences bins ∧ chunks = bins.map semanticChunk ∧
      ∀ b ∈ bins, SemanticChunkFits chunkSize b

/-- Some sentences from the first on, each similar to the one before, join to one character
    more than the cap. -/
def FirstGroupOverruns (sentences : List Text) (similar : Nat → Bool) (chunkSize : Int) : Prop :=
  ∃ k, 1 ≤ k ∧ k < sentences.length ∧ (∀ j, 1 ≤ j → j ≤ k → similar j = true) ∧
    ((Text.join (sentences.take (k + 1))).length : Int) = chunkSize + 1

theorem map_fst_laterSentences (first : Text) (rest : List Text) :
    ((first, 0) :: laterSentences rest).map Prod.fst = first :: rest := by
  simp [laterSentences]

/-- The only bins that give the chunks are the greedy ones. -/
theorem semanticChunksFit_iff_bins (first : Text) (rest : List Text) (similar : Nat → Bool)
    (chunkSize overlap : Int) :
    SemanticChunksFit (first :: rest) chunkSize overlap
        (chunkSemantic (first :: rest) similar chunkSize overlap) ↔
      ∀ b ∈ packFrom (GroupFull similar chunkSize) (Group.handOn overlap) ⟨none, [(first, 0)]⟩
        (laterSentences rest), SemanticChunkFits chunkSize (Group.plain b) := by
  have hpacked : Packed (carriedSentences overlap) [] (first :: rest)
      ((packFrom (GroupFull similar chunkSize) (Group.handOn overlap) ⟨none, [(first, 0)]⟩
        (laterSentences rest)).map Group.plain) := by
    have hgreedy : Packed (Group.handOn overlap) none ((first, 0) :: laterSentences rest)
        (packFrom (GroupFull similar chunkSize) (Group.handOn overlap) ⟨none, [(first, 0)]⟩
          (laterSentences rest)) := packed_packFrom ⟨none, [(first, 0)]⟩ (laterSentences rest)
    rw [← map_fst_laterSentences first rest]
    exact hgreedy.map (fun c : Option (List Text) => c.getD []) Prod.fst fun _ => rfl
  rw [chunkSemantic_eq, ← List.map_map, ← List.forall_mem_map (f := Group.plain)]
  constructor
  · rintro ⟨bins, hcut, heq, hfit⟩
    have hsame := hpacked.eq_of_map_eq (fun _ _ => bin_eq_of_join_eq id) hcut heq
    exact hsame ▸ hfit
  · exact fun hfit => ⟨_, hpacked, rfl, hfit⟩

/-- A sentence that finds room keeps the cap unless it fills the counter of the first group. -/
theorem semanticChunkFits_put_iff {similar : Nat → Bool} {chunkSize : Int} {b : Group}
    {s : Text × Nat} (h : b.items ≠ []) (hroom : ¬GroupFull similar chunkSize b s) :
    SemanticChunkFits chunkSize (Group.plain (b.put s)) ↔
      SemanticChunkFits chunkSize b.plain ∧
        (b.seed = none → (b.counter + s.1.length : Int) ≠ chunkSize) := by
  have hle : (b.counter + s.1.length : Int) ≤ chunkSize := Int.not_lt.mp (not_or.mp hroom).2
  have hold := Group.counter_eq h
  have hput : (b.put s).items ≠ [] := by simp [Bin.put]
  have hnew := Group.counter_eq hput
  have hseed : (b.put s).seed = b.seed := rfl
  rw [Group.counter_put h, hseed] at hnew
  have hmany : ¬∃ t, (Group.plain (b.put s)).items = [t] := by
    rintro ⟨t, ht⟩
    have hone := congrArg List.length ht
    have hpos := List.length_pos_iff.mpr h
    have hlen : (Group.plain (b.put s)).items.length = b.items.length + 1 := by
      simp [Group.plain, Bin.map, Bin.put]
    rw [hlen, List.length_singleton] at hone
    omega
  have hfits : SemanticChunkFits chunkSize b.plain := by
    refine Or.inl ?_
    split at hold <;> omega
  rw [and_iff_right hfits, SemanticChunkFits, or_iff_left hmany]
  by_cases hnone : b.seed = none
  · rw [if_pos hnone] at hold hnew
    constructor
    · intro hfit _
      omega
    · intro hne
      have hlt := hne hnone
      omega
  · rw [if_neg hnone] at hold hnew
    exact iff_of_true (by omega) fun hc => absurd hc hnone

/-! ## The first group -/

section FirstGroup

variable {similar : Nat → Bool} {chunkSize overlap : Int}

/-- The open group after some sentences. -/
def groupAfter (similar : Nat → Bool) (chunkSize overlap : Int) (b : Group)
    (later : List (Text × Nat)) : Group :=
  later.foldl (place (GroupFull similar chunkSize) (Group.handOn overlap)) b

/-- A group that carries sentences is never the first again. -/
theorem groupAfter_ne_none {b : Group} (h : b.seed ≠ none) (later : List (Text × Nat)) :
    (groupAfter similar chunkSize overlap b later).seed ≠ none := by
  induction later generalizing b with
  | nil => exact h
  | cons s later ih =>
      refine ih ?_
      by_cases hfull : Closes (GroupFull similar chunkSize) b s
      · rw [place_of_closes hfull]
        exact Option.some_ne_none _
      · rw [place_of_room hfull]
        exact h

/-- A sentence joins the first group and fills its counter to the character. -/
def FillsFirst (similar : Nat → Bool) (chunkSize : Int) (b : Group) (s : Text × Nat) : Prop :=
  b.seed = none ∧ ¬GroupFull similar chunkSize b s ∧ (b.counter + s.1.length : Int) = chunkSize

/-- One of the sentences does. -/
def FillsAlong (similar : Nat → Bool) (chunkSize overlap : Int) (b : Group)
    (later : List (Text × Nat)) : Prop :=
  ∃ before s after, later = before ++ s :: after ∧
    FillsFirst similar chunkSize (groupAfter similar chunkSize overlap b before) s

/-- Some of the sentences, all similar to the one before, join to one character too many. -/
def OverrunsAlong (similar : Nat → Bool) (chunkSize : Int) (items later : List (Text × Nat)) :
    Prop :=
  ∃ n, n < later.length ∧ (∀ s ∈ later.take (n + 1), similar s.2 = true) ∧
    ((Text.join ((items ++ later.take (n + 1)).map Prod.fst)).length : Int) = chunkSize + 1

theorem fillsAlong_cons (b : Group) (s : Text × Nat) (later : List (Text × Nat)) :
    FillsAlong similar chunkSize overlap b (s :: later) ↔ FillsFirst similar chunkSize b s ∨
      FillsAlong similar chunkSize overlap
        (place (GroupFull similar chunkSize) (Group.handOn overlap) b s) later := by
  constructor
  · rintro ⟨before, s', after, heq, hfills⟩
    cases before with
    | nil =>
        obtain ⟨rfl, rfl⟩ := List.cons.inj heq
        exact Or.inl hfills
    | cons c before =>
        obtain ⟨rfl, rfl⟩ := List.cons.inj heq
        exact Or.inr ⟨before, s', after, rfl, hfills⟩
  · rintro (hfills | ⟨before, s', after, rfl, hfills⟩)
    · exact ⟨[], s, later, rfl, hfills⟩
    · exact ⟨s :: before, s', after, rfl, hfills⟩

theorem not_fillsAlong {b : Group} (h : b.seed ≠ none) (later : List (Text × Nat)) :
    ¬FillsAlong similar chunkSize overlap b later := by
  rintro ⟨before, s, after, -, hfirst, -⟩
  exact groupAfter_ne_none h before hfirst

theorem overrunsAlong_cons (items : List (Text × Nat)) (s : Text × Nat)
    (later : List (Text × Nat)) :
    OverrunsAlong similar chunkSize items (s :: later) ↔ similar s.2 = true ∧
      (((Text.join ((items ++ [s]).map Prod.fst)).length : Int) = chunkSize + 1 ∨
        OverrunsAlong similar chunkSize (items ++ [s]) later) := by
  constructor
  · rintro ⟨n, hn, hsimilar, hlen⟩
    refine ⟨hsimilar s (by simp), ?_⟩
    cases n with
    | zero => exact Or.inl (by simpa using hlen)
    | succ n =>
        refine Or.inr ⟨n, Nat.lt_of_succ_lt_succ hn, ?_, by simpa using hlen⟩
        exact fun s' hs' => hsimilar s' (List.mem_cons_of_mem _ hs')
  · rintro ⟨hs, hlen | ⟨n, hn, hsimilar, hlen⟩⟩
    · exact ⟨0, Nat.succ_pos _, by simpa using hs, by simpa using hlen⟩
    · refine ⟨n + 1, Nat.succ_lt_succ hn, ?_, by simpa using hlen⟩
      rw [List.take_succ_cons]
      exact List.forall_mem_cons.mpr ⟨hs, hsimilar⟩

/-- What is to grow to one character too many is within the cap. -/
theorem OverrunsAlong.length_le {items later : List (Text × Nat)} (hne : items ≠ [])
    (h : OverrunsAlong similar chunkSize items later) :
    ((Text.join (items.map Prod.fst)).length : Int) ≤ chunkSize := by
  obtain ⟨n, hn, -, hlen⟩ := h
  have hmore : later.take (n + 1) ≠ [] := by
    obtain ⟨s, rest, rfl⟩ := List.exists_cons_of_length_pos (Nat.zero_lt_of_lt hn)
    exact List.cons_ne_nil _ _
  have hnames : items.map Prod.fst ≠ [] := fun hnil => hne (List.map_eq_nil_iff.mp hnil)
  have hmore' : (later.take (n + 1)).map Prod.fst ≠ [] :=
    fun hnil => hmore (List.map_eq_nil_iff.mp hnil)
  have hlt := length_join_lt hnames hmore'
  rw [← List.map_append] at hlt
  omega

/-- A sentence fills the counter of the first group exactly when the sentences up to it join to
    one character too many. -/
theorem fillsAlong_iff {items : List (Text × Nat)} (hne : items ≠ [])
    (later : List (Text × Nat)) :
    FillsAlong similar chunkSize overlap ⟨none, items⟩ later ↔
      OverrunsAlong similar chunkSize items later := by
  induction later generalizing items with
  | nil => simp [FillsAlong, OverrunsAlong]
  | cons s later ih =>
      have hput : items ++ [s] ≠ [] := List.append_ne_nil_of_right_ne_nil _ (List.cons_ne_nil _ _)
      have hlen : Group.counter ⟨none, items⟩ + s.1.length + 1 =
          (Text.join ((items ++ [s]).map Prod.fst)).length :=
        (Group.counter_put (b := ⟨none, items⟩) hne s).symm.trans
          (Group.counter_eq (b := ⟨none, items ++ [s]⟩) hput)
      rw [fillsAlong_cons, overrunsAlong_cons]
      by_cases hfull : GroupFull similar chunkSize ⟨none, items⟩ s
      · have hcloses : Closes (GroupFull similar chunkSize) ⟨none, items⟩ s := ⟨hne, hfull⟩
        rw [place_of_closes hcloses]
        refine iff_of_false ?_ ?_
        · rintro (hfills | hfills)
          · exact hfills.2.1 hfull
          · exact not_fillsAlong (Option.some_ne_none _) later hfills
        · rintro ⟨hs, hover⟩
          have hcap := hfull.resolve_left (by simp [hs])
          rcases hover with hone | hmore
          · omega
          · have hle := hmore.length_le hput
            omega
      · have hroom : ¬Closes (GroupFull similar chunkSize) ⟨none, items⟩ s := fun h => hfull h.2
        have hs : similar s.2 = true := by simpa using (not_or.mp hfull).1
        rw [place_of_room hroom, and_iff_right hs]
        refine or_congr ?_ (ih hput)
        constructor
        · rintro ⟨-, -, hfills⟩
          omega
        · exact fun hone => ⟨rfl, hfull, by omega⟩

end FirstGroup

/-- The run of similar sentences, by indices. -/
theorem overrunsAlong_laterSentences (first : Text) (rest : List Text) (similar : Nat → Bool)
    (chunkSize : Int) :
    OverrunsAlong similar chunkSize [(first, 0)] (laterSentences rest) ↔
      FirstGroupOverruns (first :: rest) similar chunkSize := by
  have htake : ∀ n, ([(first, 0)] ++ (laterSentences rest).take (n + 1)).map Prod.fst =
      (first :: rest).take (n + 2) := fun n => by
    rw [List.singleton_append, List.map_cons, List.map_take, List.take_succ_cons]
    simp [laterSentences]
  have hsimilar : ∀ n, n < rest.length →
      ((∀ s ∈ (laterSentences rest).take (n + 1), similar s.2 = true) ↔
        ∀ j, 1 ≤ j → j ≤ n + 1 → similar j = true) := by
    intro n hn
    have hindices : ((laterSentences rest).take (n + 1)).map Prod.snd = List.range' 1 (n + 1) := by
      rw [List.map_take, laterSentences, List.zipIdx_map_snd,
        List.take_range'_of_length_ge (Nat.succ_le_of_lt hn)]
    rw [← List.forall_mem_map (f := Prod.snd) (P := fun j => similar j = true), hindices]
    simp only [List.mem_range'_1]
    exact ⟨fun h j h1 h2 => h j ⟨h1, by omega⟩, fun h j hj => h j hj.1 (by omega)⟩
  have hlength : (laterSentences rest).length = rest.length := by simp [laterSentences]
  constructor
  · rintro ⟨n, hn, hall, hlen⟩
    rw [hlength] at hn
    rw [htake] at hlen
    exact ⟨n + 1, Nat.succ_pos n, Nat.succ_lt_succ hn, (hsimilar n hn).mp hall, hlen⟩
  · rintro ⟨k, hk, hlt, hall, hlen⟩
    obtain ⟨n, rfl⟩ := Nat.exists_eq_add_of_le' hk
    have hn : n < rest.length := Nat.lt_of_succ_lt_succ hlt
    exact ⟨n, hlength ▸ hn, (hsimilar n hn).mpr hall, by rw [htake]; exact hlen⟩

/-- The greedy bins keep to the cap exactly when no sentence fills the counter of the first
    group. -/
theorem forall_semanticChunkFits_iff (first : Text) (rest : List Text) (similar : Nat → Bool)
    (chunkSize overlap : Int) :
    (∀ b ∈ packFrom (GroupFull similar chunkSize) (Group.handOn overlap) ⟨none, [(first, 0)]⟩
        (laterSentences rest), SemanticChunkFits chunkSize (Group.plain b)) ↔
      ¬FillsAlong similar chunkSize overlap ⟨none, [(first, 0)]⟩ (laterSentences rest) := by
  have hfirst : SemanticChunkFits chunkSize (Group.plain ⟨none, [(first, 0)]⟩) :=
    Or.inr ⟨first, rfl⟩
  refine (forall_packFrom_iff (P := fun b : Group => SemanticChunkFits chunkSize b.plain)
    (fun _ s => Or.inr ⟨s.1, rfl⟩) (fun _ _ h hroom => semanticChunkFits_put_iff h hroom)
    (laterSentences rest)).trans ?_
  constructor
  · rintro ⟨-, h⟩ ⟨before, s, after, heq, hnone, hroom, hfills⟩
    exact h before s after heq (foldl_place_ne_nil (List.cons_ne_nil _ _) before) hroom hnone hfills
  · exact fun h => ⟨fun _ => hfirst, fun before s after heq _ hroom hnone hfills =>
      h ⟨before, s, after, heq, hnone, hroom, hfills⟩⟩

/-- The chunks keep to the cap exactly when no run of similar sentences from the first on joins
    to one character more. -/
theorem semanticChunksFit_iff (sentences : List Text) (similar : Nat → Bool)
    (chunkSize overlap : Int) :
    SemanticChunksFit sentences chunkSize overlap
        (chunkSemantic sentences similar chunkSize overlap) ↔
      ¬FirstGroupOverruns sentences similar chunkSize := by
  cases sentences with
  | nil =>
      refine iff_of_true ⟨[], .nil _, rfl, fun b hb => absurd hb List.not_mem_nil⟩ ?_
      rintro ⟨k, -, hk, -⟩
      exact absurd hk (Nat.not_lt_zero k)
  | cons first rest =>
      rw [semanticChunksFit_iff_bins, forall_semanticChunkFits_iff,
        fillsAlong_iff (List.cons_ne_nil _ _), overrunsAlong_laterSentences]

/-- Four characters are allowed; two similar sentences of two make one chunk of five. -/
theorem first_group_overruns_cap :
    ¬∀ (sentences : List Text) (similar : Nat → Bool) (chunkSize overlap : Int),
      sentences ≠ [] → 1 ≤ chunkSize → 0 ≤ overlap →
      SemanticChunksFit sentences chunkSize overlap
        (chunkSemantic sentences similar chunkSize overlap) := by
  intro h
  have hfit := (semanticChunksFit_iff_bins _ _ _ _ _).mp
    (h ["A.".toList, "B.".toList] (fun _ => true) 4 0 (by decide) (by decide) (by decide))
    ⟨none, [("A.".toList, 0), ("B.".toList, 1)]⟩ (by decide +kernel)
  rcases hfit with hlen | ⟨s, hs⟩
  · exact absurd hlen (by decide +kernel)
  · exact absurd (congrArg List.length hs) (by simp [Group.plain, Bin.map])

/-! ## The carried sentences -/

/-- The sentences that a flushed group hands on: a tail of it that fits into the overlap or is
    its last sentence, and that one sentence more would make too long. Only into an overlap of
    zero, which hands on nothing, an empty last sentence would fit. -/
structure LongestTail (flushed : List Text) (overlap : Int) (carried : List Text) : Prop where
  suffix : carried <:+ flushed
  empty : carried = [] ↔ overlap ≤ 0 ∨ flushed = []
  fits : carried ≠ [] →
    ((Text.join carried).length : Int) ≤ overlap ∨ carried = flushed.getLast?.toList
  longest : ∀ earlier sentence, flushed = earlier ++ sentence :: carried →
    carried ≠ [] ∨ sentence ≠ [] ∨ overlap ≠ 0 → overlap < (Text.join (sentence :: carried)).length

/-- `carried_len` is one ahead of the joined text, so with the next sentence it is its length. -/
theorem length_join_cons (sentence : Text) (carried : List Text) :
    (Text.join (sentence :: carried)).length = spacedLen carried + sentence.length := by
  have hjoin := length_join (List.cons_ne_nil sentence carried)
  have hsum : spacedLen (sentence :: carried) = sentence.length + 1 + spacedLen carried :=
    spacedLen_append [sentence] carried
  omega

/-- The loop of `_overlap_sentences`, once the sentences in `carried` have been taken. -/
theorem carryBack_longest {overlap : Int} (hpos : 0 < overlap) (back carried : List Text)
    (hfits : carried ≠ [] → ((Text.join carried).length : Int) ≤ overlap ∨
      carried = (back.reverse ++ carried).getLast?.toList)
    (hne : back.reverse ++ carried ≠ []) :
    LongestTail (back.reverse ++ carried) overlap
      (carryBack overlap back carried (spacedLen carried)) := by
  have hzero : ¬overlap ≤ 0 := Int.not_le.mpr hpos
  induction back generalizing carried with
  | nil =>
      refine ⟨List.suffix_refl _, by simp [carryBack, hzero], hfits, ?_⟩
      intro earlier sentence heq
      have hlen := congrArg List.length heq
      simp [carryBack] at hlen
      omega
  | cons sentence earlier ih =>
      have hlist : (sentence :: earlier).reverse ++ carried =
          earlier.reverse ++ sentence :: carried := by
        rw [List.reverse_cons, List.append_assoc, List.singleton_append]
      rw [hlist] at hfits hne ⊢
      unfold carryBack
      split
      · rename_i hstop
        refine ⟨⟨earlier.reverse ++ [sentence], by simp⟩, ?_, hfits, ?_⟩
        · exact iff_of_false hstop.1 (not_or.mpr ⟨hzero, hne⟩)
        · rintro earlier' sentence' heq -
          obtain ⟨-, hcons⟩ := List.append_inj' heq rfl
          obtain rfl := (List.cons.inj hcons).1
          rw [length_join_cons]
          exact_mod_cast hstop.2
      · rename_i hgo
        have hcounter : spacedLen carried + sentence.length + 1 =
            spacedLen (sentence :: carried) := by
          rw [← List.singleton_append, spacedLen_append, spacedLen_singleton]
          omega
        rw [hcounter]
        refine ih (sentence :: carried) (fun _ => ?_) hne
        by_cases hcarried : carried = []
        · subst hcarried
          exact Or.inr (by simp)
        · refine Or.inl ?_
          rw [length_join_cons]
          exact_mod_cast Int.not_lt.mp fun hlt => hgo ⟨hcarried, hlt⟩

/-- `_overlap_sentences` carries the longest tail that fits. -/
theorem overlapSentences_longest (flushed : List Text) (overlap : Int) :
    LongestTail flushed overlap (overlapSentences flushed overlap) := by
  unfold overlapSentences
  split
  · rename_i hnone
    refine ⟨List.nil_suffix, iff_of_true rfl hnone, fun h => absurd rfl h, ?_⟩
    rintro earlier sentence rfl h
    have hoverlap : overlap ≤ 0 := hnone.resolve_right (by simp)
    have hjoin : Text.join [sentence] = sentence := by simp [Text.join]
    rw [hjoin]
    rcases h with hnil | hsentence | hzero
    · exact absurd rfl hnil
    · have hlen : 0 < sentence.length := List.length_pos_iff.mpr hsentence
      omega
    · omega
  · rename_i hsome
    obtain ⟨hoverlap, hflushed⟩ := not_or.mp hsome
    have h := carryBack_longest (Int.not_le.mp hoverlap) flushed.reverse [] (fun h => absurd rfl h)
      (by simpa using hflushed)
    rwa [List.reverse_reverse, List.append_nil] at h

end RagParamsFinder
