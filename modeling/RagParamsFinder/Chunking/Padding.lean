/-
  Padding: `_apply_padding` of `server/core/chunkers/__init__.py`.

  Chunks are merged forward until they have the minimum length. A remainder that stays below
  it joins the last chunk that was accepted, and the two are stripped together: a chunk that
  was accepted with whitespace around it can lose more than the remainder brings.

  Proved: `ink_applyPadding`: the characters that are not whitespace stay, in order.
  `remainderLeavesPadding_iff`: a chunk that was merged of several has no whitespace to lose.
  `paddingGuaranteed_iff`: two or more chunks all have the minimum length exactly when a chunk
  that was the last to be accepted, as it stood, makes up for the whitespace around it.
-/
import Mathlib.Data.List.Basic
import Mathlib.Data.List.Induction
import Mathlib.Data.List.Infix
import Mathlib.Data.List.TakeWhile
import RagParamsFinder.Chunking.Chunkers

namespace RagParamsFinder

/-! ## Whitespace -/

namespace Text

/-- The characters that are not whitespace. -/
def ink (cs : Text) : Text := cs.filter fun c => !isSpace c

/-- The number of whitespace characters at the start. -/
def leadingSpace (cs : Text) : Nat := (cs.takeWhile isSpace).length

/-- The number of whitespace characters at both ends; all twice, where there are no others. -/
def outerSpace (cs : Text) : Nat := leadingSpace cs + leadingSpace cs.reverse

theorem ink_append (cs ds : Text) : ink (cs ++ ds) = ink cs ++ ink ds := List.filter_append ..

theorem ink_dropWhile (cs : Text) : ink (cs.dropWhile isSpace) = ink cs := by
  induction cs with
  | nil => rfl
  | cons c cs ih =>
      rw [List.dropWhile_cons]
      split
      · rename_i hc
        rw [ih, ink, ink, List.filter_cons_of_neg (by simp [hc])]
      · rfl

theorem ink_reverse (cs : Text) : ink cs.reverse = (ink cs).reverse := List.filter_reverse ..

theorem ink_strip (cs : Text) : ink (strip cs) = ink cs := by
  rw [strip, ink_reverse, ink_dropWhile, ink_reverse, List.reverse_reverse, ink_dropWhile]

theorem length_dropWhile (cs : Text) :
    (cs.dropWhile isSpace).length = cs.length - leadingSpace cs := by
  have hsplit := congrArg List.length (List.takeWhile_append_dropWhile (p := isSpace) (l := cs))
  rw [List.length_append] at hsplit
  rw [leadingSpace]
  omega

/-- A strip takes off what stands at both ends. -/
theorem length_strip (cs : Text) : (strip cs).length = cs.length - outerSpace cs := by
  rw [strip, List.length_reverse, length_dropWhile, List.length_reverse, length_dropWhile,
    outerSpace]
  by_cases hall : ∀ c ∈ cs, isSpace c = true
  · have hlead : leadingSpace cs = cs.length := by
      rw [leadingSpace, List.takeWhile_eq_self_iff.mpr hall]
    omega
  · have hne : cs.dropWhile isSpace ≠ [] := fun hnil => hall (List.dropWhile_eq_nil_iff.mp hnil)
    have hrev : leadingSpace (cs.dropWhile isSpace).reverse = leadingSpace cs.reverse := by
      have hsplit : cs.reverse =
          (cs.dropWhile isSpace).reverse ++ (cs.takeWhile isSpace).reverse := by
        rw [← List.reverse_append, List.takeWhile_append_dropWhile]
      have hstop : ¬((cs.dropWhile isSpace).reverse.takeWhile isSpace).length =
          (cs.dropWhile isSpace).reverse.length := by
        intro hlen
        have hspace := List.takeWhile_eq_self_iff.mp ((List.takeWhile_prefix _).eq_of_length hlen)
        have hhead := hspace _ (List.mem_reverse.mpr (List.head_mem hne))
        exact absurd hhead (by rw [List.head_dropWhile_not isSpace hne]; decide)
      rw [leadingSpace, leadingSpace, hsplit, List.takeWhile_append, if_neg hstop]
    rw [hrev]
    omega

theorem leadingSpace_le (cs : Text) : leadingSpace cs ≤ cs.length :=
  (List.takeWhile_prefix _).length_le

theorem ink_eq_nil_iff {cs : Text} : ink cs = [] ↔ leadingSpace cs = cs.length := by
  have hall : ink cs = [] ↔ ∀ c ∈ cs, isSpace c = true := by
    simp [ink, List.filter_eq_nil_iff]
  rw [hall, ← List.takeWhile_eq_self_iff]
  constructor
  · exact fun h => congrArg List.length h
  · exact fun h => (List.takeWhile_prefix _).eq_of_length h

/-- What follows a text that is not blank does not change its leading whitespace. -/
theorem leadingSpace_append {cs : Text} (h : ink cs ≠ []) (ds : Text) :
    leadingSpace (cs ++ ds) = leadingSpace cs := by
  have hstop : ¬(cs.takeWhile isSpace).length = cs.length := fun hlen =>
    h (ink_eq_nil_iff.mpr hlen)
  rw [leadingSpace, List.takeWhile_append, if_neg hstop]
  rfl

theorem leadingSpace_append_of_blank {cs : Text} (h : ink cs = []) (ds : Text) :
    leadingSpace (cs ++ ds) = cs.length + leadingSpace ds := by
  have hall : (cs.takeWhile isSpace).length = cs.length := ink_eq_nil_iff.mp h
  rw [leadingSpace, List.takeWhile_append, if_pos hall, List.length_append]
  rfl

theorem ink_reverse_eq_nil_iff {cs : Text} : ink cs.reverse = [] ↔ ink cs = [] := by
  rw [ink_reverse, List.reverse_eq_nil_iff]

/-- The trailing whitespace of two texts with a space between them. -/
theorem leadingSpace_reverse_joined (cs ds : Text) :
    leadingSpace (cs ++ ' ' :: ds : Text).reverse =
      if ink ds = [] then ds.length + 1 + leadingSpace cs.reverse else leadingSpace ds.reverse := by
  have hsplit : (cs ++ ' ' :: ds : Text).reverse = ds.reverse ++ ([' '] ++ cs.reverse) := by simp
  have hspace : leadingSpace ([' '] ++ cs.reverse) = 1 + leadingSpace cs.reverse :=
    leadingSpace_append_of_blank rfl _
  rw [hsplit]
  split
  · rename_i hblank
    rw [leadingSpace_append_of_blank (ink_reverse_eq_nil_iff.mpr hblank), hspace,
      List.length_reverse, Nat.add_assoc]
  · rename_i hink
    exact leadingSpace_append (fun h => hink (ink_reverse_eq_nil_iff.mp h)) _

theorem leadingSpace_strip {cs : Text} (h : strip cs ≠ []) : leadingSpace (strip cs) = 0 := by
  have hink : ink cs ≠ [] := by
    intro hnil
    refine h (List.eq_nil_of_length_eq_zero ?_)
    rw [length_strip, outerSpace, ink_eq_nil_iff.mp hnil]
    omega
  have hdrop : cs.dropWhile isSpace ≠ [] := fun hnil =>
    hink ((ink_dropWhile cs).symm.trans (congrArg ink hnil))
  have hpre : strip cs <+: cs.dropWhile isSpace := by
    have hsuffix := List.dropWhile_suffix (l := (cs.dropWhile isSpace).reverse) isSpace
    rw [strip]
    simpa using List.reverse_prefix.mpr hsuffix
  obtain ⟨c, rest, hc⟩ := List.exists_cons_of_ne_nil h
  obtain ⟨more, hmore⟩ := hpre
  have hhead : (cs.dropWhile isSpace).head hdrop = c := by
    simp [← hmore, hc]
  have hnot : isSpace c = false := hhead ▸ List.head_dropWhile_not isSpace hdrop
  rw [hc, leadingSpace, List.takeWhile_cons_of_neg (by simp [hnot])]
  rfl

theorem leadingSpace_reverse_strip {cs : Text} (h : strip cs ≠ []) :
    leadingSpace (strip cs).reverse = 0 := by
  have hrev : (strip cs).reverse = (cs.dropWhile isSpace).reverse.dropWhile isSpace := by
    rw [strip, List.reverse_reverse]
  have hne : (cs.dropWhile isSpace).reverse.dropWhile isSpace ≠ [] := fun hnil =>
    h (List.reverse_eq_nil_iff.mp (hrev.trans hnil))
  obtain ⟨c, rest, hc⟩ := List.exists_cons_of_ne_nil hne
  have hnot := List.head_dropWhile_not isSpace hne
  simp only [hc, List.head_cons] at hnot
  rw [hrev, hc, leadingSpace, List.takeWhile_cons_of_neg (by simp [hnot])]
  rfl

/-- A text without outer whitespace loses nothing when a text is joined on. -/
theorem length_le_strip_joined {cs : Text} (hne : cs ≠ []) (hlead : leadingSpace cs = 0)
    (htrail : leadingSpace cs.reverse = 0) (ds : Text) :
    cs.length ≤ (strip (cs ++ ' ' :: ds)).length := by
  have hink : ink cs ≠ [] := fun hnil =>
    hne (List.eq_nil_of_length_eq_zero ((ink_eq_nil_iff.mp hnil).symm.trans hlead))
  have hle := leadingSpace_le ds.reverse
  rw [List.length_reverse] at hle
  rw [length_strip, outerSpace, leadingSpace_append hink, hlead, leadingSpace_reverse_joined,
    List.length_append, List.length_cons, htrail]
  split <;> omega

end Text

/-! ## The loop -/

/-- The locals of `_apply_padding` after the loop. -/
def paddingLoop (chunks : List Text) (padding : Int) : PaddingState :=
  chunks.foldl (PaddingState.add padding) ⟨[], []⟩

/-- What the loop holds, put together. -/
def PaddingState.text (st : PaddingState) : Text := st.merged.flatten ++ st.buffer

/-- A text with a chunk joined on. -/
def joinOn (text chunk : Text) : Text :=
  if text = [] then chunk else (text ++ ' ' :: chunk : Text).strip

/-- The buffer with a chunk joined on. -/
def PaddingState.join (st : PaddingState) (chunk : Text) : Text := joinOn st.buffer chunk

theorem PaddingState.add_of_long {padding : Int} {st : PaddingState} {chunk : Text}
    (h : padding ≤ (st.join chunk).length) :
    st.add padding chunk = ⟨st.merged ++ [st.join chunk], []⟩ := if_pos h

theorem PaddingState.add_of_short {padding : Int} {st : PaddingState} {chunk : Text}
    (h : ¬padding ≤ (st.join chunk).length) :
    st.add padding chunk = ⟨st.merged, st.join chunk⟩ := if_neg h

theorem PaddingState.ink_join (st : PaddingState) (chunk : Text) :
    Text.ink (st.join chunk) = Text.ink st.buffer ++ Text.ink chunk := by
  unfold join joinOn
  split
  · rename_i hnil
    rw [hnil]
    rfl
  · rw [Text.ink_strip, Text.ink_append]
    rfl

theorem PaddingState.ink_add (padding : Int) (st : PaddingState) (chunk : Text) :
    Text.ink (st.add padding chunk).text = Text.ink st.text ++ Text.ink chunk := by
  have hink : Text.ink st.text ++ Text.ink chunk =
      Text.ink st.merged.flatten ++ Text.ink (st.join chunk) := by
    rw [ink_join, text, Text.ink_append, List.append_assoc]
  rw [hink]
  by_cases h : padding ≤ (st.join chunk).length
  · rw [add_of_long h, text, List.flatten_append, List.flatten_singleton, List.append_nil,
      Text.ink_append]
  · rw [add_of_short h, text, Text.ink_append]

theorem PaddingState.ink_foldl (padding : Int) (st : PaddingState) (chunks : List Text) :
    Text.ink (chunks.foldl (PaddingState.add padding) st).text =
      Text.ink st.text ++ Text.ink chunks.flatten := by
  induction chunks generalizing st with
  | nil => simp [Text.ink]
  | cons chunk chunks ih =>
      rw [List.foldl_cons, ih, ink_add, List.flatten_cons, Text.ink_append, List.append_assoc]

/-- What the loop accepts has the minimum length. -/
theorem PaddingState.length_foldl {padding : Int} {st : PaddingState}
    (h : ∀ c ∈ st.merged, padding ≤ c.length) (chunks : List Text) :
    ∀ c ∈ (chunks.foldl (PaddingState.add padding) st).merged, padding ≤ c.length := by
  induction chunks generalizing st with
  | nil => exact h
  | cons chunk chunks ih =>
      refine ih ?_
      by_cases hlong : padding ≤ (st.join chunk).length
      · rw [add_of_long hlong, List.forall_mem_append]
        exact ⟨h, List.forall_mem_singleton.mpr hlong⟩
      · rw [add_of_short hlong]
        exact h

theorem length_paddingLoop (chunks : List Text) (padding : Int) :
    ∀ c ∈ (paddingLoop chunks padding).merged, padding ≤ c.length :=
  PaddingState.length_foldl (fun _ hc => absurd hc List.not_mem_nil) chunks

theorem ink_paddingLoop (chunks : List Text) (padding : Int) :
    Text.ink (paddingLoop chunks padding).text = Text.ink chunks.flatten :=
  PaddingState.ink_foldl padding ⟨[], []⟩ chunks

/-! ## Which chunks are merged -/

/-- Chunks joined one by one. -/
def joined (chunks : List Text) : Text := chunks.foldl joinOn []

/-- Chunks that never reach the minimum length, joined one by one. -/
def Short (padding : Int) (chunks : List Text) : Prop :=
  ∀ pre, pre <+: chunks → pre ≠ [] → ((joined pre).length : Int) < padding

/-- Chunks that fall into groups, each of which reaches the minimum length with its last. -/
inductive InGroups (padding : Int) : List Text → Prop
  | nil : InGroups padding []
  | group {before init : List Text} {chunk : Text} (hbefore : InGroups padding before)
      (hshort : Short padding init) (hlong : padding ≤ (joined (init ++ [chunk])).length) :
      InGroups padding (before ++ (init ++ [chunk]))

theorem joined_append_singleton (chunks : List Text) (chunk : Text) :
    joined (chunks ++ [chunk]) = joinOn (joined chunks) chunk := by
  rw [joined, List.foldl_append]
  rfl

/-- A chunk that finds an empty buffer is taken as it stands. -/
theorem joined_of_init_nil {init : List Text} (h : joined init = []) (chunk : Text) :
    joined (init ++ [chunk]) = chunk := by
  rw [joined_append_singleton, h]
  rfl

section InGroups

variable {padding : Int}

theorem Short.of_prefix {pre chunks : List Text} (h : Short padding chunks)
    (hpre : pre <+: chunks) : Short padding pre :=
  fun p hp hne => h p (hp.trans hpre) hne

theorem Short.append_singleton {chunks : List Text} {chunk : Text} (h : Short padding chunks)
    (hlast : ((joined (chunks ++ [chunk])).length : Int) < padding) :
    Short padding (chunks ++ [chunk]) := by
  intro pre hpre hne
  rcases List.prefix_concat_iff.mp hpre with rfl | hpre
  · simpa using hlast
  · exact h pre hpre hne

theorem Short.length_lt {chunks : List Text} (h : Short padding chunks)
    (hne : joined chunks ≠ []) : ((joined chunks).length : Int) < padding :=
  h chunks List.prefix_rfl fun hnil => hne (by rw [hnil]; rfl)

/-- Short chunks wait in the buffer. -/
theorem foldl_short {chunks : List Text} (h : Short padding chunks) (accepted : List Text) :
    chunks.foldl (PaddingState.add padding) ⟨accepted, []⟩ = ⟨accepted, joined chunks⟩ := by
  induction chunks using List.reverseRecOn with
  | nil => rfl
  | append_singleton chunks chunk ih =>
      have hshort := h (chunks ++ [chunk]) List.prefix_rfl (by simp)
      rw [joined_append_singleton] at hshort ⊢
      rw [List.foldl_append, ih (h.of_prefix (List.prefix_append _ _)), List.foldl_cons,
        List.foldl_nil]
      exact PaddingState.add_of_short (Int.not_le.mpr hshort)

/-- A group is accepted as one chunk. -/
theorem foldl_group {init : List Text} {chunk : Text} (hshort : Short padding init)
    (hlong : padding ≤ (joined (init ++ [chunk])).length) (accepted : List Text) :
    (init ++ [chunk]).foldl (PaddingState.add padding) ⟨accepted, []⟩ =
      ⟨accepted ++ [joined (init ++ [chunk])], []⟩ := by
  rw [joined_append_singleton] at hlong ⊢
  rw [List.foldl_append, foldl_short hshort, List.foldl_cons, List.foldl_nil]
  exact PaddingState.add_of_long hlong

/-- After whole groups the buffer is empty. -/
theorem InGroups.loop {before : List Text} (h : InGroups padding before) :
    ∃ accepted, paddingLoop before padding = ⟨accepted, []⟩ ∧
      (accepted = [] ↔ before = []) := by
  induction h with
  | nil => exact ⟨[], rfl, Iff.rfl⟩
  | @group before init chunk _ hshort hlong ih =>
      obtain ⟨accepted, hloop, -⟩ := ih
      refine ⟨accepted ++ [joined (init ++ [chunk])], ?_, by simp⟩
      unfold paddingLoop at hloop ⊢
      rw [List.foldl_append, hloop, foldl_group hshort hlong]

/-- Short chunks behind whole groups wait in the buffer. -/
theorem InGroups.loop_short {before rest : List Text} (h : InGroups padding before)
    (hrest : Short padding rest) :
    ∃ accepted, paddingLoop (before ++ rest) padding = ⟨accepted, joined rest⟩ ∧
      (accepted = [] ↔ before = []) := by
  obtain ⟨accepted, hloop, hempty⟩ := h.loop
  refine ⟨accepted, ?_, hempty⟩
  unfold paddingLoop at hloop ⊢
  rw [List.foldl_append, hloop, foldl_short hrest]

/-- The same with the last of the groups apart. -/
theorem InGroups.loop_group_short {before init rest : List Text} {chunk : Text}
    (h : InGroups padding before) (hinit : Short padding init)
    (hlong : padding ≤ (joined (init ++ [chunk])).length) (hrest : Short padding rest) :
    ∃ accepted, paddingLoop (before ++ (init ++ [chunk]) ++ rest) padding =
        ⟨accepted ++ [joined (init ++ [chunk])], joined rest⟩ ∧
      (accepted = [] ↔ before = []) := by
  obtain ⟨accepted, hloop, hempty⟩ := h.loop
  refine ⟨accepted, ?_, hempty⟩
  unfold paddingLoop at hloop ⊢
  rw [List.foldl_append, List.foldl_append, hloop, foldl_group hinit hlong, foldl_short hrest]

/-- Chunks are whole groups and short ones behind them. -/
theorem exists_groups (padding : Int) (chunks : List Text) :
    ∃ before rest, chunks = before ++ rest ∧ InGroups padding before ∧ Short padding rest := by
  induction chunks using List.reverseRecOn with
  | nil => exact ⟨[], [], rfl, .nil, fun pre hpre hne => absurd (List.prefix_nil.mp hpre) hne⟩
  | append_singleton chunks chunk ih =>
      obtain ⟨before, rest, rfl, hbefore, hrest⟩ := ih
      by_cases hlong : padding ≤ (joined (rest ++ [chunk])).length
      · exact ⟨before ++ (rest ++ [chunk]), [], by simp, .group hbefore hrest hlong,
          fun pre hpre hne => absurd (List.prefix_nil.mp hpre) hne⟩
      · exact ⟨before, rest ++ [chunk], by simp, hbefore,
          hrest.append_singleton (Int.not_le.mp hlong)⟩

end InGroups

/-! ## The remainder -/

/-- What is returned after the loop. -/
def PaddingState.finish (st : PaddingState) : List Text :=
  if st.buffer = [] then st.merged
  else
    match st.merged.getLast? with
    | none => [st.buffer]
    | some last => st.merged.dropLast ++ [(last ++ ' ' :: st.buffer : Text).strip]

theorem applyPadding_eq {chunks : List Text} {padding : Int}
    (h : ¬(padding ≤ 0 ∨ chunks.length ≤ 1)) :
    applyPadding chunks padding = (paddingLoop chunks padding).finish := if_neg h

theorem PaddingState.ink_finish (st : PaddingState) :
    Text.ink st.finish.flatten = Text.ink st.text := by
  unfold finish text
  split
  · rename_i hnil
    rw [hnil, List.append_nil]
  · split
    · rename_i hlast
      rw [List.getLast?_eq_none_iff.mp hlast]
      simp
    · rename_i last hlast
      have hmerged := List.dropLast_append_getLast? last hlast
      conv_rhs => rw [← hmerged]
      simp only [List.flatten_append, List.flatten_singleton, Text.ink_append, Text.ink_strip,
        List.append_assoc]
      rfl

/-- The non-whitespace characters stay, in order. -/
theorem ink_applyPadding (chunks : List Text) (padding : Int) :
    Text.ink (applyPadding chunks padding).flatten = Text.ink chunks.flatten := by
  by_cases h : padding ≤ 0 ∨ chunks.length ≤ 1
  · rw [applyPadding, if_pos h]
  · rw [applyPadding_eq h, PaddingState.ink_finish, ink_paddingLoop]

/-- What padding is to give. -/
structure PaddingGuaranteed (chunks : List Text) (padding : Int) (padded : List Text) : Prop where
  length : 2 ≤ padded.length → ∀ c ∈ padded, padding ≤ c.length
  ink : Text.ink padded.flatten = Text.ink chunks.flatten

/-- In the loop's own terms: no remainder joins a chunk that is one of several, or the
    whitespace around the two is no more than they have over the minimum length. -/
def RemainderLeavesPadding (padding : Int) (st : PaddingState) : Prop :=
  st.buffer = [] ∨ st.merged.length ≤ 1 ∨
    ∀ last ∈ st.merged.getLast?,
      padding + Text.outerSpace (last ++ ' ' :: st.buffer) ≤ last.length + 1 + st.buffer.length

/-- The whitespace at the outer ends of a chunk and of the text joined on is made up for by
    what the chunk has over the minimum length and by what joins it. -/
def MadeUp (padding : Int) (chunk rest : Text) : Prop :=
  if Text.ink rest = [] then padding + Text.outerSpace chunk ≤ chunk.length
  else Text.ink chunk ≠ [] ∧
    padding + Text.leadingSpace chunk + Text.leadingSpace rest.reverse ≤
      chunk.length + 1 + rest.length

/-- When a chunk is the last to be accepted, not the first, as it stands (what waited in the
    buffer was blank), and chunks follow it that never reach the minimum length, then its
    whitespace is made up for. -/
def KeepsPadding (padding : Int) (chunks : List Text) : Prop :=
  ∀ (before init : List Text) (chunk : Text) (rest : List Text),
    chunks = before ++ (init ++ [chunk]) ++ rest → before ≠ [] → InGroups padding before →
    Short padding init → joined init = [] → padding ≤ chunk.length →
    Short padding rest → joined rest ≠ [] → MadeUp padding chunk (joined rest)

theorem madeUp_iff {padding : Int} {chunk rest : Text} (hrest : (rest.length : Int) < padding) :
    padding + Text.outerSpace (chunk ++ ' ' :: rest) ≤ chunk.length + 1 + rest.length ↔
      MadeUp padding chunk rest := by
  have hchunk := Text.leadingSpace_le chunk.reverse
  have hrest' := Text.leadingSpace_le rest.reverse
  rw [List.length_reverse] at hchunk hrest'
  unfold MadeUp
  rw [Text.outerSpace, Text.leadingSpace_reverse_joined]
  by_cases hblank : Text.ink chunk = []
  · have hlead := Text.leadingSpace_append_of_blank hblank (' ' :: rest)
    have hall := Text.ink_eq_nil_iff.mp hblank
    rw [hlead, Text.outerSpace, hall]
    split
    · omega
    · refine iff_of_false (fun h => ?_) fun h => h.1 hblank
      have hspace : Text.leadingSpace (' ' :: rest) = 1 + Text.leadingSpace rest :=
        @Text.leadingSpace_append_of_blank [' '] rfl rest
      omega
  · rw [Text.leadingSpace_append hblank, Text.outerSpace]
    split
    · omega
    · rw [and_iff_right hblank]
      omega

/-- A chunk merged of several was stripped: it has no whitespace to lose to what joins it. -/
theorem joined_keeps {padding : Int} {init : List Text} {chunk : Text}
    (hinit : joined init ≠ []) (hlong : padding ≤ (joined (init ++ [chunk])).length)
    (hpos : 0 < padding) (rest : Text) :
    padding + Text.outerSpace (joined (init ++ [chunk]) ++ ' ' :: rest) ≤
      (joined (init ++ [chunk])).length + 1 + rest.length := by
  have hmerged : joined (init ++ [chunk]) = Text.strip (joined init ++ ' ' :: chunk) := by
    rw [joined_append_singleton]
    exact if_neg hinit
  rw [hmerged] at hlong ⊢
  have hne : Text.strip (joined init ++ ' ' :: chunk) ≠ [] := by
    intro hstrip
    rw [hstrip, List.length_nil] at hlong
    omega
  have hkept := Text.length_le_strip_joined hne (Text.leadingSpace_strip hne)
    (Text.leadingSpace_reverse_strip hne) rest
  have hlen := List.length_pos_iff.mpr hne
  rw [Text.length_strip (Text.strip _ ++ _), List.length_append, List.length_cons] at hkept
  omega

/-- The loop's remainder leaves the last chunk its minimum length exactly when the chunks
    given keep it. -/
theorem remainderLeavesPadding_iff (padding : Int) (chunks : List Text) :
    RemainderLeavesPadding padding (paddingLoop chunks padding) ↔
      KeepsPadding padding chunks := by
  constructor
  · rintro h before init chunk rest rfl hne hbefore hinit hnil hlong hrest hremainder
    have hchunk := joined_of_init_nil hnil chunk
    obtain ⟨accepted, hstate, hempty⟩ := hbefore.loop_group_short hinit (hchunk.symm ▸ hlong) hrest
    rw [hstate, hchunk] at h
    rcases h with hbuffer | hone | hroom
    · exact absurd hbuffer hremainder
    · refine absurd (hempty.mp (List.eq_nil_of_length_eq_zero ?_)) hne
      rw [List.length_append, List.length_singleton] at hone
      omega
    · exact (madeUp_iff (hrest.length_lt hremainder)).mp (hroom chunk (by simp))
  · intro h
    obtain ⟨before, rest, rfl, hbefore, hrest⟩ := exists_groups padding chunks
    by_cases hremainder : joined rest = []
    · obtain ⟨accepted, hstate, -⟩ := hbefore.loop_short hrest
      exact Or.inl (by rw [hstate, hremainder])
    have hlt := hrest.length_lt hremainder
    cases hbefore with
    | nil =>
        obtain ⟨accepted, hstate, hempty⟩ := InGroups.nil.loop_short hrest
        refine Or.inr (Or.inl ?_)
        rw [hstate, hempty.mpr rfl]
        exact Nat.zero_le _
    | @group before init chunk hbefore hshort hlong =>
        obtain ⟨accepted, hstate, hempty⟩ := hbefore.loop_group_short hshort hlong hrest
        rw [hstate]
        unfold RemainderLeavesPadding
        dsimp only
        by_cases hfirst : before = []
        · exact Or.inr (Or.inl (by simp [hempty.mpr hfirst]))
        refine Or.inr (Or.inr fun last hlast => ?_)
        obtain rfl : joined (init ++ [chunk]) = last := by simpa using hlast
        by_cases hnil : joined init = []
        · rw [joined_of_init_nil hnil] at hlong ⊢
          exact (madeUp_iff hlt).mpr (h before init chunk rest rfl hfirst hbefore hshort hnil
            hlong hrest hremainder)
        · exact joined_keeps hnil hlong (by omega) (joined rest)

theorem PaddingState.finish_long_iff {padding : Int} (hpos : 0 < padding) {st : PaddingState}
    (h : ∀ c ∈ st.merged, padding ≤ c.length) :
    (2 ≤ st.finish.length → ∀ c ∈ st.finish, padding ≤ c.length) ↔
      RemainderLeavesPadding padding st := by
  unfold finish RemainderLeavesPadding
  by_cases hbuffer : st.buffer = []
  · rw [if_pos hbuffer]
    exact iff_of_true (fun _ => h) (Or.inl hbuffer)
  · rw [if_neg hbuffer, or_iff_right hbuffer]
    cases hlast : st.merged.getLast? with
    | none =>
        have hmerged := List.getLast?_eq_none_iff.mp hlast
        exact iff_of_true (fun htwo => absurd htwo (by simp)) (Or.inl (by simp [hmerged]))
    | some last =>
        have hlen : (st.merged.dropLast ++ [(last ++ ' ' :: st.buffer : Text).strip]).length =
            st.merged.length := by
          have hmerged := List.length_pos_of_mem (List.mem_of_getLast? hlast)
          rw [List.length_append, List.length_dropLast, List.length_singleton]
          omega
        have hdrop : ∀ c ∈ st.merged.dropLast, padding ≤ c.length := fun c hc =>
          h c (List.mem_of_mem_dropLast hc)
        have hstrip : (padding ≤ ((last ++ ' ' :: st.buffer : Text).strip).length) ↔
            padding + Text.outerSpace (last ++ ' ' :: st.buffer) ≤
              last.length + 1 + st.buffer.length := by
          rw [Text.length_strip, List.length_append, List.length_cons]
          omega
        dsimp only
        rw [hlen, List.forall_mem_append, and_iff_right hdrop, List.forall_mem_singleton, hstrip]
        constructor
        · intro hlong
          by_cases htwo : 2 ≤ st.merged.length
          · exact Or.inr fun c hc => Option.some.inj hc ▸ hlong htwo
          · exact Or.inl (by omega)
        · rintro (hone | hroom) htwo
          · omega
          · exact hroom last rfl

theorem PaddingState.length_merged_foldl (padding : Int) (st : PaddingState)
    (chunks : List Text) :
    (chunks.foldl (PaddingState.add padding) st).merged.length ≤
      st.merged.length + chunks.length := by
  induction chunks generalizing st with
  | nil => exact Nat.le_refl _
  | cons chunk chunks ih =>
      have hrest := ih (st.add padding chunk)
      have hone : (st.add padding chunk).merged.length ≤ st.merged.length + 1 := by
        by_cases h : padding ≤ (st.join chunk).length
        · simp [add_of_long h]
        · simp [add_of_short h]
      rw [List.foldl_cons, List.length_cons]
      omega

/-- Without a minimum length nothing is left over. -/
theorem PaddingState.buffer_foldl {padding : Int} (h : padding ≤ 0) {st : PaddingState}
    (hst : st.buffer = []) (chunks : List Text) :
    (chunks.foldl (PaddingState.add padding) st).buffer = [] := by
  induction chunks generalizing st with
  | nil => exact hst
  | cons chunk chunks ih =>
      have hlong : padding ≤ (st.join chunk).length := by omega
      exact ih (by rw [add_of_long hlong])

/-- Chunks are all padded and their text is kept exactly when the last one that is accepted
    makes up for the whitespace that it loses. -/
theorem paddingGuaranteed_iff (chunks : List Text) (padding : Int) :
    PaddingGuaranteed chunks padding (applyPadding chunks padding) ↔
      KeepsPadding padding chunks := by
  rw [← remainderLeavesPadding_iff]
  have hink := ink_applyPadding chunks padding
  have hlength : PaddingGuaranteed chunks padding (applyPadding chunks padding) ↔
      (2 ≤ (applyPadding chunks padding).length →
        ∀ c ∈ applyPadding chunks padding, padding ≤ c.length) :=
    ⟨fun h => h.length, fun h => ⟨h, hink⟩⟩
  rw [hlength]
  by_cases hpos : 0 < padding
  · by_cases hmany : 2 ≤ chunks.length
    · rw [applyPadding_eq (by omega),
        PaddingState.finish_long_iff hpos (length_paddingLoop chunks padding)]
    · have hsame : applyPadding chunks padding = chunks := if_pos (Or.inr (by omega))
      have hmerged := PaddingState.length_merged_foldl padding ⟨[], []⟩ chunks
      rw [hsame]
      refine iff_of_true (fun htwo => absurd htwo hmany) (Or.inr (Or.inl ?_))
      rw [List.length_nil] at hmerged
      unfold paddingLoop
      omega
  · have hstart : (⟨[], []⟩ : PaddingState).buffer = [] := rfl
    have hbuffer := PaddingState.buffer_foldl (Int.not_lt.mp hpos) hstart chunks
    exact iff_of_true (fun _ c _ => by omega) (Or.inl hbuffer)

/-- A chunk of five characters, one of four spaces and a letter, and a remainder of one: the
    last two have seven characters, three of them when stripped. -/
theorem stripped_below_padding :
    ¬∀ (chunks : List Text) (padding : Int), 0 < padding → (∀ c ∈ chunks, c ≠ []) →
      PaddingGuaranteed chunks padding (applyPadding chunks padding) := by
  intro h
  have hlong := (h ["xxxxx".toList, "    a".toList, "b".toList] 5 (by decide)
    (by decide)).length (by decide) "a b".toList (by decide)
  exact absurd hlong (by decide)

end RagParamsFinder
