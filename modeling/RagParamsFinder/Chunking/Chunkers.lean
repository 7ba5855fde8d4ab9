/-
  The chunkers (`server/core/chunkers`): `chunk_text` and the five methods it dispatches to.

  A text is its list of characters. The splitters of LangChain, the sentence tokenizer of
  nltk and the sentence model are libraries: `ChunkLibraries` holds what the source calls of
  them, each `none` when it raises. Sizes, overlaps and paddings are any integers, as in a
  configuration.
-/
import Mathlib.Algebra.GroupWithZero.Nat
import RagParamsFinder.Models.Registry

namespace RagParamsFinder

abbrev Text := List Char

namespace Text

/-- `str.isspace`, for one character. -/
def isSpace (c : Char) : Bool :=
  let n := c.toNat
  (9 ≤ n && n ≤ 13) || (28 ≤ n && n ≤ 32) || n == 133 || n == 160 || n == 5760 ||
    (8192 ≤ n && n ≤ 8202) || n == 8232 || n == 8233 || n == 8239 || n == 8287 || n == 12288

/-- `str.strip`. -/
def strip (cs : Text) : Text :=
  ((cs.dropWhile isSpace).reverse.dropWhile isSpace).reverse

/-- `text[start : stop]`; a negative `stop` counts from the end. -/
def slice (cs : Text) (start : Nat) (stop : Int) : Text :=
  (cs.take (if stop < 0 then stop + cs.length else stop).toNat).drop start

/-- `text[-n:]`, for `n > 0`. -/
def tail (cs : Text) (n : Nat) : Text := cs.drop (cs.length - n)

/-- `" ".join(parts)`. -/
def join (parts : List Text) : Text := List.intercalate [' '] parts

end Text

/-- `range(0, n, step)`, for `step > 0`. -/
def rangeBy (n step : Nat) : List Nat :=
  (List.range ((n + step - 1) / step)).map (· * step)

/-! ## Fixed -/

def chunkFixed (text : Text) (chunkSize overlap : Int) : List Text :=
  let step := (max 1 (chunkSize - overlap)).toNat
  ((rangeBy text.length step).map fun i => text.slice i (i + chunkSize)).filter (· ≠ [])

/-! ## Sentence -/

structure SentenceState where
  chunks : List Text
  current : List Text
  currentLen : Nat
  deriving DecidableEq, Repr

/-- The chunk that is full is flushed, and its tail starts the next one. -/
def SentenceState.flush (st : SentenceState) (overlap : Int) : SentenceState :=
  let chunk := Text.join st.current
  if overlap > 0 then
    let overlapText := chunk.tail overlap.toNat
    ⟨st.chunks ++ [chunk], [overlapText], overlapText.length⟩
  else ⟨st.chunks ++ [chunk], [], 0⟩

/-- A turn of the loop of `chunk_sentence`. -/
def SentenceState.add (chunkSize overlap : Int) (st : SentenceState) (sentence : Text) :
    SentenceState :=
  let st :=
    if st.current ≠ [] ∧ (st.currentLen + sentence.length : Int) > chunkSize
    then st.flush overlap else st
  ⟨st.chunks, st.current ++ [sentence], st.currentLen + sentence.length + 1⟩

def chunkSentence (sentences : List Text) (chunkSize overlap : Int) : List Text :=
  let st := sentences.foldl (SentenceState.add chunkSize overlap) ⟨[], [], 0⟩
  if st.current = [] then st.chunks else st.chunks ++ [Text.join st.current]

/-! ## Semantic -/

/-- The loop of `_overlap_sentences`, from the last sentence back. -/
def carryBack (overlap : Int) : List Text → List Text → Nat → List Text
  | [], carried, _ => carried
  | sentence :: earlier, carried, carriedLen =>
      if carried ≠ [] ∧ (carriedLen + sentence.length : Int) > overlap then carried
      else carryBack overlap earlier (sentence :: carried) (carriedLen + sentence.length + 1)

/-- `_overlap_sentences`. -/
def overlapSentences (flushed : List Text) (overlap : Int) : List Text :=
  if overlap ≤ 0 ∨ flushed = [] then [] else carryBack overlap flushed.reverse [] 0

structure SemanticState where
  chunks : List Text
  group : List Text
  groupLen : Nat
  deriving DecidableEq, Repr

def SemanticState.flush (st : SemanticState) (overlap : Int) : SemanticState :=
  let group := overlapSentences st.group overlap
  ⟨st.chunks ++ [Text.join st.group], group, (group.map fun s => s.length + 1).sum⟩

/-- A turn of the loop of `chunk_semantic`. `similar` compares the sentence with the one
    before it. -/
def SemanticState.add (chunkSize overlap : Int) (st : SemanticState) (sentence : Text)
    (similar : Bool) : SemanticState :=
  let shouldFlush := similar = false ∨ (st.groupLen + sentence.length : Int) > chunkSize
  let st := if shouldFlush ∧ st.group ≠ [] then st.flush overlap else st
  ⟨st.chunks, st.group ++ [sentence], st.groupLen + sentence.length + 1⟩

def chunkSemantic (sentences : List Text) (similar : Nat → Bool) (chunkSize overlap : Int) :
    List Text :=
  match sentences with
  | [] => []
  | first :: rest =>
      let st := (rest.zipIdx 1).foldl
        (fun (st : SemanticState) s => st.add chunkSize overlap s.1 (similar s.2))
        ⟨[], [first], first.length⟩
      if st.group = [] then st.chunks else st.chunks ++ [Text.join st.group]

/-! ## Padding and dispatch -/

structure PaddingState where
  merged : List Text
  buffer : Text
  deriving DecidableEq, Repr

/-- A turn of the loop of `_apply_padding`. -/
def PaddingState.add (padding : Int) (st : PaddingState) (chunk : Text) : PaddingState :=
  let buffer := if st.buffer = [] then chunk else (st.buffer ++ ' ' :: chunk : Text).strip
  if (buffer.length : Int) ≥ padding then ⟨st.merged ++ [buffer], []⟩ else ⟨st.merged, buffer⟩

/-- `_apply_padding`; a remainder below the threshold joins the last chunk. -/
def applyPadding (chunks : List Text) (padding : Int) : List Text :=
  if padding ≤ 0 ∨ chunks.length ≤ 1 then chunks
  else
    let st := chunks.foldl (PaddingState.add padding) ⟨[], []⟩
    if st.buffer = [] then st.merged
    else
      match st.merged.getLast? with
      | none => [st.buffer]
      | some last => st.merged.dropLast ++ [(last ++ ' ' :: st.buffer : Text).strip]

/-- What the chunkers call of other packages. `similar` tells of each pair of neighbouring
    sentences, by the index of the second, whether its cosine similarity is at least 0.6. -/
structure ChunkLibraries where
  recursive : Text → Int → Int → Option (List Text)
  token : Text → Int → Int → Option (List Text)
  sentTokenize : Text → Option (List Text)
  similar : List Text → Option (Nat → Bool)

/-- `chunk_text`; `none` when it raises. -/
def chunkText (lib : ChunkLibraries) (text : Text) (method : ChunkingMethod)
    (chunkSize overlap padding : Int) : Option (List Text) :=
  (match method with
    | .recursive => lib.recursive text chunkSize overlap
    | .fixed => some (chunkFixed text chunkSize overlap)
    | .token => lib.token text chunkSize overlap
    | .sentence =>
        (lib.sentTokenize text).map fun sentences => chunkSentence sentences chunkSize overlap
    | .semantic => do
        let sentences ← lib.sentTokenize text
        if sentences = [] then return []
        let similar ← lib.similar sentences
        return chunkSemantic sentences similar chunkSize overlap).map
    fun chunks => applyPadding chunks padding

example : chunkText ⟨fun _ _ _ => none, fun _ _ _ => none, fun _ => none, fun _ => none⟩
    ['a', 'b', 'c', 'd', 'e'] .fixed 3 1 2 = some [['a', 'b', 'c'], ['c', 'd', 'e', ' ', 'e']] :=
  rfl

end RagParamsFinder
