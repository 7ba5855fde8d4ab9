/-
  Contextualised embedding: `_embed_documents_voyage_context` of
  `server/core/embedding/embedder.py`, with `_validate_context_chunk_sizes`,
  `_split_context_segments` and `_split_context_requests`.

  Texts are packed into segments and segments into requests, both greedily. The API takes a
  request of at most 120000 tokens and 1000 segments, and a segment of at most 32000 tokens.
  `tokens` is the length of a text's encoding; `api` is what a request comes to, with the
  client, the cancel check and the retries.

  Proved: `contextRequestsFit`: the requests hold the texts in order and keep to every limit.
  `embedDocumentsVoyageContext_eq_ok`: where each segment is answered with one vector for each
  text, the result has one vector for each text, in order.
-/
import Mathlib.Algebra.Order.BigOperators.Group.List
import RagParamsFinder.Embedding.Batches

namespace RagParamsFinder

open Packing

/-! ## Limits -/

/-- `VOYAGE_CONTEXT_WINDOW_TOKENS`. -/
def voyageContextWindowTokens : Nat := 32000

/-- `VOYAGE_CONTEXT_REQUEST_TOKEN_CAP`. -/
def voyageContextRequestTokenCap : Nat := 120000

/-- `VOYAGE_CONTEXT_MAX_INPUTS`. -/
def voyageContextMaxInputs : Nat := 1000

/-- `VOYAGE_CONTEXT_SEGMENT_BUDGET`. -/
def voyageContextSegmentBudget : Nat := 30000

/-- `_count_context_tokens`. -/
def countContextTokens (tokens : String → Nat) (texts : List String) : Nat :=
  max 1 (texts.map tokens).sum

/-- The loop of `_validate_context_chunk_sizes`, from an index on. -/
def validateFrom (tokens : String → Nat) : Nat → List String → Except String Unit
  | _, [] => .ok ()
  | index, text :: texts =>
      let count := countContextTokens tokens [text]
      if count ≤ voyageContextWindowTokens then validateFrom tokens (index + 1) texts
      else .error (s!"Chunk {index} has ~{count} tokens, exceeding voyage-context-3's " ++
        s!"{voyageContextWindowTokens}-token window (no truncation). Use a smaller chunk_size.")

/-- `_validate_context_chunk_sizes`. -/
def validateContextChunkSizes (tokens : String → Nat) (texts : List String) :
    Except String Unit := validateFrom tokens 0 texts

/-! ## Segments and requests -/

abbrev Segment := List String

/-- `_split_context_segments`. -/
def splitContextSegments (tokens : String → Nat) (texts : List String) : List Segment :=
  splitIntoBatches texts voyageContextSegmentBudget (some (countContextTokens tokens))

/-- The locals of `_split_context_requests`. -/
structure RequestSplitter where
  requests : List (List Segment)
  currentSegments : List Segment
  currentTokens : Nat
  deriving DecidableEq

def RequestSplitter.start : RequestSplitter := ⟨[], [], 0⟩

/-- Close the current request. -/
def RequestSplitter.flush (s : RequestSplitter) : RequestSplitter :=
  ⟨s.requests ++ [s.currentSegments], [], 0⟩

/-- Append a segment to the current request. -/
def RequestSplitter.push (s : RequestSplitter) (segment : Segment) (segmentTokens : Nat) :
    RequestSplitter :=
  ⟨s.requests, s.currentSegments ++ [segment], s.currentTokens + segmentTokens⟩

/-- One round of the loop. -/
def RequestSplitter.next (tokens : String → Nat) (s : RequestSplitter) (segment : Segment) :
    RequestSplitter :=
  let segmentTokens := countContextTokens tokens segment
  if s.currentSegments ≠ [] ∧
      (voyageContextRequestTokenCap < s.currentTokens + segmentTokens ∨
        voyageContextMaxInputs ≤ s.currentSegments.length) then
    s.flush.push segment segmentTokens
  else s.push segment segmentTokens

/-- What is returned after the loop. -/
def RequestSplitter.finish (s : RequestSplitter) : List (List Segment) :=
  if s.currentSegments ≠ [] then s.requests ++ [s.currentSegments] else s.requests

/-- `_split_context_requests`. -/
def splitContextRequests (tokens : String → Nat) (segments : List Segment) :
    List (List Segment) :=
  (segments.foldl (RequestSplitter.next tokens) .start).finish

/-! ## Embedding -/

/-- A request as it is sent, with the estimate for the rate limiter. -/
structure ContextRequest where
  reqIdx : Nat
  segments : List Segment
  estimatedTokens : Nat
  deriving DecidableEq

def contextRequests (tokens : String → Nat) (texts : List String) : List ContextRequest :=
  (splitContextRequests tokens (splitContextSegments tokens texts)).zipIdx.map fun r =>
    ⟨r.2, r.1, countContextTokens tokens r.1.flatten⟩

inductive ContextEmbedError (E : Type) where
  /-- The `ValueError` of `_validate_context_chunk_sizes`. -/
  | chunkTooLarge (message : String)
  | request (e : E)
  /-- The `IndexError` of `all_embeddings[0]`, when no vector came back. -/
  | noEmbeddings

/-- `_embed_documents_voyage_context`; a segment's answer is its list of vectors. -/
def embedDocumentsVoyageContext {E V : Type} (tokens : String → Nat)
    (api : ContextRequest → Except E (List (List V))) (texts : List String) :
    Except (ContextEmbedError E) (List V) :=
  if texts = [] then .ok []
  else
    match validateContextChunkSizes tokens texts with
    | .error message => .error (.chunkTooLarge message)
    | .ok () =>
        let sent := (contextRequests tokens texts).foldlM (fun allEmbeddings request => do
          let results ← api request
          return allEmbeddings ++ results.flatten) []
        match sent with
        | .error e => .error (.request e)
        | .ok [] => .error .noEmbeddings
        | .ok allEmbeddings => .ok allEmbeddings

/-! ## The segments -/

section Counter

variable (tokens : String → Nat)

/-- Texts are counted together for no more than one by one. -/
theorem countContextTokens_le_added {texts : List String} (h : texts ≠ []) :
    countContextTokens tokens texts ≤ addedTokens (countContextTokens tokens) texts := by
  have hsum : (texts.map tokens).sum ≤ addedTokens (countContextTokens tokens) texts :=
    List.sum_le_sum fun t _ => by simp [countContextTokens]
  have hone : 1 ≤ addedTokens (countContextTokens tokens) texts := by
    obtain ⟨t, rest, rfl⟩ := List.exists_cons_of_ne_nil h
    have ht : 1 ≤ countContextTokens tokens [t] := le_max_left _ _
    rw [addedTokens, List.map_cons, List.sum_cons]
    omega
  exact max_le hone hsum

/-- Segments are counted together for no more than one by one. -/
theorem countContextTokens_flatten_le {segments : List Segment} (h : segments ≠ []) :
    countContextTokens tokens segments.flatten ≤
      (segments.map (countContextTokens tokens)).sum := by
  have hsum : (segments.flatten.map tokens).sum ≤
      (segments.map (countContextTokens tokens)).sum := by
    rw [List.map_flatten, List.sum_flatten, List.map_map]
    exact List.sum_le_sum fun s _ => le_max_right _ _
  have hone : 1 ≤ (segments.map (countContextTokens tokens)).sum := by
    obtain ⟨s, rest, rfl⟩ := List.exists_cons_of_ne_nil h
    have hs : 1 ≤ countContextTokens tokens s := le_max_left _ _
    rw [List.map_cons, List.sum_cons]
    omega
  exact max_le hone hsum

end Counter

theorem validateFrom_eq_ok_iff {tokens : String → Nat} {index : Nat} {texts : List String} :
    validateFrom tokens index texts = .ok () ↔
      ∀ t ∈ texts, countContextTokens tokens [t] ≤ voyageContextWindowTokens := by
  induction texts generalizing index with
  | nil => simp [validateFrom]
  | cons text texts ih =>
      rw [validateFrom, List.forall_mem_cons]
      split
      · rename_i h
        rw [ih, and_iff_right h]
      · rename_i h
        simp [h]

/-- A segment within the budget, or one text within the window. -/
def SegmentFits (tokens : String → Nat) (segment : Segment) : Prop :=
  countContextTokens tokens segment ≤ voyageContextSegmentBudget ∨
    ∃ t, segment = [t] ∧ countContextTokens tokens [t] ≤ voyageContextWindowTokens

theorem segmentFits_of_mem {tokens : String → Nat} {texts : List String}
    (h : validateContextChunkSizes tokens texts = .ok ()) :
    ∀ s ∈ splitContextSegments tokens texts, SegmentFits tokens s := by
  have hsize := validateFrom_eq_ok_iff.mp h
  rw [splitContextSegments, splitIntoBatches_eq, List.forall_mem_map]
  refine forall_packFrom (fun hne => absurd rfl hne) (fun _ t ht => ?_)
    (fun b t _ _ hroom => ?_)
  · exact Or.inr ⟨t, rfl, hsize t ht⟩
  · have hroom : addedTokens (countContextTokens tokens) (b.put t).items ≤
        voyageContextSegmentBudget := by
      have hle := not_lt.mp hroom
      simpa [Bin.put, addedTokens] using hle
    have hne : (b.put t).items ≠ [] := by simp [Bin.put]
    exact Or.inl ((countContextTokens_le_added tokens hne).trans hroom)

/-! ## The requests -/

section Requests

variable (tokens : String → Nat)

/-- A segment that the open request has no room for. -/
def RequestFull (request : Bin Unit Segment) (segment : Segment) : Prop :=
  voyageContextRequestTokenCap <
      (request.items.map (countContextTokens tokens)).sum + countContextTokens tokens segment ∨
    voyageContextMaxInputs ≤ request.items.length

instance (request : Bin Unit Segment) (segment : Segment) :
    Decidable (RequestFull tokens request segment) :=
  inferInstanceAs (Decidable (_ ∨ _))

/-- The locals hold the closed requests and the open one, with its count. -/
structure RequestSplitter.Sim (s : RequestSplitter) (done : List (List Segment))
    (b : Bin Unit Segment) : Prop where
  requests : s.requests = done
  currentSegments : s.currentSegments = b.items
  currentTokens : s.currentTokens = (b.items.map (countContextTokens tokens)).sum

theorem RequestSplitter.sim_next {s : RequestSplitter} {done : List (List Segment)}
    {b : Bin Unit Segment} (h : s.Sim tokens done b) (segment : Segment) :
    (s.next tokens segment).Sim tokens
      (done ++ (closed (RequestFull tokens) b segment).map Bin.items)
      (place (RequestFull tokens) (fun _ => ()) b segment) := by
  have hiff : (s.currentSegments ≠ [] ∧
      (voyageContextRequestTokenCap < s.currentTokens + countContextTokens tokens segment ∨
        voyageContextMaxInputs ≤ s.currentSegments.length)) ↔
      Closes (RequestFull tokens) b segment := by
    rw [h.currentSegments, h.currentTokens]
    exact Iff.rfl
  by_cases hfull : Closes (RequestFull tokens) b segment
  · have hnext : s.next tokens segment = s.flush.push segment (countContextTokens tokens segment) :=
      if_pos (hiff.mpr hfull)
    rw [hnext, closed_of_closes hfull, place_of_closes hfull]
    exact ⟨by simp [flush, push, h.requests, h.currentSegments],
      by simp [flush, push, Bin.open], by simp [flush, push, Bin.open]⟩
  · have hnext : s.next tokens segment = s.push segment (countContextTokens tokens segment) :=
      if_neg fun hc => hfull (hiff.mp hc)
    rw [hnext, closed_of_room hfull, place_of_room hfull]
    exact ⟨by simp [push, h.requests], by simp [push, Bin.put, h.currentSegments],
      by simp [push, Bin.put, h.currentTokens]⟩

theorem RequestSplitter.finish_eq {s : RequestSplitter} {done : List (List Segment)}
    {b : Bin Unit Segment} (h : s.Sim tokens done b) :
    s.finish = done ++ (packFrom (RequestFull tokens) (fun _ => ()) b []).map Bin.items := by
  rw [finish, h.requests, h.currentSegments, append_packFrom_nil]

/-- The segments are packed greedily. -/
theorem splitContextRequests_eq (segments : List Segment) :
    splitContextRequests tokens segments =
      (packFrom (RequestFull tokens) (fun _ => ()) ⟨(), []⟩ segments).map Bin.items := by
  have hstart : RequestSplitter.start.Sim tokens [] ⟨(), []⟩ := ⟨rfl, rfl, rfl⟩
  exact finish_foldl (RequestSplitter.next tokens) RequestSplitter.finish
    (RequestSplitter.Sim tokens)
    (fun _ _ _ segment h => RequestSplitter.sim_next tokens h segment)
    (fun _ _ _ h => RequestSplitter.finish_eq tokens h) hstart segments

/-- A request within both limits. -/
def RequestFits (request : List Segment) : Prop :=
  countContextTokens tokens request.flatten ≤ voyageContextRequestTokenCap ∧
    request.length ≤ voyageContextMaxInputs

/-- Segments that fit make requests that fit: none is too large to be sent alone. -/
theorem requestFits_of_mem {segments : List Segment}
    (h : ∀ s ∈ segments, SegmentFits tokens s) :
    ∀ r ∈ splitContextRequests tokens segments, RequestFits tokens r := by
  rw [splitContextRequests_eq, List.forall_mem_map]
  refine forall_packFrom (fun hne => absurd rfl hne) (fun _ s hs => ?_)
    (fun b s _ _ hroom => ?_)
  · have hcap : countContextTokens tokens s ≤ voyageContextRequestTokenCap := by
      rcases h s hs with hle | ⟨t, rfl, hle⟩
      · exact hle.trans (by decide)
      · exact hle.trans (by decide)
    exact ⟨by simpa using hcap, (by decide : 1 ≤ voyageContextMaxInputs)⟩
  · obtain ⟨htokens, hinputs⟩ := not_or.mp hroom
    have hne : (b.put s).items ≠ [] := by simp [Bin.put]
    refine ⟨(countContextTokens_flatten_le tokens hne).trans ?_, ?_⟩
    · have hle := not_lt.mp htokens
      simpa [Bin.put] using hle
    · have hlen : (b.put s).items.length = b.items.length + 1 := by simp [Bin.put]
      rw [hlen]
      exact Nat.succ_le_of_lt (not_le.mp hinputs)

end Requests

/-- What the requests of a list of texts are to satisfy. -/
structure ContextRequestsFit (tokens : String → Nat) (texts : List String)
    (requests : List (List Segment)) : Prop where
  requests_ne_nil : ∀ r ∈ requests, r ≠ []
  segments_ne_nil : ∀ r ∈ requests, ∀ s ∈ r, s ≠ []
  flatten : requests.flatten.flatten = texts
  segment : ∀ r ∈ requests, ∀ s ∈ r,
    countContextTokens tokens s ≤ 30000 ∨ ∃ t, s = [t] ∧ countContextTokens tokens [t] ≤ 32000
  request : ∀ r ∈ requests,
    countContextTokens tokens r.flatten ≤ 120000 ∧ r.length ≤ 1000

theorem contextRequestsFit {tokens : String → Nat} {texts : List String}
    (h : validateContextChunkSizes tokens texts = .ok ()) :
    ContextRequestsFit tokens texts
      (splitContextRequests tokens (splitContextSegments tokens texts)) := by
  have hpacked : (splitContextRequests tokens (splitContextSegments tokens texts)).flatten =
      splitContextSegments tokens texts := by
    rw [splitContextRequests_eq]
    exact (packed_packFrom _ _).flatten
  have hmem : ∀ r ∈ splitContextRequests tokens (splitContextSegments tokens texts),
      ∀ s ∈ r, s ∈ splitContextSegments tokens texts := fun r hr s hs =>
    hpacked ▸ List.mem_flatten_of_mem hr hs
  constructor
  · rw [splitContextRequests_eq]
    exact List.forall_mem_map.mpr (packed_packFrom _ _).ne_nil
  · exact fun r hr s hs => splitIntoBatches_ne_nil _ _ _ s (hmem r hr s hs)
  · rw [hpacked]
    exact flatten_splitIntoBatches _ _ _
  · exact fun r hr s hs => segmentFits_of_mem h s (hmem r hr s hs)
  · exact requestFits_of_mem tokens (segmentFits_of_mem h)

/-! ## The answers -/

/-- Requests that are all answered add their vectors in order. -/
theorem foldlM_requests {E V : Type} {R : String → V → Prop}
    {api : ContextRequest → Except E (List (List V))} {requests : List ContextRequest}
    (h : ∀ r ∈ requests, ∃ results, api r = .ok results ∧
      List.Forall₂ (List.Forall₂ R) r.segments results) (texts : List String)
    (allEmbeddings : List V) (hall : List.Forall₂ R texts allEmbeddings) :
    ∃ vectors, requests.foldlM (fun all request => do
        let results ← api request
        return all ++ results.flatten) allEmbeddings = .ok vectors ∧
      List.Forall₂ R (texts ++ (requests.map fun r => r.segments.flatten).flatten) vectors := by
  induction requests generalizing texts allEmbeddings with
  | nil => exact ⟨allEmbeddings, rfl, by simpa using hall⟩
  | cons r requests ih =>
      obtain ⟨hr, hrest⟩ := List.forall_mem_cons.mp h
      obtain ⟨results, hresults, hmatch⟩ := hr
      have hext : List.Forall₂ R (texts ++ r.segments.flatten)
          (allEmbeddings ++ results.flatten) :=
        List.rel_append hall (List.rel_flatten hmatch)
      obtain ⟨vectors, hfold, hvec⟩ := ih hrest _ _ hext
      refine ⟨vectors, ?_, by simpa using hvec⟩
      rw [List.foldlM_cons, hresults]
      exact hfold

theorem flatten_contextRequests (tokens : String → Nat) (texts : List String) :
    ((contextRequests tokens texts).map fun r => r.segments.flatten).flatten =
      (splitContextRequests tokens (splitContextSegments tokens texts)).flatten.flatten := by
  have hsegments : (contextRequests tokens texts).map (fun r => r.segments.flatten) =
      (splitContextRequests tokens (splitContextSegments tokens texts)).map List.flatten := by
    rw [contextRequests, List.map_map]
    conv_rhs => rw [← List.zipIdx_map_fst 0 (splitContextRequests tokens
      (splitContextSegments tokens texts)), List.map_map]
    rfl
  rw [hsegments, List.flatten_flatten]

/-- Where every request is answered, the vectors come back one for each text, in order. -/
theorem embedDocumentsVoyageContext_eq_ok {E V : Type} {tokens : String → Nat}
    {texts : List String} (h : validateContextChunkSizes tokens texts = .ok ())
    {R : String → V → Prop} {api : ContextRequest → Except E (List (List V))}
    (hapi : ∀ r ∈ contextRequests tokens texts, ∃ results, api r = .ok results ∧
      List.Forall₂ (List.Forall₂ R) r.segments results) :
    ∃ vectors, embedDocumentsVoyageContext tokens api texts = .ok vectors ∧
      List.Forall₂ R texts vectors := by
  obtain ⟨vectors, hfold, hvec⟩ := foldlM_requests hapi [] [] .nil
  rw [List.nil_append, flatten_contextRequests, (contextRequestsFit h).flatten] at hvec
  refine ⟨vectors, ?_, hvec⟩
  unfold embedDocumentsVoyageContext
  cases hvec with
  | nil => rfl
  | cons =>
      rw [if_neg (List.cons_ne_nil _ _), h]
      dsimp only
      rw [hfold]

/-- The requests keep to every limit, and their answers are returned in the order of the
    texts. -/
theorem context_requests_fit_in_order {tokens : String → Nat} {texts : List String}
    (h : validateContextChunkSizes tokens texts = .ok ()) :
    ContextRequestsFit tokens texts
        (splitContextRequests tokens (splitContextSegments tokens texts)) ∧
      ∀ {E V : Type} (R : String → V → Prop) (api : ContextRequest → Except E (List (List V))),
        (∀ r ∈ contextRequests tokens texts, ∃ results, api r = .ok results ∧
          List.Forall₂ (List.Forall₂ R) r.segments results) →
        ∃ vectors, embedDocumentsVoyageContext tokens api texts = .ok vectors ∧
          List.Forall₂ R texts vectors := by
  refine ⟨contextRequestsFit h, ?_⟩
  intro E V R api hapi
  exact embedDocumentsVoyageContext_eq_ok h hapi

/-- An API that gives each text its number of characters. -/
def lengthApi (request : ContextRequest) : Except String (List (List Nat)) :=
  .ok (request.segments.map fun segment => segment.map String.length)

theorem two_texts_in_order :
    ContextRequestsFit String.length ["ab", "c"] [[["ab", "c"]]] ∧
      ∃ vectors, embedDocumentsVoyageContext String.length lengthApi ["ab", "c"] = .ok vectors ∧
        List.Forall₂ (fun t v => v = t.length) ["ab", "c"] vectors := by
  have haccept : validateContextChunkSizes String.length ["ab", "c"] = .ok () := by decide
  obtain ⟨hfit, hvectors⟩ := context_requests_fit_in_order haccept
  refine ⟨hfit, hvectors _ lengthApi fun r _ => ⟨_, rfl, ?_⟩⟩
  simp [List.forall₂_map_right_iff, List.forall₂_same]

end RagParamsFinder
