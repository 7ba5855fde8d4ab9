/-
  Reranking: `rerank_local` of `server/core/rerank/local_reranker.py`, `_rerank_sie` of
  `reranker.py`, and the decoder of SIE's scores, `_to_float_scores` of
  `server/core/embedding/sie_embedder.py`.

  Scores are exact rationals. The cross-encoder and the SIE client are parameters; a score of
  SIE is a dict or an object that may have either of two keys.

  Proved: `topScored_spec`: from one score for each candidate both paths take the best ones, in
  order, with their own scores. `rerank_best_iff`: they succeed exactly when SIE gives no zero
  as the `score` of a dict: the decoder's `or` takes it for a missing one.
-/
import RagParamsFinder.Lib.Traversals
import RagParamsFinder.Models.Registry
import RagParamsFinder.Retrieval.Fusion

namespace RagParamsFinder

open Grouping Ranking Traversals

/-! ## Models -/

/-- `huggingface_id` of `RERANKER_MODELS`, where it is set. -/
def rerankerHuggingfaceIds : List (String × String) :=
  [("cross-encoder/ms-marco-MiniLM-L-6-v2", "cross-encoder/ms-marco-MiniLM-L-6-v2"),
   ("bge-reranker", "BAAI/bge-reranker-v2-m3")]

inductive RerankError where
  /-- `ValueError` of `get_reranker_info`. -/
  | unknownModel (message : String)
  /-- `RuntimeError` of `score_documents_sie`. -/
  | sieFailed (message : String)
  /-- The run was cancelled or paused. -/
  | stopped
  /-- What the cross-encoder raised. -/
  | crossEncoder (message : String)
  /-- `IndexError`: a score without a candidate. -/
  | noCandidate
  deriving DecidableEq, Repr

/-- The name that the model is loaded or asked for by. -/
def resolveRerankerName (modelId : String) : Except RerankError String :=
  match rerankerModels.lookup modelId with
  | some _ => .ok ((rerankerHuggingfaceIds.lookup modelId).getD modelId)
  | none => .error
      (.unknownModel s!"Unknown reranker model '{modelId}'. Known: {knownModels rerankerModels}")

/-! ## The scores of SIE -/

/-- One entry of SIE's answer; a key that is absent or `None` is `none`. -/
inductive SieScore where
  | dict (score relevanceScore : Option Rat)
  | object (typeName : String) (score relevanceScore : Option Rat)
  deriving DecidableEq, Repr

inductive SieAnswer where
  | list (items : List SieScore)
  | other (typeName : String)
  deriving DecidableEq, Repr

inductive SieFailure where
  | stopped
  | failed (message : String)
  deriving DecidableEq, Repr

/-- `a or b`: a zero is falsy. -/
def pyOr (a b : Option Rat) : Option Rat := if a = none ∨ a = some 0 then b else a

/-- The score that the decoder finds. -/
def SieScore.read : SieScore → Option Rat
  | .dict score relevanceScore => pyOr score relevanceScore
  | .object _ score relevanceScore => if score = none then relevanceScore else score

def SieScore.typeName : SieScore → String
  | .dict .. => "<class 'dict'>"
  | .object typeName .. => typeName

/-- A turn of the loop of `_to_float_scores`. -/
def SieScore.toFloat (item : SieScore) : Except String Rat :=
  match item.read with
  | some score => .ok score
  | none => .error s!"Expected score-like object, got {item.typeName}"

/-- `_to_float_scores`; the error is the message of a `TypeError`. -/
def toFloatScores : SieAnswer → Except String (List Rat)
  | .list items => items.mapM SieScore.toFloat
  | .other typeName => .error s!"Expected score list, got {typeName}"

/-- `score_documents_sie`. -/
def scoreDocumentsSie (client : String → String → List String → Except SieFailure SieAnswer)
    (query : String) (documents : List String) (modelId : String) :
    Except RerankError (List Rat) :=
  if documents = [] then .ok []
  else
    match resolveRerankerName modelId with
    | .error e => .error e
    | .ok sieModel =>
        match client sieModel query documents with
        | .error .stopped => .error .stopped
        | .error (.failed message) =>
            .error (.sieFailed s!"SIE unreachable or score failed: {message}")
        | .ok rawScores =>
            match toFloatScores rawScores with
            | .error message => .error (.sieFailed s!"SIE unreachable or score failed: {message}")
            | .ok scores => .ok scores

/-! ## Reranking -/

/-- The reranked hit of a score with its index, at a rank. -/
def rerankedHit (searchResults : List SearchResult) (hit : (Rat × Nat) × Nat) :
    Except RerankError SearchResult :=
  match searchResults[hit.1.2]? with
  | some original => .ok { original with rerankScore := some hit.1.1, rank := hit.2 }
  | none => .error .noCandidate

/-- `scored_indices`: the best scores with their indices; `sorted` is stable. -/
def scoredIndices (scores : List Rat) (topK : Nat) : List (Rat × Nat) :=
  best (fun s => -s.1) topK scores.zipIdx

/-- What both paths make of the scores. -/
def topScored (searchResults : List SearchResult) (scores : List Rat) (topK : Nat) :
    Except RerankError (List SearchResult) :=
  ((scoredIndices scores topK).zipIdx 1).mapM (rerankedHit searchResults)

/-- `rerank_local`. -/
def rerankLocal (predict : String → List (String × String) → Except String (List Rat))
    (query : String) (searchResults : List SearchResult) (modelId : String) (topK : Nat) :
    Except RerankError (List SearchResult) :=
  if searchResults = [] then .ok []
  else
    match resolveRerankerName modelId with
    | .error e => .error e
    | .ok hfId =>
        match predict hfId (searchResults.map fun r => (query, r.chunk.text)) with
        | .error message => .error (.crossEncoder message)
        | .ok scores => topScored searchResults scores topK

/-- `_rerank_sie`. -/
def rerankSie (client : String → String → List String → Except SieFailure SieAnswer)
    (query : String) (searchResults : List SearchResult) (modelId : String) (topK : Nat) :
    Except RerankError (List SearchResult) :=
  match scoreDocumentsSie client query (searchResults.map fun r => r.chunk.text) modelId with
  | .error e => .error e
  | .ok scores => topScored searchResults scores topK

/-! ## The best candidates -/

/-- The score of a candidate. -/
def scoreAt (scores : List Rat) (i : Nat) : Rat := scores.getD i 0

/-- The hits are the candidates at the given indices: as many as asked for or as there are,
    best first and ties in candidate order, each with its own score and its rank, and no other
    candidate scores above them. -/
structure BestCandidates (candidates : List SearchResult) (scores : List Rat) (topK : Nat)
    (indices : List Nat) (hits : List SearchResult) : Prop where
  length : indices.length = min topK candidates.length ∧ hits.length = indices.length
  distinct : indices.Nodup
  sorted : indices.Pairwise fun i j =>
    scoreAt scores j < scoreAt scores i ∨ (scoreAt scores i = scoreAt scores j ∧ i < j)
  own : ∀ k i, indices[k]? = some i → ∃ c : SearchResult, candidates[i]? = some c ∧
    hits[k]? = some { c with rerankScore := some (scoreAt scores i), rank := k + 1 }
  cut : ∀ i ∈ indices, ∀ j, j < candidates.length → j ∉ indices →
    scoreAt scores j ≤ scoreAt scores i

section

variable {scores : List Rat} {topK : Nat}

theorem scoreAt_of_mem {s : Rat × Nat} (h : s ∈ scores.zipIdx) :
    s.2 < scores.length ∧ scoreAt scores s.2 = s.1 := by
  obtain ⟨hlt, hget⟩ := List.getElem?_eq_some_iff.mp (List.mk_mem_zipIdx_iff_getElem?.mp h)
  exact ⟨hlt, by rw [scoreAt, List.getD_eq_getElem?_getD, List.getElem?_eq_getElem hlt, hget]; rfl⟩

theorem mem_scoredIndices {s : Rat × Nat} (h : s ∈ scoredIndices scores topK) :
    s.2 < scores.length ∧ scoreAt scores s.2 = s.1 :=
  scoreAt_of_mem (mem_of_mem_best _ h)

theorem length_scoredIndices : (scoredIndices scores topK).length = min topK scores.length := by
  rw [scoredIndices, length_best, List.length_zipIdx]

theorem nodup_indices : ((scoredIndices scores topK).map Prod.snd).Nodup := by
  have hperm := (rankBy_perm (fun s : Rat × Nat => -s.1) scores.zipIdx).map Prod.snd
  have hnodup : (scores.zipIdx.map Prod.snd).Nodup := by
    rw [List.zipIdx_map_snd]
    exact List.nodup_range'
  exact (hperm.nodup_iff.mpr hnodup).sublist ((List.take_sublist topK _).map Prod.snd)

theorem sorted_indices : ((scoredIndices scores topK).map Prod.snd).Pairwise fun i j =>
    scoreAt scores j < scoreAt scores i ∨ (scoreAt scores i = scoreAt scores j ∧ i < j) := by
  have horder : scores.zipIdx.Pairwise fun s t => s.2 < t.2 := by
    rw [← List.pairwise_map (f := Prod.snd) (R := fun i j : Nat => i < j), List.zipIdx_map_snd]
    exact List.pairwise_lt_range'
  have hsorted := pairwise_best_stable (fun s : Rat × Nat => -s.1) horder topK
  rw [List.pairwise_map]
  refine hsorted.imp_of_mem fun {s t} hs ht hst => ?_
  rw [(mem_scoredIndices hs).2, (mem_scoredIndices ht).2]
  rcases hst with hlt | ⟨heq, hlt⟩
  · exact Or.inl (neg_lt_neg_iff.mp hlt)
  · exact Or.inr ⟨neg_inj.mp heq, hlt⟩

theorem cut_indices {i j : Nat} (hi : i ∈ (scoredIndices scores topK).map Prod.snd)
    (hj : j < scores.length) (hcut : j ∉ (scoredIndices scores topK).map Prod.snd) :
    scoreAt scores j ≤ scoreAt scores i := by
  obtain ⟨s, hs, rfl⟩ := List.mem_map.mp hi
  have ht : (scores[j], j) ∈ scores.zipIdx := by
    rw [List.mk_mem_zipIdx_iff_getElem?]
    exact List.getElem?_eq_getElem hj
  have hout : (scores[j], j) ∉ scoredIndices scores topK := fun hin =>
    hcut (List.mem_map.mpr ⟨_, hin, rfl⟩)
  have hle := rank_le_of_not_mem_best (fun s : Rat × Nat => -s.1) hs ht hout
  have hown : scoreAt scores j = scores[j] := (scoreAt_of_mem ht).2
  rw [(mem_scoredIndices hs).2, hown]
  exact neg_le_neg_iff.mp hle

/-- Scores of all candidates give the best of them. -/
theorem topScored_spec {candidates : List SearchResult}
    (hlen : scores.length = candidates.length) :
    ∃ hits, topScored candidates scores topK = .ok hits ∧
      BestCandidates candidates scores topK ((scoredIndices scores topK).map Prod.snd) hits := by
  have hall : ∀ hit ∈ (scoredIndices scores topK).zipIdx 1,
      ∃ r, rerankedHit candidates hit = .ok r := by
    intro hit hmem
    have hlt := (mem_scoredIndices (List.fst_mem_of_mem_zipIdx hmem)).1
    rw [hlen] at hlt
    exact ⟨_, by rw [rerankedHit, List.getElem?_eq_getElem hlt]⟩
  obtain ⟨hits, hhits⟩ := exists_mapM_iff.mpr hall
  have hrel := forall₂_of_mapM hhits
  have hlength : hits.length = (scoredIndices scores topK).length := by
    rw [← hrel.length_eq, List.length_zipIdx]
  refine ⟨hits, hhits, ⟨?_, nodup_indices, sorted_indices, ?_, ?_⟩⟩
  · rw [List.length_map, length_scoredIndices, hlen]
    exact ⟨rfl, hlength.trans (by rw [length_scoredIndices, hlen])⟩
  · intro k i hk
    rw [List.getElem?_map, Option.map_eq_some_iff] at hk
    obtain ⟨s, hs, rfl⟩ := hk
    obtain ⟨hlt, hscore⟩ := mem_scoredIndices (List.mem_of_getElem? hs)
    rw [hlen] at hlt
    have hranked : ((scoredIndices scores topK).zipIdx 1)[k]? = some (s, k + 1) := by
      rw [List.getElem?_zipIdx, hs, Option.map_some, Nat.add_comm]
    obtain ⟨r, hr, hhit⟩ := getElem?_of_forall₂ hrel hranked
    rw [rerankedHit, List.getElem?_eq_getElem hlt] at hhit
    refine ⟨candidates[s.2], List.getElem?_eq_getElem hlt, ?_⟩
    rw [hr, hscore, ← Except.ok.inj hhit]
  · exact fun i hi j hj hcut => cut_indices hi (hlen ▸ hj) hcut

end

/-! ## Decoding -/

/-- The values of `score` and `relevance_score`. -/
def SieScore.keys : SieScore → Option Rat × Option Rat
  | .dict score relevanceScore => (score, relevanceScore)
  | .object _ score relevanceScore => (score, relevanceScore)

/-- An entry gives a score: under one of the keys, or the same under both. -/
def SieScore.Gives (item : SieScore) (score : Rat) : Prop :=
  (item.keys.1 = some score ∧ (item.keys.2 = none ∨ item.keys.2 = some score)) ∨
    (item.keys.1 = none ∧ item.keys.2 = some score)

/-- A zero under `score` alone, in a dict. -/
def zeroDict : SieScore := .dict (some 0) none

theorem toFloat_zeroDict : zeroDict.toFloat =
    .error "Expected score-like object, got <class 'dict'>" := rfl

/-- The decoder finds every score but a zero under `score` alone, in a dict. -/
theorem SieScore.toFloat_eq {item : SieScore} {score : Rat} (h : item.Gives score)
    (hne : item ≠ zeroDict) : item.toFloat = .ok score := by
  have hread : item.read = some score := by
    cases item with
    | dict a b =>
        rcases h with ⟨ha, hb⟩ | ⟨ha, hb⟩
        · obtain rfl : a = some score := ha
          by_cases hzero : score = 0
          · subst hzero
            rcases hb with hb | hb
            · obtain rfl : b = none := hb
              exact absurd rfl hne
            · obtain rfl : b = some 0 := hb
              rfl
          · have htruthy : ¬(some score = none ∨ some score = some (0 : Rat)) := by simp [hzero]
            exact if_neg htruthy
        · obtain rfl : a = none := ha
          obtain rfl : b = some score := hb
          rfl
    | object _ a b =>
        rcases h with ⟨ha, -⟩ | ⟨ha, hb⟩
        · obtain rfl : a = some score := ha
          rfl
        · obtain rfl : a = none := ha
          obtain rfl : b = some score := hb
          rfl
  rw [toFloat, hread]

/-- One score for each entry is decoded exactly when no entry is a zero `score` of a dict. -/
theorem toFloatScores_list {items : List SieScore} {scores : List Rat}
    (h : List.Forall₂ SieScore.Gives items scores) :
    (zeroDict ∉ items → toFloatScores (.list items) = .ok scores) ∧
      (zeroDict ∈ items → ∃ message, toFloatScores (.list items) = .error message) := by
  constructor
  · intro hnone
    have hne : ∀ item ∈ items, item ≠ zeroDict := fun item hitem heq => hnone (heq ▸ hitem)
    refine mapM_of_forall₂ (((List.forall₂_and_left items scores).mpr ⟨hne, h⟩).imp ?_)
    exact fun item score hboth => SieScore.toFloat_eq hboth.2 hboth.1
  · intro hzero
    cases hres : toFloatScores (.list items) with
    | error message => exact ⟨message, rfl⟩
    | ok ys =>
        obtain ⟨y, hy⟩ := exists_mapM_iff.mp ⟨ys, hres⟩ zeroDict hzero
        rw [toFloat_zeroDict] at hy
        cases hy

/-! ## Both paths -/

section

variable {predict : String → List (String × String) → Except String (List Rat)}
  {client : String → String → List String → Except SieFailure SieAnswer} {query : String}
  {candidates : List SearchResult} {modelId name : String} {topK : Nat} {scores : List Rat}

theorem rerankLocal_spec (hne : candidates ≠ []) (hname : resolveRerankerName modelId = .ok name)
    (hscores : predict name (candidates.map fun r => (query, r.chunk.text)) = .ok scores)
    (hlen : scores.length = candidates.length) :
    ∃ hits, rerankLocal predict query candidates modelId topK = .ok hits ∧
      BestCandidates candidates scores topK ((scoredIndices scores topK).map Prod.snd) hits := by
  obtain ⟨hits, hok, hbest⟩ : ∃ hits, topScored candidates scores topK = .ok hits ∧ _ :=
    topScored_spec hlen
  refine ⟨hits, ?_, hbest⟩
  rw [rerankLocal, if_neg hne, hname]
  dsimp only
  rw [hscores]
  exact hok

theorem scoreDocumentsSie_eq {documents : List String} (hne : documents ≠ [])
    (hname : resolveRerankerName modelId = .ok name) {items : List SieScore}
    (hitems : client name query documents = .ok (.list items))
    (hgives : List.Forall₂ SieScore.Gives items scores) :
    (zeroDict ∉ items → scoreDocumentsSie client query documents modelId = .ok scores) ∧
      (zeroDict ∈ items →
        ∃ message, scoreDocumentsSie client query documents modelId =
          .error (.sieFailed message)) := by
  obtain ⟨hok, herror⟩ := toFloatScores_list hgives
  rw [scoreDocumentsSie, if_neg hne, hname]
  dsimp only
  rw [hitems]
  dsimp only
  constructor
  · intro hnone
    rw [hok hnone]
  · intro hzero
    obtain ⟨message, hmessage⟩ := herror hzero
    rw [hmessage]
    exact ⟨_, rfl⟩

end

/-- Both paths give the best candidates exactly when no score of SIE is a zero under `score`
    alone, in a dict. -/
theorem rerank_best_iff
    {predict : String → List (String × String) → Except String (List Rat)}
    {client : String → String → List String → Except SieFailure SieAnswer} {query : String}
    {candidates : List SearchResult} {localModel localName sieModel sieName : String}
    {topK : Nat} {scores : List Rat} {items : List SieScore} (hne : candidates ≠ [])
    (hlen : scores.length = candidates.length)
    (hlocal : resolveRerankerName localModel = .ok localName)
    (hpredict : predict localName (candidates.map fun r => (query, r.chunk.text)) = .ok scores)
    (hsie : resolveRerankerName sieModel = .ok sieName)
    (hclient : client sieName query (candidates.map fun r => r.chunk.text) = .ok (.list items))
    (hgives : List.Forall₂ SieScore.Gives items scores) :
    ((∃ indices hits, rerankLocal predict query candidates localModel topK = .ok hits ∧
        BestCandidates candidates scores topK indices hits) ∧
      ∃ indices hits, rerankSie client query candidates sieModel topK = .ok hits ∧
        BestCandidates candidates scores topK indices hits) ↔ zeroDict ∉ items := by
  have hdocuments : (candidates.map fun r => r.chunk.text) ≠ [] := fun hnil =>
    hne (List.map_eq_nil_iff.mp hnil)
  obtain ⟨hok, herror⟩ := scoreDocumentsSie_eq hdocuments hsie hclient hgives
  constructor
  · rintro ⟨-, indices, hits, hhits, -⟩ hzero
    obtain ⟨message, hmessage⟩ := herror hzero
    rw [rerankSie, hmessage] at hhits
    cases hhits
  · intro hnone
    refine ⟨⟨_, rerankLocal_spec hne hlocal hpredict hlen⟩,
      (scoredIndices scores topK).map Prod.snd, ?_⟩
    rw [rerankSie, hok hnone]
    exact topScored_spec hlen

/-- A candidate with some text. -/
def candidate (text : String) : SearchResult :=
  ⟨⟨text, text, 0, "bge-m3", "fixed"⟩, 1, none, "dense", 1⟩

/-- A cross-encoder and a client that answer for two candidates. -/
def halfAndOne : String → List (String × String) → Except String (List Rat) :=
  fun _ _ => .ok [1 / 2, 1]

def dictsOf (scores : List Rat) : String → String → List String → Except SieFailure SieAnswer :=
  fun _ _ _ => .ok (.list (scores.map fun s => .dict (some s) none))

/-- Two candidates of scores zero and one: SIE's answer is refused. -/
theorem zero_score_refused :
    ¬∀ (client : String → String → List String → Except SieFailure SieAnswer) (query : String)
      (candidates : List SearchResult) (sieModel sieName : String) (topK : Nat)
      (scores : List Rat) (items : List SieScore), candidates ≠ [] →
      scores.length = candidates.length → resolveRerankerName sieModel = .ok sieName →
      client sieName query (candidates.map fun r => r.chunk.text) = .ok (.list items) →
      List.Forall₂ SieScore.Gives items scores →
      ∃ indices hits, rerankSie client query candidates sieModel topK = .ok hits ∧
        BestCandidates candidates scores topK indices hits := by
  intro h
  obtain ⟨indices, hits, hhits, -⟩ := h (dictsOf [0, 1]) "q" [candidate "a", candidate "b"]
    "bge-reranker" "BAAI/bge-reranker-v2-m3" 2 [0, 1] [zeroDict, .dict (some 1) none]
    (by decide) rfl rfl rfl (.cons (by simp [SieScore.Gives, SieScore.keys, zeroDict])
      (.cons (by simp [SieScore.Gives, SieScore.keys]) .nil))
  have herror : rerankSie (dictsOf [0, 1]) "q" [candidate "a", candidate "b"] "bge-reranker" 2 =
      .error (.sieFailed
        "SIE unreachable or score failed: Expected score-like object, got <class 'dict'>") := by
    decide +kernel
  rw [herror] at hhits
  cases hhits

theorem half_and_one_reranked :
    ((∃ indices hits, rerankLocal halfAndOne "q" [candidate "a", candidate "b"]
          "cross-encoder/ms-marco-MiniLM-L-6-v2" 2 = .ok hits ∧
        BestCandidates [candidate "a", candidate "b"] [1 / 2, 1] 2 indices hits) ∧
      ∃ indices hits, rerankSie (dictsOf [1 / 2, 1]) "q" [candidate "a", candidate "b"]
          "bge-reranker" 2 = .ok hits ∧
        BestCandidates [candidate "a", candidate "b"] [1 / 2, 1] 2 indices hits) ↔
      zeroDict ∉ [.dict (some (1 / 2)) none, .dict (some 1) none] :=
  rerank_best_iff (by decide) rfl rfl rfl rfl rfl
    (.cons (by simp [SieScore.Gives, SieScore.keys])
      (.cons (by simp [SieScore.Gives, SieScore.keys]) .nil))

end RagParamsFinder
