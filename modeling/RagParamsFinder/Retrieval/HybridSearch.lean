/-
  Hybrid search in two stores: fused in SQL (`_hybrid_query` and `hybrid_search` of
  `server/core/retrieval/retriever_postgres.py`), and on the client (`hybrid_search` of
  `retriever_mongo.py`; the Elasticsearch and Redis adapters do the same).

  A full ranking of a run's chunks is a list of ids with strictly decreasing scores. Each
  search cuts it: the client path asks for `top_k` of either ranking, the SQL query keeps
  `top_k * CANDIDATES_MULTIPLIER` candidates of either. SQL leaves the order of rows of the
  same score open, so the joined rows come in an arbitrary order to the last sort.

  Proved: `hybrid_same_iff`: both paths return the same hits with the same scores exactly
  when no chunk that only the deeper lists hold, and no tie, reaches the first `top_k`.
-/
import RagParamsFinder.Retrieval.Fusion

namespace RagParamsFinder

open Grouping Ranking

/-! ## Rankings -/

/-- The chunks of a run, each under its id. -/
structure RunChunks where
  chunk : String → Chunk
  id_chunk : ∀ cid, (chunk cid).id = cid

/-- A full ranking without ties: ids and scores, best first. -/
structure FullRanking where
  entries : List (String × Rat)
  nodup : (entries.map (·.1)).Nodup
  sorted : entries.Pairwise fun a b => b.2 < a.2

def FullRanking.ids (r : FullRanking) : List String := r.entries.map (·.1)

/-- `_to_search_results`. -/
def toSearchResults (chunks : RunChunks) (retrievalMethod : String)
    (rows : List (String × Rat)) : List SearchResult :=
  (rows.zipIdx 1).map fun row =>
    { chunk := chunks.chunk row.1.1
      denseScore := row.1.2
      rerankScore := none
      retrievalMethod := retrievalMethod
      rank := row.2 }

theorem map_toSearchResults (chunks : RunChunks) (retrievalMethod : String)
    (rows : List (String × Rat)) :
    (toSearchResults chunks retrievalMethod rows).map (fun r => (r.chunk, r.denseScore)) =
      rows.map fun row => (chunks.chunk row.1, row.2) := by
  refine List.ext_getElem? fun i => ?_
  simp only [toSearchResults, List.getElem?_map, List.getElem?_zipIdx]
  cases rows[i]? <;> rfl

theorem cids_toSearchResults (chunks : RunChunks) (retrievalMethod : String)
    (rows : List (String × Rat)) :
    cids (toSearchResults chunks retrievalMethod rows) = rows.map (·.1) := by
  have h := congrArg (List.map fun row : Chunk × Rat => row.1.id)
    (map_toSearchResults chunks retrievalMethod rows)
  simp only [List.map_map, Function.comp_def, chunks.id_chunk] at h
  exact h

/-! ## The client path -/

/-- `dense_search` and `sparse_search`: the first `top_k` of a ranking. -/
def rankedSearch (chunks : RunChunks) (retrievalMethod : String) (r : FullRanking)
    (topK : Nat) : List SearchResult :=
  toSearchResults chunks retrievalMethod (r.entries.take topK)

/-- `hybrid_search` of the stores that fuse on the client. -/
def hybridSearchClient (chunks : RunChunks) (dense sparse : FullRanking) (topK : Nat) :
    Option (List SearchResult) :=
  rrfFuse (rankedSearch chunks "dense" dense topK) (rankedSearch chunks "sparse" sparse topK)
    topK rrfK

/-! ## The SQL path -/

/-- A candidate list: `chunk_id` and `rank_ix`, up to a limit. -/
def candidates (r : FullRanking) (limit : Nat) : List (String × Nat) :=
  (r.ids.zipIdx 1).take limit

/-- A row of the full outer join. -/
structure JoinedRow where
  chunkId : String
  fullTextRank : Option Nat
  semanticRank : Option Nat
  deriving DecidableEq

/-- `full_text FULL OUTER JOIN semantic`. -/
def fullOuterJoin (fullText semantic : List (String × Nat)) : List JoinedRow :=
  fullText.map (fun row => ⟨row.1, some row.2, semantic.lookup row.1⟩) ++
    (semantic.filter fun row => row.1 ∉ fullText.map (·.1)).map fun row =>
      ⟨row.1, none, some row.2⟩

/-- `coalesce(1.0 / (rrf_k + rank_ix), 0.0)`. -/
def coalescedRank (k : Nat) (rankIx : Option Nat) : Rat :=
  (rankIx.map fun rank => 1 / ((k + rank : Nat) : Rat)).getD 0

def JoinedRow.score (k : Nat) (fullTextWeight semanticWeight : Rat) (row : JoinedRow) : Rat :=
  coalescedRank k row.fullTextRank * fullTextWeight +
    coalescedRank k row.semanticRank * semanticWeight

/-- `candidate_limit`. -/
def candidateLimit (topK : Nat) : Nat := max (topK * candidatesMultiplier) topK

/-- The rows of the join, before they are sorted. -/
def hybridRows (dense sparse : FullRanking) (topK : Nat) : List JoinedRow :=
  fullOuterJoin (candidates sparse (candidateLimit topK)) (candidates dense (candidateLimit topK))

/-- `hybrid_search` of Postgres with its default weights, when the joined rows come in the
    order of `rows`. -/
def hybridSearchPostgres (chunks : RunChunks) (rows : List JoinedRow) (topK : Nat) :
    List SearchResult :=
  toSearchResults chunks "hybrid"
    ((best (fun row => -row.score rrfK 1 1) topK rows).map fun row =>
      (row.chunkId, row.score rrfK 1 1))

/-- The same chunks in the same order with the same fused scores. -/
def SameHits (xs ys : List SearchResult) : Prop :=
  xs.map (fun r => (r.chunk, r.denseScore)) = ys.map fun r => (r.chunk, r.denseScore)

/-- Whatever the order of the joined rows, both paths return the same hits. -/
def HybridAgrees (chunks : RunChunks) (dense sparse : FullRanking) (topK : Nat) : Prop :=
  ∃ client, hybridSearchClient chunks dense sparse topK = some client ∧
    ∀ rows, rows.Perm (hybridRows dense sparse topK) →
      SameHits (hybridSearchPostgres chunks rows topK) client

/-! ## The joined rows -/

/-- `rank_ix` of an id in a candidate list. -/
def rankIx (ids : List String) (cid : String) : Option Nat :=
  if cid ∈ ids then some (1 + ids.idxOf cid) else none

def joinedRow (fullText semantic : List String) (cid : String) : JoinedRow :=
  ⟨cid, rankIx fullText cid, rankIx semantic cid⟩

theorem zipIdx_eq_map_idxOf {ids : List String} (h : ids.Nodup) (first : Nat) :
    ids.zipIdx first = ids.map fun cid => (cid, first + ids.idxOf cid) := by
  refine List.ext_getElem (by simp) fun i hi hi' => ?_
  rw [List.length_zipIdx] at hi
  simp [h.idxOf_getElem i hi]

theorem lookup_map_pair (ids : List String) (f : String → Nat) (cid : String) :
    (ids.map fun c => (c, f c)).lookup cid = if cid ∈ ids then some (f cid) else none := by
  induction ids with
  | nil => rfl
  | cons c ids ih =>
      rw [List.map_cons, List.lookup_cons, ih]
      by_cases h : cid = c
      · simp [h]
      · have hb : (cid == c) = false := by simpa using h
        simp [hb, h]

/-- The join has one row for each id of either list, with its ranks. -/
theorem fullOuterJoin_eq {fullText semantic : List String} (hf : fullText.Nodup)
    (hs : semantic.Nodup) :
    fullOuterJoin (fullText.zipIdx 1) (semantic.zipIdx 1) =
      (firstSeen fullText semantic).map (joinedRow fullText semantic) := by
  have hids : (fullText.zipIdx 1).map (·.1) = fullText := List.zipIdx_map_fst 1 fullText
  have hlookup := lookup_map_pair semantic fun c => 1 + semantic.idxOf c
  rw [fullOuterJoin, hids, zipIdx_eq_map_idxOf hf, zipIdx_eq_map_idxOf hs, firstSeen,
    List.map_append, List.map_map, List.filter_map, List.map_map]
  congr 1
  · refine List.map_congr_left fun cid hcid => ?_
    simp [joinedRow, rankIx, hcid, hlookup]
  · refine List.map_congr_left fun cid hcid => ?_
    obtain ⟨hmem, hnot⟩ := List.mem_filter.mp hcid
    simp [joinedRow, rankIx, hmem, of_decide_eq_true hnot]

theorem score_joinedRow (k : Nat) (fullText semantic : List String) (cid : String) :
    (joinedRow fullText semantic cid).score k 1 1 = rrfScore k fullText semantic cid := by
  have hrank : ∀ ids : List String,
      coalescedRank k (rankIx ids cid) = reciprocalRank k ids cid := by
    intro ids
    unfold rankIx reciprocalRank reciprocalFrom
    split
    · simp only [coalescedRank, Option.map_some, Option.getD_some]
      rw [Nat.add_comm k]
    · rfl
  simp only [JoinedRow.score, joinedRow, hrank, mul_one, rrfScore]

theorem candidates_eq (r : FullRanking) (limit : Nat) :
    candidates r limit = (r.ids.take limit).zipIdx 1 := by
  refine List.ext_getElem? fun i => ?_
  rw [candidates, List.getElem?_take, List.getElem?_zipIdx, List.getElem?_zipIdx,
    List.getElem?_take]
  split <;> rfl

/-- The candidate ids of a ranking in the SQL query. -/
def FullRanking.deep (r : FullRanking) (topK : Nat) : List String :=
  r.ids.take (candidateLimit topK)

theorem FullRanking.nodup_take (r : FullRanking) (n : Nat) : (r.ids.take n).Nodup :=
  r.nodup.sublist (List.take_sublist n _)

/-- The fused score of the SQL query. -/
def deepScore (dense sparse : FullRanking) (topK : Nat) (cid : String) : Rat :=
  rrfScore rrfK (dense.deep topK) (sparse.deep topK) cid

/-- The ids of the SQL query, in the order of the join. -/
def deepIds (dense sparse : FullRanking) (topK : Nat) : List String :=
  firstSeen (sparse.deep topK) (dense.deep topK)

theorem hybridRows_eq (dense sparse : FullRanking) (topK : Nat) :
    hybridRows dense sparse topK =
      (deepIds dense sparse topK).map (joinedRow (sparse.deep topK) (dense.deep topK)) := by
  rw [hybridRows, candidates_eq, candidates_eq]
  exact fullOuterJoin_eq (sparse.nodup_take _) (dense.nodup_take _)

theorem score_hybridRow (dense sparse : FullRanking) (topK : Nat) (cid : String) :
    (joinedRow (sparse.deep topK) (dense.deep topK) cid).score rrfK 1 1 =
      deepScore dense sparse topK cid := by
  rw [score_joinedRow, rrfScore_swap]
  rfl

/-- The SQL path keeps the best candidate ids, in the order the rows came in. -/
theorem hybridSearchPostgres_eq (chunks : RunChunks) (dense sparse : FullRanking) (topK : Nat)
    (ids : List String) :
    hybridSearchPostgres chunks
        (ids.map (joinedRow (sparse.deep topK) (dense.deep topK))) topK =
      toSearchResults chunks "hybrid"
        ((best (fun cid => -deepScore dense sparse topK cid) topK ids).map fun cid =>
          (cid, deepScore dense sparse topK cid)) := by
  rw [hybridSearchPostgres, best_map, List.map_map]
  simp only [score_hybridRow, Function.comp_def]
  rfl

/-- An order of the joined rows is an order of the ids. -/
theorem rows_perm_iff {dense sparse : FullRanking} {topK : Nat} {rows : List JoinedRow} :
    rows.Perm (hybridRows dense sparse topK) ↔
      ∃ ids : List String, ids.Perm (deepIds dense sparse topK) ∧
        rows = ids.map (joinedRow (sparse.deep topK) (dense.deep topK)) := by
  rw [hybridRows_eq]
  constructor
  · intro h
    refine ⟨rows.map (·.chunkId), ?_, ?_⟩
    · have hids := h.map (·.chunkId)
      rw [List.map_map] at hids
      exact hids.trans (List.Perm.of_eq (List.map_id _))
    · rw [List.map_map]
      refine (List.map_id _).symm.trans (List.map_congr_left fun row hrow => ?_)
      obtain ⟨cid, -, rfl⟩ := List.mem_map.mp (h.mem_iff.mp hrow)
      rfl
  · rintro ⟨ids, hids, rfl⟩
    exact hids.map _

/-! ## The client hits -/

/-- The fused score of the client path. -/
def clientScore (dense sparse : FullRanking) (topK : Nat) (cid : String) : Rat :=
  rrfScore rrfK (dense.ids.take topK) (sparse.ids.take topK) cid

/-- The ids that the client path returns. -/
def clientIds (dense sparse : FullRanking) (topK : Nat) : List String :=
  fusedIds (dense.ids.take topK) (sparse.ids.take topK) topK rrfK

theorem cids_rankedSearch (chunks : RunChunks) (retrievalMethod : String) (r : FullRanking)
    (topK : Nat) : cids (rankedSearch chunks retrievalMethod r topK) = r.ids.take topK := by
  rw [rankedSearch, cids_toSearchResults, List.map_take]
  rfl

theorem chunk_of_mem_toSearchResults {chunks : RunChunks} {retrievalMethod : String}
    {rows : List (String × Rat)} {r : SearchResult}
    (h : r ∈ toSearchResults chunks retrievalMethod rows) : r.chunk = chunks.chunk r.cid := by
  obtain ⟨row, -, rfl⟩ := List.mem_map.mp h
  exact congrArg chunks.chunk (chunks.id_chunk _).symm

/-- The client path returns its ids, each with its chunk and fused score. -/
theorem hybridSearchClient_eq (chunks : RunChunks) (dense sparse : FullRanking) (topK : Nat) :
    ∃ client, hybridSearchClient chunks dense sparse topK = some client ∧
      client.map (fun r => (r.chunk, r.denseScore)) =
        (clientIds dense sparse topK).map fun cid =>
          (chunks.chunk cid, clientScore dense sparse topK cid) := by
  have hd : (cids (rankedSearch chunks "dense" dense topK)).Nodup := by
    rw [cids_rankedSearch]
    exact dense.nodup_take topK
  have hs : (cids (rankedSearch chunks "sparse" sparse topK)).Nodup := by
    rw [cids_rankedSearch]
    exact sparse.nodup_take topK
  obtain ⟨out, hout, hhits⟩ := rrfFuse_eq hd hs topK rrfK
  refine ⟨out, hout, ?_⟩
  have hscore := score_fusedOf rrfK hd hs
  rw [cids_rankedSearch, cids_rankedSearch] at hscore
  have hids := hhits.ids
  rw [cids_rankedSearch, cids_rankedSearch] at hids
  rw [clientIds, ← hids, cids, List.map_map]
  refine List.map_congr_left fun r hr => ?_
  obtain ⟨-, -, base, hbase, hchunk⟩ := hhits.hits r hr
  have hfrom : base.chunk = chunks.chunk base.cid := by
    rcases List.mem_append.mp (find_fusedOf hbase) with h | h
    · exact chunk_of_mem_toSearchResults h
    · exact chunk_of_mem_toSearchResults h
  have hcid : base.cid = r.cid := (congrArg Chunk.id hchunk).symm
  rw [hchunk, hfrom, hcid, hhits.score_eq r hr, hscore]
  rfl

/-! ## When the paths agree -/

theorem map_pair_eq_iff {chunks : RunChunks} (p : String → Rat) {q : String → Rat}
    {xs ys : List String} :
    xs.map (fun cid => (chunks.chunk cid, p cid)) =
        ys.map (fun cid => (chunks.chunk cid, q cid)) ↔
      xs = ys ∧ ∀ cid ∈ ys, p cid = q cid := by
  constructor
  · intro h
    have hids := congrArg (List.map fun row : Chunk × Rat => row.1.id) h
    simp only [List.map_map, Function.comp_def, chunks.id_chunk, List.map_id'] at hids
    subst hids
    exact ⟨rfl, fun cid hcid => congrArg Prod.snd (List.map_inj_left.mp h cid hcid)⟩
  · rintro ⟨rfl, h⟩
    exact List.map_congr_left fun cid hcid => congrArg _ (h cid hcid)

/-- The agreement, said of ids. -/
theorem hybridAgrees_iff_ids (chunks : RunChunks) (dense sparse : FullRanking) (topK : Nat) :
    HybridAgrees chunks dense sparse topK ↔
      (∀ ids : List String, ids.Perm (deepIds dense sparse topK) →
        best (fun cid => -deepScore dense sparse topK cid) topK ids =
          clientIds dense sparse topK) ∧
      ∀ cid ∈ clientIds dense sparse topK,
        deepScore dense sparse topK cid = clientScore dense sparse topK cid := by
  obtain ⟨client, hclient, hhits⟩ := hybridSearchClient_eq chunks dense sparse topK
  have hsame : ∀ ids : List String, SameHits (hybridSearchPostgres chunks
      (ids.map (joinedRow (sparse.deep topK) (dense.deep topK))) topK) client ↔
        best (fun cid => -deepScore dense sparse topK cid) topK ids =
          clientIds dense sparse topK ∧
        ∀ cid ∈ clientIds dense sparse topK,
          deepScore dense sparse topK cid = clientScore dense sparse topK cid := by
    intro ids
    rw [SameHits, hhits, hybridSearchPostgres_eq, map_toSearchResults, List.map_map]
    refine (map_pair_eq_iff (deepScore dense sparse topK)).trans (and_congr_right ?_)
    rintro -
    exact Iff.rfl
  unfold HybridAgrees
  simp only [hclient, Option.some.injEq, exists_eq_left', rows_perm_iff]
  constructor
  · intro h
    refine ⟨fun ids hids => ((hsame ids).mp (h _ ⟨ids, hids, rfl⟩)).1, ?_⟩
    exact ((hsame _).mp (h _ ⟨_, List.Perm.refl _, rfl⟩)).2
  · rintro ⟨hids, hscores⟩ rows ⟨ids, hperm, rfl⟩
    exact (hsame ids).mpr ⟨hids ids hperm, hscores⟩

/-- The first `topK` of the fused candidates are decided by chunks that both paths see: those
    that only the deeper candidate lists hold are behind `topK` others, and so are ties. -/
structure RanksDecide (dense sparse : FullRanking) (topK : Nat) : Prop where
  deep : ∀ cid, cid ∈ (dense.deep topK).drop topK ∨ cid ∈ (sparse.deep topK).drop topK →
    topK ≤ ahead (fun cid => -deepScore dense sparse topK cid) (deepIds dense sparse topK) cid
  ties : Decided (fun cid => -deepScore dense sparse topK cid) topK (deepIds dense sparse topK)

/-! ## Cutting a candidate list -/

section Cut

variable {ids : List String} (k n : Nat) {cid : String}

theorem reciprocalRank_take (h : cid ∉ ids.drop n) :
    reciprocalRank k (ids.take n) cid = reciprocalRank k ids cid := by
  have hmem : cid ∈ ids ↔ cid ∈ ids.take n := by
    conv_lhs => rw [← List.take_append_drop n ids, List.mem_append]
    exact or_iff_left h
  unfold reciprocalRank reciprocalFrom
  by_cases hc : cid ∈ ids.take n
  · have hidx : ids.idxOf cid = (ids.take n).idxOf cid := by
      conv_lhs => rw [← List.take_append_drop n ids]
      exact List.idxOf_append_of_mem hc
    rw [if_pos hc, if_pos (hmem.mpr hc), hidx]
  · rw [if_neg hc, if_neg fun hin => hc (hmem.mp hin)]

/-- An id that is cut off loses its reciprocal rank. -/
theorem reciprocalRank_take_lt (hn : ids.Nodup) (h : cid ∈ ids.drop n) :
    reciprocalRank k (ids.take n) cid < reciprocalRank k ids cid := by
  have hcut : cid ∉ ids.take n := fun hc => by
    rw [← List.take_append_drop n ids, List.nodup_append] at hn
    exact hn.2.2 cid hc cid h rfl
  unfold reciprocalRank reciprocalFrom
  rw [if_neg hcut, if_pos (List.mem_of_mem_drop h)]
  have hpos : (0 : Rat) < ((1 + ids.idxOf cid + k : Nat) : Rat) := by
    exact_mod_cast (by omega : 0 < 1 + ids.idxOf cid + k)
  exact one_div_pos.mpr hpos

theorem reciprocalRank_take_le (hn : ids.Nodup) :
    reciprocalRank k (ids.take n) cid ≤ reciprocalRank k ids cid := by
  by_cases h : cid ∈ ids.drop n
  · exact (reciprocalRank_take_lt k n hn h).le
  · exact (reciprocalRank_take k n h).le

end Cut

variable {dense sparse : FullRanking} {topK : Nat}

theorem FullRanking.take_deep (r : FullRanking) (topK : Nat) :
    (r.deep topK).take topK = r.ids.take topK := by
  rw [FullRanking.deep, List.take_take]
  congr 1
  exact min_eq_left (le_max_right _ _)

theorem clientScore_eq (cid : String) :
    clientScore dense sparse topK cid =
      rrfScore rrfK ((dense.deep topK).take topK) ((sparse.deep topK).take topK) cid := by
  rw [dense.take_deep, sparse.take_deep]
  rfl

theorem clientScore_le (cid : String) :
    clientScore dense sparse topK cid ≤ deepScore dense sparse topK cid := by
  rw [clientScore_eq]
  exact add_le_add (reciprocalRank_take_le _ _ (dense.nodup_take _))
    (reciprocalRank_take_le _ _ (sparse.nodup_take _))

/-- Only in the deeper lists: the SQL query scores the id higher. -/
theorem clientScore_lt {cid : String}
    (h : cid ∈ (dense.deep topK).drop topK ∨ cid ∈ (sparse.deep topK).drop topK) :
    clientScore dense sparse topK cid < deepScore dense sparse topK cid := by
  rw [clientScore_eq]
  rcases h with h | h
  · exact add_lt_add_of_lt_of_le (reciprocalRank_take_lt _ _ (dense.nodup_take _) h)
      (reciprocalRank_take_le _ _ (sparse.nodup_take _))
  · exact add_lt_add_of_le_of_lt (reciprocalRank_take_le _ _ (dense.nodup_take _))
      (reciprocalRank_take_lt _ _ (sparse.nodup_take _) h)

theorem clientScore_eq_deepScore {cid : String} (hd : cid ∉ (dense.deep topK).drop topK)
    (hs : cid ∉ (sparse.deep topK).drop topK) :
    clientScore dense sparse topK cid = deepScore dense sparse topK cid := by
  rw [clientScore_eq]
  exact congrArg₂ (· + ·) (reciprocalRank_take _ _ hd) (reciprocalRank_take _ _ hs)

theorem mem_deepIds {cid : String} :
    cid ∈ deepIds dense sparse topK ↔ cid ∈ dense.deep topK ∨ cid ∈ sparse.deep topK := by
  rw [deepIds, mem_firstSeen, or_comm]

theorem nodup_deepIds : (deepIds dense sparse topK).Nodup :=
  nodup_firstSeen (sparse.nodup_take _) (dense.nodup_take _)

/-- The ids the client path sees. -/
def seenIds (dense sparse : FullRanking) (topK : Nat) : List String :=
  firstSeen (dense.ids.take topK) (sparse.ids.take topK)

theorem mem_seenIds {cid : String} (hd : cid ∉ (dense.deep topK).drop topK)
    (hs : cid ∉ (sparse.deep topK).drop topK) (h : cid ∈ deepIds dense sparse topK) :
    cid ∈ seenIds dense sparse topK := by
  rw [seenIds, mem_firstSeen, ← dense.take_deep, ← sparse.take_deep]
  rw [mem_deepIds, ← List.take_append_drop topK (dense.deep topK),
    ← List.take_append_drop topK (sparse.deep topK), List.mem_append, List.mem_append] at h
  exact h.imp (Or.resolve_right · hd) (Or.resolve_right · hs)

theorem seenIds_subset : seenIds dense sparse topK ⊆ deepIds dense sparse topK := by
  intro cid h
  rw [seenIds, mem_firstSeen, ← dense.take_deep, ← sparse.take_deep] at h
  rw [mem_deepIds]
  exact h.imp List.mem_of_mem_take List.mem_of_mem_take

section Decides

variable (h : RanksDecide dense sparse topK)

include h

/-- What the SQL query keeps is in neither of the deeper parts. -/
theorem RanksDecide.not_deep {cid : String}
    (hcid : cid ∈ best (fun cid => -deepScore dense sparse topK cid) topK
      (deepIds dense sparse topK)) :
    cid ∉ (dense.deep topK).drop topK ∧ cid ∉ (sparse.deep topK).drop topK := by
  have hahead := ahead_lt_of_mem_best (fun cid => -deepScore dense sparse topK cid) hcid
  exact ⟨fun hd => absurd (h.deep cid (Or.inl hd)) (not_le.mpr hahead),
    fun hs => absurd (h.deep cid (Or.inr hs)) (not_le.mpr hahead)⟩

/-- When the ranks decide, the client keeps what the SQL query keeps. -/
theorem RanksDecide.clientIds_eq :
    clientIds dense sparse topK =
      best (fun cid => -deepScore dense sparse topK cid) topK (deepIds dense sparse topK) := by
  set kept := best (fun cid => -deepScore dense sparse topK cid) topK (deepIds dense sparse topK)
    with hkept
  have hseen : (seenIds dense sparse topK).Nodup :=
    nodup_firstSeen (dense.nodup_take _) (sparse.nodup_take _)
  have hscore : ∀ cid ∈ kept, clientScore dense sparse topK cid = deepScore dense sparse topK cid :=
    fun cid hcid => clientScore_eq_deepScore (h.not_deep hcid).1 (h.not_deep hcid).2
  have hsub : kept ⊆ seenIds dense sparse topK := fun cid hcid =>
    mem_seenIds (h.not_deep hcid).1 (h.not_deep hcid).2 (mem_of_mem_best _ hcid)
  have hknodup : kept.Nodup := nodup_best _ nodup_deepIds topK
  -- the client sees the ids kept and others, none of which scores as much
  have hperm : (seenIds dense sparse topK).Perm
      (kept ++ (seenIds dense sparse topK).filter (· ∉ kept)) := by
    refine (List.perm_ext_iff_of_nodup hseen ?_).mpr fun cid => ?_
    · refine List.nodup_append.mpr ⟨hknodup, hseen.filter _, ?_⟩
      rintro a ha b hb rfl
      exact of_decide_eq_true (List.mem_filter.mp hb).2 ha
    · rw [List.mem_append, List.mem_filter, decide_eq_true_iff]
      by_cases hc : cid ∈ kept
      · simp [hc, hsub hc]
      · simp [hc]
  refine best_eq _ hperm (fun a ha b hb => ?_) ?_ ?_
  · obtain ⟨hbseen, hbcut⟩ := List.mem_filter.mp hb
    have hbdrop : b ∈ (rankBy (fun cid => -deepScore dense sparse topK cid)
        (deepIds dense sparse topK)).drop topK := by
      have hmem := (rankBy_perm (fun cid => -deepScore dense sparse topK cid) _).mem_iff.mpr
        (seenIds_subset hbseen)
      rw [← List.take_append_drop topK (rankBy _ _), List.mem_append] at hmem
      exact hmem.resolve_left (of_decide_eq_true hbcut)
    have hlt := best_lt_of_decided nodup_deepIds h.ties ha hbdrop
    have hle : clientScore dense sparse topK b ≤ deepScore dense sparse topK b := clientScore_le b
    change -clientScore dense sparse topK a < -clientScore dense sparse topK b
    rw [hscore a ha]
    exact hlt.trans_le (neg_le_neg hle)
  · refine (pairwise_best_of_decided nodup_deepIds h.ties).imp_of_mem fun {a b} ha hb hab => ?_
    change -clientScore dense sparse topK a < -clientScore dense sparse topK b
    rw [hscore a ha, hscore b hb]
    exact hab
  · have hlen : kept.length = min topK (deepIds dense sparse topK).length := length_best _ _ _
    have hle := (hseen.subperm seenIds_subset).length_le
    have hge := (hknodup.subperm hsub).length_le
    change kept.length = min topK (seenIds dense sparse topK).length
    omega

end Decides

theorem ranksDecide_of_agrees {chunks : RunChunks} (h : HybridAgrees chunks dense sparse topK) :
    RanksDecide dense sparse topK := by
  obtain ⟨hids, hscores⟩ := (hybridAgrees_iff_ids chunks dense sparse topK).mp h
  refine ⟨fun cid hdeep => ?_, decided_of_best_perm hids⟩
  by_contra hlt
  have hmem : cid ∈ deepIds dense sparse topK :=
    mem_deepIds.mpr (hdeep.imp List.mem_of_mem_drop List.mem_of_mem_drop)
  have hkept := List.mem_of_getElem? (getElem?_of_best_perm hids hmem (not_le.mp hlt))
  exact (clientScore_lt hdeep).ne' (hscores cid hkept)

theorem RanksDecide.agrees (h : RanksDecide dense sparse topK) (chunks : RunChunks) :
    HybridAgrees chunks dense sparse topK := by
  refine (hybridAgrees_iff_ids chunks dense sparse topK).mpr ⟨fun ids hids => ?_, ?_⟩
  · rw [h.clientIds_eq]
    exact best_perm_of_decided nodup_deepIds h.ties hids
  · intro cid hcid
    rw [h.clientIds_eq] at hcid
    exact (clientScore_eq_deepScore (h.not_deep hcid).1 (h.not_deep hcid).2).symm

/-- Both paths return the same hits exactly when the ranks decide. -/
theorem hybrid_same_iff (chunks : RunChunks) (dense sparse : FullRanking) (topK : Nat) :
    HybridAgrees chunks dense sparse topK ↔ RanksDecide dense sparse topK :=
  ⟨ranksDecide_of_agrees, fun h => h.agrees chunks⟩

/-- A chunk `b` second in both rankings: the SQL query, which looks two deep, returns it for
    `top_k = 1`, and the client path returns the first chunk of the dense ranking. -/
theorem hybrid_paths_differ :
    ¬∀ (chunks : RunChunks) (dense sparse : FullRanking) (topK : Nat), 1 ≤ topK →
      HybridAgrees chunks dense sparse topK := by
  intro h
  have hdecide := ranksDecide_of_agrees (h ⟨fun cid => ⟨cid, "", 0, "", ""⟩, fun _ => rfl⟩
    ⟨[("a", 2), ("b", 1)], by decide, by decide⟩ ⟨[("c", 2), ("b", 1)], by decide, by decide⟩
    1 le_rfl)
  exact absurd (hdecide.deep "b" (Or.inl (by decide))) (by decide +kernel)

end RagParamsFinder
