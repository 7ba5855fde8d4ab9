/-
  A query of a run is answered from the run's own chunks, in every store.

  The runs of all experiments share one index, and write to it and delete from it while others
  search. What is assumed of an engine is `Answers`: its rows were in the store at some time, meet
  the filter, and come once each and no more than asked for.

  Proved: `queryResults_own`: whatever the other runs do, the recorded results are distinct chunks
  of the run with their own texts, ranked from one, and no more than the run's settings allow.
-/
import RagParamsFinder.Retrieval.Search
import RagParamsFinder.VectorStores.InsertHistory

namespace RagParamsFinder

open BatchWrites Grouping Ranking SharedTable Traversals

/-! ## What is assumed -/

section Contract

variable {φ ω κ ν : Type} [DecidableEq κ]

/-- The rows are distinct, and each was in the store at some time and meets the filter. -/
structure FoundRows (L : Layout φ κ ν) (fleet : Fleet φ ω) (scope : ChunkScope)
    (hits : List (EngineHit κ ν)) : Prop where
  distinct : (hits.map (·.key)).Nodup
  found : ∀ hit ∈ hits, (∃ s, Seen L fleet s ∧ s hit.key = some hit.row) ∧ L.Finds scope hit.row

/-- An engine answers with such rows, at most as many as asked for. -/
def AnswersFrom (L : Layout φ κ ν) (fleet : Fleet φ ω) (engine : Engine φ κ ν) : Prop :=
  ∀ request hits, engine request = .ok hits →
    FoundRows L fleet request.scope hits ∧ hits.length ≤ request.limit.toNat

end Contract

/-! ## Own results -/

section Own

variable {φ ω κ ν : Type}

/-- Distinct chunks of the run, ranked from one, at most `limit`. -/
structure OwnResults (r : ChunkedRun φ) (position : Nat → Int) (limit : Nat)
    (results : List SearchResult) : Prop where
  own : ∀ result ∈ results, ∃ i, r.OwnChunk position i result.chunk
  distinct : (cids results).Nodup
  ranks : ∀ j result, results[j]? = some result → result.rank = j + 1
  length : results.length ≤ limit

theorem ownResults_nil (r : ChunkedRun φ) (position : Nat → Int) (limit : Nat) :
    OwnResults r position limit [] := ⟨nofun, List.nodup_nil, nofun, Nat.zero_le _⟩

theorem OwnResults.take {r : ChunkedRun φ} {position : Nat → Int} {limit : Nat}
    {results : List SearchResult} (h : OwnResults r position limit results) (n : Nat) :
    OwnResults r position (min n limit) (results.take n) where
  own result hresult := h.own result (List.mem_of_mem_take hresult)
  distinct := h.distinct.sublist ((List.take_sublist n results).map _)
  ranks j result hj := by
    rw [List.getElem?_take] at hj
    split at hj
    · exact h.ranks j result hj
    · cases hj
  length := by
    have hle := h.length
    rw [List.length_take]
    omega

variable {L : Layout φ κ ν} {fleet : Fleet φ ω}

/-- A row that a filter on a run's ids has found is the row of a document of the run. -/
theorem doc_of_found [DecidableEq κ] (hL : L.Lawful fleet) {w : ω} {hits : List (EngineHit κ ν)}
    (h : FoundRows L fleet (fleet.run w).scope hits) {hit : EngineHit κ ν} (hhit : hit ∈ hits) :
    ∃ i doc, (fleet.run w).IsDoc i doc ∧ L.row doc = some (hit.key, hit.row) := by
  obtain ⟨⟨s, hseen, hat⟩, hfinds⟩ := h.found hit hhit
  obtain ⟨w', hrow⟩ := hseen.owned hit.key hit.row hat
  obtain rfl := (hL.finds_iff hrow).mp hfinds
  exact Layout.mem_rows.mp hrow

theorem key_ne_of_distinct {hits : List (EngineHit κ ν)} (h : (hits.map (·.key)).Nodup)
    {a b : Nat} {hit hit' : EngineHit κ ν} (ha : hits[a]? = some hit) (hb : hits[b]? = some hit')
    (hab : a < b) : hit.key ≠ hit'.key := by
  obtain ⟨hlt, rfl⟩ := List.getElem?_eq_some_iff.mp ha
  obtain ⟨hlt', rfl⟩ := List.getElem?_eq_some_iff.mp hb
  exact List.pairwise_iff_getElem.mp (List.pairwise_map.mp h) a b hlt hlt' hab

/-- The adapters turn found rows into own results. -/
theorem toResults_own [DecidableEq κ] (hL : L.Lawful fleet) {w : ω} {hits : List (EngineHit κ ν)}
    (h : FoundRows L fleet (fleet.run w).scope hits) {retrievalMethod : RetrievalMethod}
    {results : List SearchResult} (hresults : toResults L retrievalMethod hits = .ok results) :
    OwnResults (fleet.run w) L.position hits.length results := by
  have hrel := forall₂_of_mapM hresults
  have hlen : results.length = hits.length := by rw [← hrel.length_eq, List.length_zipIdx]
  -- The result at a position is made from the hit there.
  have hat : ∀ (j : Nat) (result : SearchResult), results[j]? = some result →
      ∃ (hit : EngineHit κ ν) (i : Nat) (doc : ChunkDoc φ), hits[j]? = some hit ∧
        (fleet.run w).IsDoc i doc ∧ L.row doc = some (hit.key, hit.row) ∧
          (fleet.run w).OwnChunk L.position i result.chunk ∧ result.rank = j + 1 := by
    intro j result hj
    obtain ⟨⟨hit, rank⟩, hzip, hof⟩ := getElem?_of_forall₂ hrel.flip hj
    rw [List.getElem?_zipIdx, Option.map_eq_some_iff] at hzip
    obtain ⟨hit', hhit, heq⟩ := hzip
    obtain ⟨rfl, rfl⟩ := Prod.mk.inj heq
    obtain ⟨i, doc, hdoc, hrow⟩ := doc_of_found hL h (List.mem_of_getElem? hhit)
    obtain ⟨c, hshown, hown⟩ := hL.shown hdoc hrow
    rw [resultOf] at hof
    dsimp only at hof
    rw [hshown] at hof
    cases hof
    exact ⟨hit', i, doc, hhit, hdoc, hrow, hown, Nat.add_comm 1 j⟩
  constructor
  case own =>
    intro result hresult
    obtain ⟨j, hj⟩ := List.getElem?_of_mem hresult
    obtain ⟨-, i, -, -, -, -, hown, -⟩ := hat j result hj
    exact ⟨i, hown⟩
  case distinct =>
    refine List.pairwise_map.mpr (List.pairwise_iff_getElem.mpr fun a b ha hb hab heq => ?_)
    obtain ⟨hit, i, doc, hhit, hdoc, hrow, hown, -⟩ := hat a _ (List.getElem?_eq_getElem ha)
    obtain ⟨hit', i', doc', hhit', hdoc', hrow', hown', -⟩ :=
      hat b _ (List.getElem?_eq_getElem hb)
    have hid : chunkIdOf (fleet.run w).runId i = chunkIdOf (fleet.run w).runId i' :=
      hown.id.symm.trans (heq.trans hown'.id)
    obtain rfl := (chunkId_inj hid).2
    obtain rfl := ChunkedRun.isDoc_unique hdoc hdoc'
    rw [hrow] at hrow'
    have hkey : hit.key = hit'.key := congrArg Prod.fst (Option.some.inj hrow')
    exact absurd hkey (key_ne_of_distinct h.distinct hhit hhit' hab)
  case ranks =>
    intro j result hj
    obtain ⟨-, -, -, -, -, -, -, hrank⟩ := hat j result hj
    exact hrank
  case length => exact hlen.le

theorem OwnResults.mono {r : ChunkedRun φ} {position : Nat → Int} {limit limit' : Nat}
    {results : List SearchResult} (h : OwnResults r position limit results)
    (hle : limit ≤ limit') : OwnResults r position limit' results :=
  ⟨h.own, h.distinct, h.ranks, h.length.trans hle⟩

end Own

/-! ## The searches -/

section Searches

variable {φ : Type} {r : ChunkedRun φ} {position : Nat → Int}

/-- A search for the run returns own results, as many as asked for at most. -/
def OwnSearch (r : ChunkedRun φ) (position : Nat → Int) {α : Type}
    (search : α → ChunkScope → Int → Except SearchError (List SearchResult)) : Prop :=
  ∀ query topK results, search query r.scope topK = .ok results →
    OwnResults r position topK.toNat results

structure OwnSearcher (r : ChunkedRun φ) (position : Nat → Int) (s : Searcher φ) : Prop where
  dense : OwnSearch r position s.dense
  sparse : OwnSearch r position s.sparse
  hybrid : ∀ queryText, OwnSearch r position (s.hybrid queryText)

/-- Fusion of own results. -/
theorem rrfFuse_own {limit limit' : Nat} {dense sparse : List SearchResult}
    (hd : OwnResults r position limit dense) (hs : OwnResults r position limit' sparse)
    {topK k : Nat} {out : List SearchResult} (h : rrfFuse dense sparse topK k = some out) :
    OwnResults r position topK out := by
  obtain ⟨out', hout, hhits⟩ := rrfFuse_eq hd.distinct hs.distinct topK k
  obtain rfl : out = out' := Option.some.inj (h.symm.trans hout)
  have hfusion := hhits.fusion hd.distinct hs.distinct
  constructor
  case own =>
    intro result hresult
    obtain ⟨-, -, base, hbase, hchunk⟩ := hhits.hits result hresult
    rw [hchunk]
    rcases List.mem_append.mp (find_fusedOf hbase) with hmem | hmem
    · exact hd.own base hmem
    · exact hs.own base hmem
  case distinct => exact hfusion.nodup
  case ranks =>
    intro j result hj
    have hrank := congrArg (fun ranks : List Nat => ranks[j]?) hfusion.ranks
    simp only [List.getElem?_map, hj, Option.map_some] at hrank
    obtain ⟨hlt, -⟩ := List.getElem?_eq_some_iff.mp hj
    rw [List.getElem?_range' hlt, Option.some.injEq] at hrank
    omega
  case length =>
    rw [hfusion.length]
    exact Nat.min_le_left _ _

theorem fuseOnClient_own
    {dense : List φ → ChunkScope → Int → Except SearchError (List SearchResult)}
    {sparse : String → ChunkScope → Int → Except SearchError (List SearchResult)}
    (hd : OwnSearch r position dense) (hs : OwnSearch r position sparse) (queryText : String) :
    OwnSearch r position (fuseOnClient dense sparse queryText) := by
  intro queryEmbedding topK results h
  obtain ⟨denseResults, hdense, h⟩ := bind_eq_ok.mp h
  obtain ⟨sparseResults, hsparse, h⟩ := bind_eq_ok.mp h
  split at h
  · rename_i merged hmerged
    cases h
    exact rrfFuse_own (hd _ _ _ hdense) (hs _ _ _ hsparse) hmerged
  · cases h

end Searches

section Stores

variable {φ ω κ ν : Type} [DecidableEq κ] {L : Layout φ κ ν} {fleet : Fleet φ ω}
  {engine : Engine φ κ ν} {w : ω}

/-- One request and its results. -/
theorem ask_own (hL : L.Lawful fleet) (hengine : AnswersFrom L fleet engine)
    {query : EngineQuery φ} {topK : Int} {attempt : Nat} {retrievalMethod : RetrievalMethod}
    {results : List SearchResult}
    (h : (do
      let hits ← ask engine ⟨query, (fleet.run w).scope, topK, attempt⟩
      toResults L retrievalMethod hits) = .ok results) :
    OwnResults (fleet.run w) L.position topK.toNat results := by
  obtain ⟨hits, hask, hresults⟩ := bind_eq_ok.mp h
  obtain ⟨hfound, hlen⟩ := hengine _ _ (mapError_eq_ok.mp hask)
  exact (toResults_own hL hfound hresults).mono hlen

end Stores

namespace Elasticsearch

variable {φ ω : Type} {fleet : Fleet φ ω} {engine : Engine φ String (ChunkSource φ)}

theorem searcher_own (hengine : AnswersFrom layout fleet engine) (w : ω) :
    OwnSearcher (fleet.run w) (layout (φ := φ)).position (searcher engine) := by
  have hd : OwnSearch (fleet.run w) (layout (φ := φ)).position (denseSearch engine) := by
    intro queryEmbedding topK results h
    obtain ⟨_, -, h⟩ := bind_eq_ok.mp h
    obtain ⟨_, -, h⟩ := bind_eq_ok.mp h
    obtain ⟨_, -, h⟩ := bind_eq_ok.mp h
    exact ask_own (lawful fleet) hengine h
  have hs : OwnSearch (fleet.run w) (layout (φ := φ)).position (sparseSearch engine) := by
    intro queryText topK results h
    obtain ⟨_, -, h⟩ := bind_eq_ok.mp h
    obtain ⟨_, -, h⟩ := bind_eq_ok.mp h
    exact ask_own (lawful fleet) hengine h
  exact ⟨hd, hs, fuseOnClient_own hd hs⟩

end Elasticsearch

namespace Redis

variable {φ ω : Type} {fleet : Fleet φ ω} {globMatches : String → String → Bool}
  {pack : φ → Option (List UInt8)} {engine : Engine φ String (List (String × HashValue))}

theorem searcher_own (hglob : ReadsGlobs globMatches)
    (hengine : AnswersFrom (layout globMatches pack) fleet engine) (w : ω) :
    OwnSearcher (fleet.run w) (layout globMatches pack).position
      (searcher globMatches pack engine) := by
  have hd : OwnSearch (fleet.run w) (layout globMatches pack).position
      (denseSearch globMatches pack engine) := by
    intro queryEmbedding topK results h
    obtain ⟨_, -, h⟩ := bind_eq_ok.mp h
    obtain ⟨_, -, h⟩ := bind_eq_ok.mp h
    obtain ⟨_, -, h⟩ := bind_eq_ok.mp h
    exact ask_own (lawful hglob pack fleet) hengine h
  have hs : OwnSearch (fleet.run w) (layout globMatches pack).position
      (sparseSearch globMatches pack engine) := by
    intro queryText topK results h
    obtain ⟨_, -, h⟩ := bind_eq_ok.mp h
    obtain ⟨_, -, h⟩ := bind_eq_ok.mp h
    dsimp only at h
    split at h
    · cases h
      exact ownResults_nil _ _ _
    · exact ask_own (lawful hglob pack fleet) hengine h
  exact ⟨hd, hs, fuseOnClient_own hd hs⟩

end Redis

namespace Mongo

variable {φ ω : Type} {fleet : Fleet φ ω} {objectId : ChunkDoc φ → String}
  {engine : Engine φ String (ChunkDoc φ)}

/-- The hits of the attempts are those of one request, or there are none. -/
theorem sparseAttempts_cases {queryText : String} {scope : ChunkScope} {topK : Int}
    {left attempt : Nat} {hits : List (EngineHit String (ChunkDoc φ))}
    (h : sparseAttempts engine queryText scope topK left attempt = .ok hits) :
    hits = [] ∨ ∃ attempt', engine ⟨.text queryText, scope, topK, attempt'⟩ = .ok hits := by
  induction left generalizing attempt with
  | zero => exact Or.inl (Except.ok.inj h).symm
  | succ left ih =>
      obtain ⟨found, hask, h⟩ := bind_eq_ok.mp h
      split at h
      · exact ih h
      · cases h
        exact Or.inr ⟨attempt, mapError_eq_ok.mp hask⟩

theorem searcher_own (hfresh : FreshIds objectId fleet)
    (hengine : AnswersFrom (layout objectId) fleet engine) (w : ω) :
    OwnSearcher (fleet.run w) (layout objectId).position (searcher objectId engine) := by
  have hd : OwnSearch (fleet.run w) (layout objectId).position (denseSearch objectId engine) :=
    fun _ _ _ h => ask_own (lawful hfresh) hengine h
  have hs : OwnSearch (fleet.run w) (layout objectId).position
      (sparseSearch objectId engine) := by
    intro queryText topK results h
    obtain ⟨hits, hattempts, hresults⟩ := bind_eq_ok.mp h
    rcases sparseAttempts_cases hattempts with rfl | ⟨attempt, hhits⟩
    · cases hresults
      exact ownResults_nil _ _ _
    · obtain ⟨hfound, hlen⟩ := hengine _ _ hhits
      exact (toResults_own (lawful hfresh) hfound hresults).mono hlen
  exact ⟨hd, hs, fuseOnClient_own hd hs⟩

end Mongo

namespace Postgres

variable {φ ω : Type} {fleet : Fleet φ ω} {engine : Engine φ String (ChunkRow φ)}
  {hybridEngine : String → EngineRequest φ → Except String (HybridSnapshot φ)}

/-- A candidate list of the snapshot: distinct rows of its table that meet the filter. -/
structure CandidatesOf (chunks : Cells String (ChunkRow φ)) (scope : ChunkScope)
    (hits : List (EngineHit String (ChunkRow φ))) : Prop where
  distinct : (hits.map (·.key)).Nodup
  found : ∀ hit ∈ hits, chunks hit.key = some hit.row ∧ layout.Finds scope hit.row

/-- A hybrid query reads one state of the table; equal scores may come in any order. -/
structure ReadsSnapshot (fleet : Fleet φ ω) (scope : ChunkScope) (s : HybridSnapshot φ) :
    Prop where
  seen : Seen layout fleet s.chunks
  fullText : CandidatesOf s.chunks scope s.fullText
  semantic : CandidatesOf s.chunks scope s.semantic
  arranged : ∀ rows, (s.arrange rows).Perm rows

/-- The chunk id is the primary key. -/
theorem chunkId_of_seen {chunks : Cells String (ChunkRow φ)} (hseen : Seen layout fleet chunks)
    {k : String} {c : ChunkRow φ} (h : chunks k = some c) : c.chunkId = k := by
  obtain ⟨w, hrow⟩ := hseen.owned k c h
  obtain ⟨i, doc, ⟨chunk, emb, -, -, rfl⟩, hkv⟩ := Layout.mem_rows.mp hrow
  obtain ⟨vectorColumn, -, rfl, rfl⟩ := row_chunkDoc hkv
  rfl

/-- What the joined rows are: rows of the table under the ids of the candidate lists. -/
theorem joined_spec {scope : ChunkScope} {s : HybridSnapshot φ}
    (hs : ReadsSnapshot fleet scope s) : (s.joined.map fun rc => rc.2.chunkId).Nodup ∧
      ∀ rc ∈ s.joined, s.chunks rc.2.chunkId = some rc.2 ∧ layout.Finds scope rc.2 := by
  have hkey : ∀ k c, s.chunks k = some c → c.chunkId = k := fun k c => chunkId_of_seen hs.seen
  have hjoined : s.joined = (firstSeen (s.fullText.map (·.key)) (s.semantic.map (·.key))).filterMap
      fun cid => (s.chunks cid).map fun c =>
        (joinedRow (s.fullText.map (·.key)) (s.semantic.map (·.key)) cid, c) := by
    rw [HybridSnapshot.joined, fullOuterJoin_eq hs.fullText.distinct hs.semantic.distinct,
      List.filterMap_map]
    rfl
  constructor
  · rw [hjoined, List.map_filterMap]
    refine (nodup_firstSeen hs.fullText.distinct hs.semantic.distinct).filterMap ?_
    intro cid cid' id hid hid'
    have hof : ∀ k, id ∈ Option.map (fun rc : JoinedRow × ChunkRow φ => rc.2.chunkId)
        ((s.chunks k).map fun c =>
          (joinedRow (s.fullText.map (·.key)) (s.semantic.map (·.key)) k, c)) → id = k := by
      intro k hk
      rw [Option.map_map] at hk
      obtain ⟨c, hc, rfl⟩ := Option.map_eq_some_iff.mp hk
      exact hkey k c hc
    exact (hof cid hid).symm.trans (hof cid' hid')
  · intro rc hrc
    rw [hjoined, List.mem_filterMap] at hrc
    obtain ⟨cid, hcid, hrc⟩ := hrc
    obtain ⟨c, hc, rfl⟩ := Option.map_eq_some_iff.mp hrc
    rw [hkey cid c hc]
    refine ⟨hc, ?_⟩
    have hfound : ∀ hits : List (EngineHit String (ChunkRow φ)), CandidatesOf s.chunks scope hits →
        cid ∈ hits.map (·.key) → layout.Finds scope c := by
      intro hits hcandidates hmem
      obtain ⟨hit, hhit, rfl⟩ := List.mem_map.mp hmem
      obtain ⟨hat, hfinds⟩ := hcandidates.found hit hhit
      rw [hc] at hat
      cases hat
      exact hfinds
    rcases mem_firstSeen.mp hcid with hmem | hmem
    · exact hfound _ hs.fullText hmem
    · exact hfound _ hs.semantic hmem

theorem rows_found {scope : ChunkScope} {s : HybridSnapshot φ}
    (hs : ReadsSnapshot fleet scope s) (topK : Nat) :
    FoundRows layout fleet scope (s.rows topK) ∧ (s.rows topK).length ≤ topK := by
  obtain ⟨hnodup, hfound⟩ := joined_spec hs
  have hperm := hs.arranged s.joined
  refine ⟨⟨?_, ?_⟩, ?_⟩
  · rw [HybridSnapshot.rows, List.map_map]
    have hbest := (rankBy_perm (fun rc : JoinedRow × ChunkRow φ => -rc.1.score rrfK 1 1)
      (s.arrange s.joined)).trans hperm
    exact ((hbest.map _).nodup_iff.mpr hnodup).sublist ((List.take_sublist topK _).map _)
  · intro hit hhit
    obtain ⟨rc, hrc, rfl⟩ := List.mem_map.mp hhit
    obtain ⟨hat, hfinds⟩ := hfound rc (hperm.mem_iff.mp (mem_of_mem_best _ hrc))
    exact ⟨⟨s.chunks, hs.seen, hat⟩, hfinds⟩
  · rw [HybridSnapshot.rows, List.length_map, length_best]
    exact Nat.min_le_left _ _

theorem searcher_own (hengine : AnswersFrom layout fleet engine)
    (hhybrid : ∀ queryText request s, hybridEngine queryText request = .ok s →
      ReadsSnapshot fleet request.scope s) (w : ω) :
    OwnSearcher (fleet.run w) (layout (φ := φ)).position (searcher engine hybridEngine) := by
  constructor
  case dense =>
    intro queryEmbedding topK results h
    obtain ⟨_, -, h⟩ := bind_eq_ok.mp h
    obtain ⟨_, -, h⟩ := bind_eq_ok.mp h
    exact ask_own (lawful fleet) hengine h
  case sparse =>
    intro queryText topK results h
    obtain ⟨_, -, h⟩ := bind_eq_ok.mp h
    exact ask_own (lawful fleet) hengine h
  case hybrid =>
    intro queryText queryEmbedding topK results h
    obtain ⟨_, -, h⟩ := bind_eq_ok.mp h
    obtain ⟨_, -, h⟩ := bind_eq_ok.mp h
    obtain ⟨s, hs, hresults⟩ := bind_eq_ok.mp h
    obtain ⟨hfound, hlen⟩ := rows_found (hhybrid _ _ _ (mapError_eq_ok.mp hs)) topK.toNat
    exact (toResults_own (lawful fleet) hfound hresults).mono hlen

end Postgres

/-! ## Reranking -/

section Rerank

variable {φ : Type} {r : ChunkedRun φ} {position : Nat → Int} {limit : Nat}
  {candidates hits : List SearchResult}

theorem index_inj {results : List SearchResult} (h : (cids results).Nodup) {i j : Nat}
    {c c' : SearchResult} (hi : results[i]? = some c) (hj : results[j]? = some c')
    (hcid : c.cid = c'.cid) : i = j := by
  have hlt : i < (cids results).length := by
    rw [cids, List.length_map]
    exact (List.getElem?_eq_some_iff.mp hi).1
  refine (List.getElem?_inj hlt h).mp ?_
  rw [cids, List.getElem?_map, List.getElem?_map, hi, hj, Option.map_some, Option.map_some, hcid]

/-- Hits picked from own results, each at another index, and ranked anew. -/
theorem picked_own (hc : OwnResults r position limit candidates) {indices : List Nat}
    (hn : indices.Nodup) (hat : ∀ (k : Nat) (hit : SearchResult), hits[k]? = some hit →
      ∃ (i : Nat) (c : SearchResult), indices[k]? = some i ∧ candidates[i]? = some c ∧
        hit.chunk = c.chunk ∧ hit.rank = k + 1) :
    OwnResults r position hits.length hits := by
  constructor
  case own =>
    intro hit hhit
    obtain ⟨k, hk⟩ := List.getElem?_of_mem hhit
    obtain ⟨i, c, -, hi, hchunk, -⟩ := hat k hit hk
    exact hchunk ▸ hc.own c (List.mem_of_getElem? hi)
  case distinct =>
    refine List.pairwise_map.mpr (List.pairwise_iff_getElem.mpr fun a b ha hb hab heq => ?_)
    obtain ⟨i, c, hia, hi, hchunk, -⟩ := hat a _ (List.getElem?_eq_getElem ha)
    obtain ⟨i', c', hib, hi', hchunk', -⟩ := hat b _ (List.getElem?_eq_getElem hb)
    have hcid : c.cid = c'.cid := by
      rw [SearchResult.cid, SearchResult.cid, ← hchunk, ← hchunk']
      exact heq
    obtain rfl := index_inj hc.distinct hi hi' hcid
    have hlt : a < indices.length := (List.getElem?_eq_some_iff.mp hia).1
    exact absurd ((List.getElem?_inj hlt hn).mp (hia.trans hib.symm)) (Nat.ne_of_lt hab)
  case ranks =>
    intro k hit hk
    obtain ⟨-, -, -, -, -, hrank⟩ := hat k hit hk
    exact hrank
  case length => exact Nat.le_refl _

/-- The best scores, whatever scores there are. -/
theorem topScored_own (hc : OwnResults r position limit candidates) {scores : List Rat}
    {topK : Nat} (h : topScored candidates scores topK = .ok hits) :
    OwnResults r position topK hits := by
  have hrel := forall₂_of_mapM h
  have hlen : hits.length = (scoredIndices scores topK).length := by
    rw [← hrel.length_eq, List.length_zipIdx]
  have hown : OwnResults r position hits.length hits := by
    have hn : ((scoredIndices scores topK).map Prod.snd).Nodup := nodup_indices
    refine picked_own hc hn fun k hit hk => ?_
    obtain ⟨⟨s, rank⟩, hs, hhit⟩ := getElem?_of_forall₂ hrel.flip hk
    rw [List.getElem?_zipIdx, Option.map_eq_some_iff] at hs
    obtain ⟨s', hs', heq⟩ := hs
    obtain ⟨rfl, rfl⟩ := Prod.mk.inj heq
    rw [rerankedHit] at hhit
    split at hhit
    · rename_i original horiginal
      cases hhit
      refine ⟨s'.2, original, ?_, horiginal, rfl, Nat.add_comm 1 k⟩
      rw [List.getElem?_map, hs', Option.map_some]
    · cases hhit
  refine hown.mono ?_
  rw [hlen, length_scoredIndices]
  exact Nat.min_le_left _ _

theorem topScored_of_rerankLocal
    {predict : String → List (String × String) → Except String (List Rat)} {query model : String}
    {topK : Nat} (hne : ¬candidates = [])
    (h : rerankLocal predict query candidates model topK = .ok hits) :
    ∃ scores, topScored candidates scores topK = .ok hits := by
  rw [rerankLocal, if_neg hne] at h
  split at h
  · cases h
  · split at h
    · cases h
    · exact ⟨_, h⟩

theorem topScored_of_rerankSie
    {client : String → String → List String → Except SieFailure SieAnswer} {query model : String}
    {topK : Nat} (h : rerankSie client query candidates model topK = .ok hits) :
    ∃ scores, topScored candidates scores topK = .ok hits := by
  rw [rerankSie] at h
  split at h
  · cases h
  · exact ⟨_, h⟩

/-- Voyage answers with distinct positions from the front, at most as many as asked for. -/
def PicksDistinct
    (voyage : String → List String → String → Int → Except String (List (Int × Rat))) : Prop :=
  ∀ query documents model topK hits, voyage query documents model topK = .ok hits →
    (hits.map (·.1)).Nodup ∧ (∀ hit ∈ hits, 0 ≤ hit.1) ∧ hits.length ≤ topK.toNat

theorem rerankVoyage_own (hc : OwnResults r position limit candidates)
    {voyage : String → List String → String → Int → Except String (List (Int × Rat))}
    (hvoyage : PicksDistinct voyage) {query model : String} {topK : Int}
    (h : rerankVoyage voyage query candidates model topK = .ok hits) :
    OwnResults r position topK.toNat hits := by
  obtain ⟨results, hanswer, h⟩ := bind_eq_ok.mp h
  obtain ⟨hdistinct, hfront, hcount⟩ := hvoyage _ _ _ _ _ (mapError_eq_ok.mp hanswer)
  have hrel := forall₂_of_mapM h
  have hlen : hits.length = results.length := by rw [← hrel.length_eq, List.length_zipIdx]
  have hindices : (results.map fun hit => hit.1.toNat).Nodup := by
    refine List.pairwise_map.mpr ((List.pairwise_map.mp hdistinct).imp_of_mem ?_)
    intro a b ha hb hne heq
    have hfa := hfront a ha
    have hfb := hfront b hb
    omega
  have hown : OwnResults r position hits.length hits := by
    refine picked_own hc hindices fun k hit hk => ?_
    obtain ⟨⟨a, rank⟩, ha, hhit⟩ := getElem?_of_forall₂ hrel.flip hk
    rw [List.getElem?_zipIdx, Option.map_eq_some_iff] at ha
    obtain ⟨a', ha', heq⟩ := ha
    obtain ⟨rfl, rfl⟩ := Prod.mk.inj heq
    rw [voyageHit, pyGet?] at hhit
    dsimp only at hhit
    rw [if_pos (hfront a' (List.mem_of_getElem? ha'))] at hhit
    split at hhit
    · rename_i original horiginal
      cases hhit
      refine ⟨a'.1.toNat, original, ?_, horiginal, rfl, Nat.add_comm 1 k⟩
      rw [List.getElem?_map, ha', Option.map_some]
    · cases hhit
  exact hown.mono (hlen ▸ hcount)

/-- At most `top_k_final`, or all candidates if that is negative. -/
theorem keptOf_le (topK : Int) (n : Nat) :
    keptOf topK n ≤ if 0 ≤ topK then topK.toNat else n := by
  unfold keptOf
  split
  · exact Nat.le_refl _
  · omega

theorem rerankResults_own (hc : OwnResults r position limit candidates) {rerankers : Rerankers}
    (hvoyage : PicksDistinct rerankers.voyage) {query model : String} {topK : Int}
    {provider : Provider}
    (h : rerankResults rerankers query candidates model topK provider = .ok hits) :
    OwnResults r position (if 0 ≤ topK then topK.toNat else limit) hits := by
  have hkept : keptOf topK candidates.length ≤ if 0 ≤ topK then topK.toNat else limit := by
    refine (keptOf_le topK candidates.length).trans ?_
    split
    · exact Nat.le_refl _
    · exact hc.length
  have htop : topK.toNat ≤ if 0 ≤ topK then topK.toNat else limit := by
    split
    · exact Nat.le_refl _
    · omega
  rw [rerankResults] at h
  split at h
  · cases h
    exact ownResults_nil _ _ _
  · rename_i hne
    cases provider with
    | localProvider =>
        obtain ⟨scores, hscores⟩ := topScored_of_rerankLocal hne h
        exact (topScored_own hc hscores).mono hkept
    | sie =>
        obtain ⟨scores, hscores⟩ := topScored_of_rerankSie h
        exact (topScored_own hc hscores).mono hkept
    | voyage => exact (rerankVoyage_own hc hvoyage h).mono htop
    | kimchi => exact (rerankVoyage_own hc hvoyage h).mono htop
    | doubleword => exact (rerankVoyage_own hc hvoyage h).mono htop

end Rerank

/-! ## The recorded results -/

/-- The searches of one of the four stores, whose engine answers from the fleet's history, and
    the `index` that its hits show. -/
inductive StoreSearcher {φ ω : Type} (fleet : Fleet φ ω) : (Nat → Int) → Searcher φ → Prop
  | elasticsearch {engine : Engine φ String (Elasticsearch.ChunkSource φ)}
      (answers : AnswersFrom Elasticsearch.layout fleet engine) :
      StoreSearcher fleet (fun i => i) (Elasticsearch.searcher engine)
  | redis {globMatches : String → String → Bool} {pack : φ → Option (List UInt8)}
      {engine : Engine φ String (List (String × Redis.HashValue))}
      (globs : Redis.ReadsGlobs globMatches)
      (answers : AnswersFrom (Redis.layout globMatches pack) fleet engine) :
      StoreSearcher fleet (fun _ => 0) (Redis.searcher globMatches pack engine)
  | mongo {objectId : ChunkDoc φ → String} {engine : Engine φ String (ChunkDoc φ)}
      (fresh : Mongo.FreshIds objectId fleet)
      (answers : AnswersFrom (Mongo.layout objectId) fleet engine) :
      StoreSearcher fleet (fun i => i) (Mongo.searcher objectId engine)
  | postgres {engine : Engine φ String (Postgres.ChunkRow φ)}
      {hybridEngine : String → EngineRequest φ → Except String (Postgres.HybridSnapshot φ)}
      (answers : AnswersFrom Postgres.layout fleet engine)
      (snapshots : ∀ queryText request s, hybridEngine queryText request = .ok s →
        Postgres.ReadsSnapshot fleet request.scope s) :
      StoreSearcher fleet (fun i => i) (Postgres.searcher engine hybridEngine)

section Recorded

variable {φ ω : Type} {fleet : Fleet φ ω} {position : Nat → Int}

theorem StoreSearcher.own {s : Searcher φ} (h : StoreSearcher fleet position s) (w : ω) :
    OwnSearcher (fleet.run w) position s := by
  cases h with
  | elasticsearch answers => exact Elasticsearch.searcher_own answers w
  | redis globs answers => exact Redis.searcher_own globs answers w
  | mongo fresh answers => exact Mongo.searcher_own fresh answers w
  | postgres answers snapshots => exact Postgres.searcher_own answers snapshots w

variable {tools : QueryTools φ} {r : ChunkedRun φ}

theorem searchTraditionalRetriever_own (hs : OwnSearcher r position tools.searcher)
    {method : RetrievalMethod} {queryText : String} {topK : Int} {results : List SearchResult}
    (h : searchTraditionalRetriever tools r.scope method queryText topK = .ok results) :
    OwnResults r position topK.toNat results := by
  obtain ⟨queryEmbedding, -, h⟩ := bind_eq_ok.mp h
  unfold Searcher.search at h
  split at h
  · cases h
  · exact hs.dense _ _ _ h
  · exact hs.sparse _ _ _ h
  · cases h
  · exact hs.hybrid _ _ _ _ h

/-- The most results that a run records for a query. -/
def resultLimit (params : RunParams) : Nat :=
  if 0 ≤ params.topKFinal then params.topKFinal.toNat else params.topKInitial.toNat

theorem sliceTo_own {topKInitial topKFinal : Int} {results : List SearchResult}
    (h : OwnResults r position topKInitial.toNat results) :
    OwnResults r position (if 0 ≤ topKFinal then topKFinal.toNat else topKInitial.toNat)
      (sliceTo results topKFinal) := by
  refine (h.take _).mono ?_
  have hkept := keptOf_le topKFinal results.length
  split at hkept
  · rename_i hfinal
    rw [if_pos hfinal]
    exact (Nat.min_le_left _ _).trans hkept
  · rename_i hfinal
    rw [if_neg hfinal]
    exact Nat.min_le_right _ _

/-- **Run isolation.** In every history of the shared store, what a run records for a query are
    distinct chunks of its own, ranked from one, and no more than its settings allow. -/
theorem queryResults_own {w : ω} (hstore : StoreSearcher fleet position tools.searcher)
    (hvoyage : PicksDistinct tools.rerankers.voyage) {queryText : String}
    {results : List SearchResult}
    (h : queryResults tools (fleet.run w).params (fleet.run w).scope queryText = .ok results) :
    OwnResults (fleet.run w) position (resultLimit (fleet.run w).params) results := by
  have hs := hstore.own w
  obtain ⟨retriever, -, h⟩ := bind_eq_ok.mp h
  have htraditional : ∀ method, (do
      return sliceTo (← searchTraditionalRetriever tools (fleet.run w).scope method queryText
        (fleet.run w).params.topKInitial) (fleet.run w).params.topKFinal) = .ok results →
      OwnResults (fleet.run w) position (resultLimit (fleet.run w).params) results := by
    intro method h
    obtain ⟨found, hfound, h⟩ := bind_eq_ok.mp h
    cases h
    exact sliceTo_own (searchTraditionalRetriever_own hs hfound)
  have hrerank : searchRerankerRetriever tools (fleet.run w).params (fleet.run w).scope retriever
      queryText = .ok results →
      OwnResults (fleet.run w) position (resultLimit (fleet.run w).params) results := by
    intro h
    rw [searchRerankerRetriever] at h
    split at h
    · split at h
      · cases h
      · obtain ⟨candidates, hcandidates, h⟩ := bind_eq_ok.mp h
        split at h
        · cases h
          exact ownResults_nil _ _ _
        · exact rerankResults_own (searchTraditionalRetriever_own hs hcandidates) hvoyage
            (mapError_eq_ok.mp h)
    · cases h
  split at h
  · exact htraditional _ h
  · exact htraditional _ h
  · exact htraditional _ h
  · exact hrerank h
  · exact hrerank h

end Recorded

/-- The chunk of the first run, as an engine finds it. -/
def firstRunHit : EngineHit String (ChunkDoc Nat) :=
  ⟨"a_0", (twoRuns.run true).chunkDoc 0 "pell grant" [1], 1 / 2⟩

/-- An engine that finds it, once it is stored. -/
def firstRunEngine : Engine Nat String (ChunkDoc Nat) := fun request =>
  if request.scope = (twoRuns.run true).scope ∧ 0 < request.limit then .ok [firstRunHit]
  else .ok []

theorem answersFrom_firstRunEngine :
    AnswersFrom (Mongo.layout chunkIdAsObjectId) twoRuns firstRunEngine := by
  have hL := Mongo.lawful (freshIds_chunkId twoRuns)
  intro request hits h
  rw [firstRunEngine] at h
  split at h
  · rename_i hasked
    cases h
    refine ⟨⟨List.nodup_singleton _, ?_⟩, ?_⟩
    · intro hit hhit
      obtain rfl := List.mem_singleton.mp hhit
      rw [hasked.1]
      have hseen : ∃ s, Seen (Mongo.layout chunkIdAsObjectId) twoRuns s ∧
          s firstRunHit.key = some firstRunHit.row := by
        obtain ⟨s, hs⟩ : ∃ s, history (Mongo.layout chunkIdAsObjectId) twoRuns (fun _ => none)
            [.stored true 0] = some s := ⟨_, rfl⟩
        refine ⟨s, ⟨_, hs⟩, ?_⟩
        cases hs
        exact write_eq_some_iff.mpr (Or.inl rfl)
      refine ⟨hseen, ?_⟩
      exact ⟨hL.sameId_refl _, hL.sameId_refl _, hL.sameId_refl _⟩
    · rw [List.length_singleton]
      omega
  · cases h
    exact ⟨⟨List.nodup_nil, fun _ h => (List.not_mem_nil h).elim⟩, Nat.zero_le _⟩

/-- Queries of the first run on MongoDB, with dense retrieval. -/
def firstRunTools : QueryTools Nat where
  searcher := Mongo.searcher chunkIdAsObjectId firstRunEngine
  embedQuery _ := .ok [1]
  rerankers := ⟨fun _ _ => .error "", fun _ _ _ => .error .stopped, fun _ _ _ _ => .ok []⟩

theorem firstRun_finds_its_chunk : ∃ result,
    queryResults firstRunTools (twoRuns.run true).params (twoRuns.run true).scope "pell" =
      .ok [result] ∧
    OwnResults (twoRuns.run true) (fun i => i) (resultLimit (twoRuns.run true).params)
      [result] := by
  have hfound : firstRunEngine ⟨.knn "embedding" [1] 40, (twoRuns.run true).scope, 20, 1⟩ =
      .ok [firstRunHit] := if_pos ⟨rfl, by decide⟩
  obtain ⟨result, hdense⟩ : ∃ result, Mongo.denseSearch chunkIdAsObjectId firstRunEngine [1]
      (twoRuns.run true).scope 20 = .ok [result] := by
    refine ⟨_, bind_eq_ok.mpr ⟨[firstRunHit], ?_, rfl⟩⟩
    exact mapError_eq_ok.mpr hfound
  have hresult : queryResults firstRunTools (twoRuns.run true).params
      (twoRuns.run true).scope "pell" = .ok [result] := by
    have hsearch : searchTraditionalRetriever firstRunTools (twoRuns.run true).scope .dense "pell"
        20 = .ok [result] := hdense
    refine bind_eq_ok.mpr ⟨.dense, rfl, ?_⟩
    exact bind_eq_ok.mpr ⟨[result], hsearch, rfl⟩
  refine ⟨result, hresult, queryResults_own ?_ ?_ hresult⟩
  · exact .mongo (freshIds_chunkId twoRuns) answersFrom_firstRunEngine
  · rintro query documents model topK hits h
    cases h
    exact ⟨List.nodup_nil, nofun, Nat.zero_le _⟩

end RagParamsFinder
