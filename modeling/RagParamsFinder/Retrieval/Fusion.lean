/-
  Client-side Reciprocal Rank Fusion (`server/core/retrieval/fusion.py`), with the result
  records of `server/models/results.py`.

  Scores are exact rationals. The two dictionaries that `rrf_fuse` fills keep their keys in
  insertion order, and `sorted(..., reverse=True)` is stable; a missing key, which would be
  `KeyError`, is `none`.

  Proved: `accumulate_spec`: what one pass adds to the dictionaries. `rrfFuse_spec`: the
  result holds each returned chunk once, with the sum of its reciprocal ranks, best first
  and ties in first-seen order, and nothing better is cut off.
-/
import Mathlib.Algebra.Order.Field.Rat
import Mathlib.Data.Finset.Card
import RagParamsFinder.Lib.Ranking
import RagParamsFinder.Lib.Tables

namespace RagParamsFinder

open Grouping Ranking Tables

/-! ## Records -/

structure Chunk where
  id : String
  text : String
  index : Int
  embeddingModel : String
  chunkMethod : String
  deriving DecidableEq, Repr

structure SearchResult where
  chunk : Chunk
  denseScore : Rat
  rerankScore : Option Rat
  retrievalMethod : String
  rank : Nat
  deriving DecidableEq, Repr

def SearchResult.cid (r : SearchResult) : String := r.chunk.id

/-! ## Fusion -/

/-- `RRF_K`. -/
def rrfK : Nat := 60

/-- `CANDIDATES_MULTIPLIER`. -/
def candidatesMultiplier : Nat := 2

/-- The dictionaries `rrf_scores` and `chunk_by_id`. -/
structure Fused where
  scores : Table Rat
  chunkById : Table SearchResult

def Fused.empty : Fused := ⟨[], []⟩

/-- `rrf_scores.get(cid, 0.0)`. -/
def Fused.score (f : Fused) (cid : String) : Rat := (f.scores.find cid).getD 0

/-- One round of `_accumulate`. -/
def Fused.add (k rank : Nat) (f : Fused) (r : SearchResult) : Fused where
  scores := f.scores.put r.cid (f.score r.cid + 1 / ((rank + k : Nat) : Rat))
  chunkById := f.chunkById.put r.cid r

/-- `_accumulate`, from a rank on. -/
def accumulate (k : Nat) : Nat → Fused → List SearchResult → Fused
  | _, f, [] => f
  | rank, f, r :: results => accumulate k (rank + 1) (f.add k rank r) results

/-- `_fused_hit`. -/
def fusedHit (base : SearchResult) (score : Rat) (rank : Nat) : SearchResult where
  chunk := base.chunk
  denseScore := score
  rerankScore := none
  retrievalMethod := "hybrid"
  rank := rank

/-- The hit of an id at a rank. -/
def Fused.hitAt (f : Fused) (cr : String × Nat) : Option SearchResult :=
  (f.chunkById.find cr.1).map fun base => fusedHit base (f.score cr.1) cr.2

/-- `rrf_fuse`. -/
def rrfFuse (denseResults sparseResults : List SearchResult) (topK k : Nat) :
    Option (List SearchResult) :=
  let f := accumulate k 1 (accumulate k 1 Fused.empty denseResults) sparseResults
  let rankedIds := best (fun cid => -f.score cid) topK f.scores.keys
  (rankedIds.zipIdx 1).mapM f.hitAt

/-! ## Reciprocal ranks -/

def cids (results : List SearchResult) : List String := results.map (·.cid)

/-- What a list of ids, ranked from `first` on, adds to the score of an id. -/
def reciprocalFrom (k first : Nat) (ids : List String) (cid : String) : Rat :=
  if cid ∈ ids then 1 / ((first + ids.idxOf cid + k : Nat) : Rat) else 0

/-- `1 / (rank + k)` for an id in the list. -/
def reciprocalRank (k : Nat) (ids : List String) (cid : String) : Rat := reciprocalFrom k 1 ids cid

/-- The sum over the lists that hold the id. -/
def rrfScore (k : Nat) (dense sparse : List String) (cid : String) : Rat :=
  reciprocalRank k dense cid + reciprocalRank k sparse cid

/-- The ids in the order they are first seen. -/
def firstSeen (dense sparse : List String) : List String :=
  dense ++ sparse.filter (· ∉ dense)

theorem mem_firstSeen {dense sparse : List String} {cid : String} :
    cid ∈ firstSeen dense sparse ↔ cid ∈ dense ∨ cid ∈ sparse := by
  simp only [firstSeen, List.mem_append, List.mem_filter, decide_eq_true_iff]
  by_cases h : cid ∈ dense <;> simp [h]

theorem nodup_firstSeen {dense sparse : List String} (hd : dense.Nodup) (hs : sparse.Nodup) :
    (firstSeen dense sparse).Nodup := by
  refine List.nodup_append.mpr ⟨hd, hs.filter _, ?_⟩
  rintro a ha b hb rfl
  exact of_decide_eq_true (List.mem_filter.mp hb).2 ha

theorem firstSeen_cons {seen ids : List String} {cid : String} (hfresh : cid ∉ ids) :
    firstSeen (if cid ∈ seen then seen else seen ++ [cid]) ids = firstSeen seen (cid :: ids) := by
  unfold firstSeen
  split
  · rename_i hc
    rw [List.filter_cons_of_neg (by simpa using hc)]
  · rename_i hc
    rw [List.filter_cons_of_pos (by simpa using hc), List.append_assoc, List.singleton_append]
    congr 2
    refine List.filter_congr fun x hx => ?_
    have hne : x ≠ cid := fun he => hfresh (he ▸ hx)
    simp [hne]

theorem firstSeen_perm_swap {dense sparse : List String} (hd : dense.Nodup)
    (hs : sparse.Nodup) : (firstSeen dense sparse).Perm (firstSeen sparse dense) := by
  rw [List.perm_ext_iff_of_nodup (nodup_firstSeen hd hs) (nodup_firstSeen hs hd)]
  intro cid
  rw [mem_firstSeen, mem_firstSeen, or_comm]

theorem rrfScore_swap (k : Nat) (dense sparse : List String) :
    rrfScore k dense sparse = rrfScore k sparse dense :=
  funext fun _ => add_comm _ _

theorem reciprocalFrom_cons_self (k first : Nat) (ids : List String) (cid : String) :
    reciprocalFrom k first (cid :: ids) cid = 1 / ((first + k : Nat) : Rat) := by
  simp [reciprocalFrom]

theorem reciprocalFrom_cons_of_ne (k first : Nat) (ids : List String) {cid cid' : String}
    (h : cid' ≠ cid) :
    reciprocalFrom k first (cid' :: ids) cid = reciprocalFrom k (first + 1) ids cid := by
  unfold reciprocalFrom
  rw [List.idxOf_cons_ne _ h]
  simp only [List.mem_cons, Ne.symm h, false_or]
  split
  · congr 2
    omega
  · rfl

theorem reciprocalFrom_of_not_mem {k first : Nat} {ids : List String} {cid : String}
    (h : cid ∉ ids) : reciprocalFrom k first ids cid = 0 := if_neg h

/-! ## The two passes -/

/-- Both dictionaries have the same keys, and each result is under the id of its chunk. -/
structure Fused.Aligned (f : Fused) : Prop where
  keys : f.chunkById.keys = f.scores.keys
  cid : ∀ c r, f.chunkById.find c = some r → r.cid = c

theorem Fused.aligned_empty : Fused.empty.Aligned where
  keys := rfl
  cid c r h := by cases h

theorem Fused.Aligned.add {f : Fused} (h : f.Aligned) (k rank : Nat) (r : SearchResult) :
    (f.add k rank r).Aligned where
  keys := by
    unfold Fused.add
    rw [Table.keys_put, Table.keys_put, h.keys]
  cid c s hs := by
    unfold Fused.add at hs
    rw [Table.find_put] at hs
    split at hs
    · rename_i hc
      rw [← Option.some.inj hs, hc]
    · exact h.cid c s hs

theorem Fused.score_add (k rank : Nat) (f : Fused) (r : SearchResult) (cid : String) :
    (f.add k rank r).score cid =
      if cid = r.cid then f.score cid + 1 / ((rank + k : Nat) : Rat) else f.score cid := by
  unfold Fused.add Fused.score
  rw [Table.find_put]
  split
  · rename_i h
    rw [h, Option.getD_some]
  · rfl

theorem Fused.keys_add (k rank : Nat) (f : Fused) (r : SearchResult) :
    (f.add k rank r).scores.keys =
      if r.cid ∈ f.scores.keys then f.scores.keys else f.scores.keys ++ [r.cid] :=
  Table.keys_put _ _ _

/-- What one pass does: the new ids are appended in order, and each id of the list gains its
    reciprocal rank. -/
theorem accumulate_spec (k : Nat) {results : List SearchResult} (hn : (cids results).Nodup)
    (rank : Nat) {f : Fused} (hf : f.Aligned) :
    (accumulate k rank f results).Aligned ∧
      (accumulate k rank f results).scores.keys = firstSeen f.scores.keys (cids results) ∧
      ∀ cid, (accumulate k rank f results).score cid =
        f.score cid + reciprocalFrom k rank (cids results) cid := by
  induction results generalizing rank f with
  | nil => exact ⟨hf, by simp [accumulate, firstSeen, cids], fun cid => (add_zero _).symm⟩
  | cons r results ih =>
      obtain ⟨hfresh, hn⟩ : r.cid ∉ cids results ∧ (cids results).Nodup := List.nodup_cons.mp hn
      obtain ⟨hal, hkeys, hscore⟩ := ih hn (rank + 1) (hf.add k rank r)
      refine ⟨hal, hkeys.trans ?_, fun cid => (hscore cid).trans ?_⟩
      · rw [Fused.keys_add]
        exact firstSeen_cons hfresh
      · rw [Fused.score_add]
        by_cases h : cid = r.cid
        · subst h
          rw [if_pos rfl, reciprocalFrom_of_not_mem hfresh, add_zero]
          exact congrArg _ (reciprocalFrom_cons_self k rank (cids results) r.cid).symm
        · rw [if_neg h]
          exact congrArg _ (reciprocalFrom_cons_of_ne k rank (cids results) (Ne.symm h)).symm

/-- Each result kept under an id is one of the list, or was there before. -/
theorem find_accumulate (k : Nat) (results : List SearchResult) (rank : Nat) (f : Fused)
    {c : String} {r : SearchResult} (h : (accumulate k rank f results).chunkById.find c = some r) :
    r ∈ results ∨ f.chunkById.find c = some r := by
  induction results generalizing rank f with
  | nil => exact Or.inr h
  | cons s results ih =>
      rcases ih (rank + 1) (f.add k rank s) h with hr | hr
      · exact Or.inl (List.mem_cons_of_mem _ hr)
      · unfold Fused.add at hr
        rw [Table.find_put] at hr
        split at hr
        · exact Or.inl (Option.some.inj hr ▸ List.mem_cons_self ..)
        · exact Or.inr hr

/-- The dictionaries after both passes. -/
def fusedOf (k : Nat) (dense sparse : List SearchResult) : Fused :=
  accumulate k 1 (accumulate k 1 Fused.empty dense) sparse

section Passes

variable (k : Nat) {dense sparse : List SearchResult} (hd : (cids dense).Nodup)
  (hs : (cids sparse).Nodup)

include hd hs

theorem aligned_fusedOf : (fusedOf k dense sparse).Aligned :=
  (accumulate_spec k hs 1 (accumulate_spec k hd 1 Fused.aligned_empty).1).1

theorem keys_fusedOf :
    (fusedOf k dense sparse).scores.keys = firstSeen (cids dense) (cids sparse) := by
  obtain ⟨hal, hkeys, -⟩ := accumulate_spec k hd 1 Fused.aligned_empty
  rw [fusedOf, (accumulate_spec k hs 1 hal).2.1, hkeys]
  simp [Fused.empty, Table.keys, firstSeen]

theorem score_fusedOf :
    (fusedOf k dense sparse).score = rrfScore k (cids dense) (cids sparse) := by
  obtain ⟨hal, -, hscore⟩ := accumulate_spec k hd 1 Fused.aligned_empty
  funext cid
  rw [fusedOf, (accumulate_spec k hs 1 hal).2.2, hscore]
  simp [Fused.empty, Fused.score, Table.find, rrfScore, reciprocalRank]

end Passes

theorem find_fusedOf {k : Nat} {dense sparse : List SearchResult} {c : String}
    {r : SearchResult} (h : (fusedOf k dense sparse).chunkById.find c = some r) :
    r ∈ dense ++ sparse := by
  rw [List.mem_append]
  rcases find_accumulate k sparse 1 _ h with hr | hr
  · exact Or.inr hr
  · rcases find_accumulate k dense 1 _ hr with hr | hr
    · exact Or.inl hr
    · cases hr

/-! ## The result -/

/-- The hits of the ids kept, ranked from a first rank on. -/
structure HitsOf (f : Fused) (kept : List String) (first : Nat) (out : List SearchResult) :
    Prop where
  ids : cids out = kept
  scores : out.map (·.denseScore) = kept.map f.score
  ranks : out.map (·.rank) = List.range' first kept.length
  hits : ∀ r ∈ out, r.retrievalMethod = "hybrid" ∧ r.rerankScore = none ∧
    ∃ base, f.chunkById.find r.cid = some base ∧ r.chunk = base.chunk

/-- No lookup fails, since every id kept is a key. -/
theorem mapM_hitAt {f : Fused} (hf : f.Aligned) {ids : List String}
    (h : ∀ cid ∈ ids, cid ∈ f.scores.keys) (first : Nat) :
    ∃ out, (ids.zipIdx first).mapM f.hitAt = some out ∧ HitsOf f ids first out := by
  induction ids generalizing first with
  | nil => exact ⟨[], rfl, rfl, rfl, rfl, fun r hr => absurd hr List.not_mem_nil⟩
  | cons cid ids ih =>
      obtain ⟨out, hout, hids, hscores, hranks, hhits⟩ :=
        ih (fun c hc => h c (List.mem_cons_of_mem _ hc)) (first + 1)
      have hkey : cid ∈ f.chunkById.keys := hf.keys ▸ h cid (List.mem_cons_self ..)
      obtain ⟨base, hbase⟩ := Option.ne_none_iff_exists'.mp
        fun hn => Table.find_eq_none_iff.mp hn hkey
      have hcid : (fusedHit base (f.score cid) first).cid = cid := hf.cid cid base hbase
      have hhit : f.hitAt (cid, first) = some (fusedHit base (f.score cid) first) := by
        rw [Fused.hitAt, hbase, Option.map_some]
      refine ⟨fusedHit base (f.score cid) first :: out, ?_, ?_, ?_, ?_, ?_⟩
      · rw [List.zipIdx_cons, List.mapM_cons, hhit, hout]
        rfl
      · exact congrArg₂ List.cons hcid hids
      · exact congrArg (f.score cid :: ·) hscores
      · rw [List.map_cons, hranks, List.length_cons, List.range'_succ]
        rfl
      · intro r hr
        rcases List.mem_cons.mp hr with rfl | hr
        · exact ⟨rfl, rfl, base, hcid.symm ▸ hbase, rfl⟩
        · exact hhits r hr

/-- The ids that `rrf_fuse` returns. -/
def fusedIds (dense sparse : List String) (topK k : Nat) : List String :=
  best (fun cid => -rrfScore k dense sparse cid) topK (firstSeen dense sparse)

/-- `rrf_fuse` returns the hits of the best ids. -/
theorem rrfFuse_eq {dense sparse : List SearchResult} (hd : (cids dense).Nodup)
    (hs : (cids sparse).Nodup) (topK k : Nat) :
    ∃ out, rrfFuse dense sparse topK k = some out ∧
      HitsOf (fusedOf k dense sparse) (fusedIds (cids dense) (cids sparse) topK k) 1 out := by
  have hids : best (fun cid => -(fusedOf k dense sparse).score cid) topK
      (fusedOf k dense sparse).scores.keys = fusedIds (cids dense) (cids sparse) topK k := by
    rw [keys_fusedOf k hd hs, score_fusedOf k hd hs]
    rfl
  have hkeys : ∀ cid ∈ fusedIds (cids dense) (cids sparse) topK k,
      cid ∈ (fusedOf k dense sparse).scores.keys := by
    intro cid hcid
    rw [keys_fusedOf k hd hs]
    exact mem_of_mem_best _ hcid
  obtain ⟨out, hout, hhits⟩ := mapM_hitAt (aligned_fusedOf k hd hs) hkeys 1
  refine ⟨out, ?_, hhits⟩
  rw [← hids] at hout
  exact hout

/-- Reciprocal rank fusion of two rankings: the best `topK` ids of their union under the sum
    of the reciprocal ranks, ties in first-seen order. -/
structure ReciprocalRankFusion (dense sparse : List String) (topK k : Nat)
    (out : List SearchResult) : Prop where
  nodup : (cids out).Nodup
  mem : ∀ cid ∈ cids out, cid ∈ dense ∨ cid ∈ sparse
  length : out.length = min topK (dense.toFinset ∪ sparse.toFinset).card
  score : ∀ r ∈ out, r.denseScore = rrfScore k dense sparse r.cid
  sorted : out.Pairwise fun a b => b.denseScore < a.denseScore ∨
    (a.denseScore = b.denseScore ∧
      (firstSeen dense sparse).idxOf a.cid < (firstSeen dense sparse).idxOf b.cid)
  ranks : out.map (·.rank) = List.range' 1 out.length
  omitted : ∀ cid, cid ∈ dense ∨ cid ∈ sparse → cid ∉ cids out →
    ∀ r ∈ out, rrfScore k dense sparse cid ≤ r.denseScore

theorem card_union_eq {dense sparse : List String} (hd : dense.Nodup) (hs : sparse.Nodup) :
    (dense.toFinset ∪ sparse.toFinset).card = (firstSeen dense sparse).length := by
  rw [← List.toFinset_card_of_nodup (nodup_firstSeen hd hs)]
  congr 1
  ext cid
  simp [mem_firstSeen]

theorem pairwise_idxOf_lt {xs : List String} (h : xs.Nodup) :
    xs.Pairwise fun a b => xs.idxOf a < xs.idxOf b := by
  rw [List.pairwise_iff_getElem]
  intro i j hi hj hij
  rwa [h.idxOf_getElem, h.idxOf_getElem]

theorem HitsOf.score_eq {f : Fused} {kept : List String} {first : Nat} {out : List SearchResult}
    (h : HitsOf f kept first out) : ∀ r ∈ out, r.denseScore = f.score r.cid := by
  have hall : out.map (·.denseScore) = out.map fun r => f.score r.cid := by
    rw [h.scores, ← h.ids]
    exact List.map_map
  exact List.map_inj_left.mp hall

/-- The hits of the best ids are the fusion of the two rankings. -/
theorem HitsOf.fusion {dense sparse : List SearchResult} (hd : (cids dense).Nodup)
    (hs : (cids sparse).Nodup) {topK k : Nat} {out : List SearchResult}
    (h : HitsOf (fusedOf k dense sparse) (fusedIds (cids dense) (cids sparse) topK k) 1 out) :
    ReciprocalRankFusion (cids dense) (cids sparse) topK k out := by
  have hscore : ∀ r ∈ out, r.denseScore = rrfScore k (cids dense) (cids sparse) r.cid := by
    rw [← score_fusedOf k hd hs]
    exact h.score_eq
  have hfirst := nodup_firstSeen hd hs
  have hlength : out.length = (fusedIds (cids dense) (cids sparse) topK k).length := by
    rw [← h.ids, cids, List.length_map]
  constructor
  case nodup =>
    rw [h.ids]
    exact nodup_best _ hfirst topK
  case mem =>
    intro cid hcid
    rw [h.ids] at hcid
    exact mem_firstSeen.mp (mem_of_mem_best _ hcid)
  case length => rw [hlength, fusedIds, length_best, card_union_eq hd hs]
  case score => exact hscore
  case sorted =>
    have hbest := pairwise_best_stable
      (fun cid => -rrfScore k (cids dense) (cids sparse) cid) (pairwise_idxOf_lt hfirst) topK
    change (fusedIds (cids dense) (cids sparse) topK k).Pairwise _ at hbest
    rw [← h.ids] at hbest
    refine (List.pairwise_map.mp hbest).imp_of_mem fun {a b} ha hb hab => ?_
    rw [hscore a ha, hscore b hb]
    exact hab.imp neg_lt_neg_iff.mp (And.imp_left neg_inj.mp)
  case ranks => rw [h.ranks, hlength]
  case omitted =>
    intro cid hcid hcut r hr
    have hkept : r.cid ∈ fusedIds (cids dense) (cids sparse) topK k :=
      h.ids ▸ List.mem_map_of_mem hr
    rw [h.ids] at hcut
    rw [hscore r hr]
    have hle := rank_le_of_not_mem_best (fun cid => -rrfScore k (cids dense) (cids sparse) cid)
      hkept (mem_firstSeen.mpr hcid) hcut
    exact neg_le_neg_iff.mp hle

/-- The scores returned do not depend on which list comes first. -/
theorem map_rrfScore_swap (k topK : Nat) {dense sparse : List String} (hd : dense.Nodup)
    (hs : sparse.Nodup) :
    (fusedIds dense sparse topK k).map (rrfScore k dense sparse) =
      (fusedIds sparse dense topK k).map (rrfScore k sparse dense) := by
  have hneg := map_rank_best_perm (fun cid => -rrfScore k dense sparse cid)
    (firstSeen_perm_swap hd hs) topK
  have hback := congrArg (List.map fun q : Rat => -q) hneg
  rw [List.map_map, List.map_map] at hback
  simpa only [fusedIds, Function.comp_def, neg_neg, rrfScore_swap k sparse dense] using hback

/-- `rrf_fuse` computes the fusion of the two lists, and returns the same scores for the
    lists the other way round. -/
theorem rrfFuse_spec {dense sparse : List SearchResult} (hd : (cids dense).Nodup)
    (hs : (cids sparse).Nodup) (topK k : Nat) :
    ∃ out swapped, rrfFuse dense sparse topK k = some out ∧
      rrfFuse sparse dense topK k = some swapped ∧
      ReciprocalRankFusion (cids dense) (cids sparse) topK k out ∧
      out.map (·.denseScore) = swapped.map (·.denseScore) := by
  obtain ⟨out, hout, hhits⟩ := rrfFuse_eq hd hs topK k
  obtain ⟨swapped, hswapped, hhits'⟩ := rrfFuse_eq hs hd topK k
  refine ⟨out, swapped, hout, hswapped, hhits.fusion hd hs, ?_⟩
  rw [hhits.scores, hhits'.scores, score_fusedOf k hd hs, score_fusedOf k hs hd]
  exact map_rrfScore_swap k topK hd hs

def sampleResult (cid : String) (rank : Nat) : SearchResult :=
  ⟨⟨cid, "", 0, "", ""⟩, 1, none, "dense", rank⟩

theorem rrfFuse_two_lists :
    ∃ out swapped,
      rrfFuse [sampleResult "a" 1, sampleResult "b" 2] [sampleResult "b" 1] 2 rrfK = some out ∧
      rrfFuse [sampleResult "b" 1] [sampleResult "a" 1, sampleResult "b" 2] 2 rrfK =
        some swapped ∧
      ReciprocalRankFusion ["a", "b"] ["b"] 2 rrfK out ∧
      out.map (·.denseScore) = swapped.map (·.denseScore) :=
  rrfFuse_spec (by decide) (by decide) 2 rrfK

end RagParamsFinder
