/-
  The embedding cache (`server/core/embedding/embedding_cache.py` and
  `embedding_cache_redis.py`): its keys, and the two backends.

  A key is the digest of a JSON list. Vectors are kept as packed floats of four bytes each;
  packing rounds, and raises on anything that is no number. `landed` is how many of the rows of
  a call the database takes before it fails: SQLite then raises, Redis logs it. Redis loses keys
  at any time, by their age or when it is short of memory.

  Proved: `cacheKeyPayload_inj`: different texts, models or roles have different payloads.
  `kept_of_cacheHistory`: what a backend returns was put under that key, and rounded once.
-/
import Mathlib.Data.List.Dedup
import RagParamsFinder.Lib.BatchWrites
import RagParamsFinder.Lib.Doubles
import RagParamsFinder.Lib.JsonRoundTrip
import RagParamsFinder.Lib.StepMachine
import RagParamsFinder.Lib.Traversals
import RagParamsFinder.PreEmbed.Plan

namespace RagParamsFinder

open BatchWrites StepMachine Traversals

namespace EmbeddingCache

/-! ## Keys -/

/-- `json.dumps([provider, model, dim, instruction, role, text], ensure_ascii=False)`. -/
def cacheKeyPayload (i : CacheKeyInput) : Text :=
  Json.render ⟨false, true⟩ (.arr [.str i.provider.toList, .str i.model.toList, .int i.dim,
    .str i.instruction.toList, .str i.role.toList, .str i.text])

/-- `cache_key`; `digest` is the SHA-256 of the UTF-8 bytes, in hexadecimal. -/
def cacheKey (digest : Text → String) (i : CacheKeyInput) : String := digest (cacheKeyPayload i)

theorem cacheKeyPayload_inj {i j : CacheKeyInput} (h : cacheKeyPayload i = cacheKeyPayload j) :
    i = j := by
  have hi := Json.loads_render ⟨false, true⟩ (Json.writable_of_plain _ rfl :
    Json.Writable (.arr [.str i.provider.toList, .str i.model.toList, .int i.dim,
      .str i.instruction.toList, .str i.role.toList, .str i.text]))
  have hj := Json.loads_render ⟨false, true⟩ (Json.writable_of_plain _ rfl :
    Json.Writable (.arr [.str j.provider.toList, .str j.model.toList, .int j.dim,
      .str j.instruction.toList, .str j.role.toList, .str j.text]))
  rw [← cacheKeyPayload] at hi hj
  have hv := Option.some.inj ((hi.symm.trans (congrArg Json.loads h)).trans hj)
  simp only [Json.arr.injEq, List.cons.injEq, Json.str.injEq, Json.int.injEq, Int.natCast_inj,
    String.toList_inj, and_true] at hv
  obtain ⟨hprovider, hmodel, hdim, hinstruction, hrole, htext⟩ := hv
  cases i
  cases j
  simp_all

/-- No two of the inputs have the digest of two payloads. -/
def NoCollision (digest : Text → String) (inputs : Set CacheKeyInput) : Prop :=
  ∀ i ∈ inputs, ∀ j ∈ inputs,
    digest (cacheKeyPayload i) = digest (cacheKeyPayload j) → cacheKeyPayload i = cacheKeyPayload j

theorem NoCollision.inj {digest : Text → String} {inputs : Set CacheKeyInput}
    (h : NoCollision digest inputs) {i j : CacheKeyInput} (hi : i ∈ inputs) (hj : j ∈ inputs)
    (hkey : cacheKey digest i = cacheKey digest j) : i = j :=
  cacheKeyPayload_inj (h i hi j hj hkey)

/-! ## Packed vectors -/

/-- `struct.pack("f", x)`, `none` when it raises, and `struct.unpack("f", …)`. -/
structure FloatCodec (φ : Type) where
  pack : Json → Option (List UInt8)
  unpack : List UInt8 → φ
  length_pack : ∀ x bytes, pack x = some bytes → bytes.length = 4

/-- Singles of four bytes, on a machine that keeps the least byte first. -/
def binary32 : FloatCodec Double where
  pack x := x.number.bind Number.toDouble >>= Double.pack
  unpack := Double.unpack
  length_pack x bytes h := by
    obtain ⟨y, -, hpack⟩ := Option.bind_eq_some_iff.mp h
    exact Double.length_pack hpack

/-- What `len` counts and `*` unpacks. -/
def itemsOf : Json → Option (List Json)
  | .arr items => some items
  | .str s => some (s.map fun c => .str [c])
  | .obj entries => some (entries.map fun e => .str e.1)
  | _ => none

/-- Groups of four bytes. -/
def fours : List UInt8 → List (List UInt8)
  | a :: b :: c :: d :: bytes => [a, b, c, d] :: fours bytes
  | _ => []

section Codec

variable {φ : Type} (codec : FloatCodec φ)

/-- `len(vec)` and `struct.pack(f"{dim}f", *vec)`. -/
def packVector (vec : Json) : Option (Nat × List UInt8) := do
  let items ← itemsOf vec
  let blobs ← items.mapM codec.pack
  return (items.length, blobs.flatten)

/-- `struct.unpack(f"{n}f", blob)`. -/
def unpackVector (n : Nat) (blob : List UInt8) : Option (List φ) :=
  if blob.length = 4 * n then some ((fours blob).map codec.unpack) else none

/-- A vector with every number rounded. -/
def rounded (vec : Json) : Option (List φ) := do
  let items ← itemsOf vec
  items.mapM fun x => (codec.pack x).map codec.unpack

theorem fours_append {bytes : List UInt8} (h : bytes.length = 4) (rest : List UInt8) :
    fours (bytes ++ rest) = bytes :: fours rest := by
  match bytes, h with
  | [a, b, c, d], _ => rfl

theorem fours_flatten {blobs : List (List UInt8)} (h : ∀ bytes ∈ blobs, bytes.length = 4) :
    fours blobs.flatten = blobs ∧ blobs.flatten.length = 4 * blobs.length := by
  induction blobs with
  | nil => exact ⟨rfl, rfl⟩
  | cons bytes blobs ih =>
      obtain ⟨hbytes, hblobs⟩ := List.forall_mem_cons.mp h
      obtain ⟨hfours, hlength⟩ := ih hblobs
      rw [List.flatten_cons, fours_append hbytes, hfours, List.length_append, hbytes, hlength,
        List.length_cons]
      exact ⟨rfl, by omega⟩

/-- A packed vector is unpacked, with its numbers rounded. -/
theorem unpackVector_packVector {vec : Json} {n : Nat} {blob : List UInt8}
    (h : packVector codec vec = some (n, blob)) : blob.length = 4 * n ∧
      ∃ v, rounded codec vec = some v ∧ unpackVector codec n blob = some v := by
  simp only [packVector, Option.bind_eq_bind, Option.bind_eq_some_iff, Option.pure_def] at h
  obtain ⟨items, hitems, blobs, hblobs, h⟩ := h
  obtain ⟨rfl, rfl⟩ := Prod.mk.inj (Option.some.inj h)
  have hrel := forall₂_of_mapM_some hblobs
  have hfour : ∀ bytes ∈ blobs, bytes.length = 4 := by
    intro bytes hmem
    obtain ⟨x, -, hx⟩ := exists_of_mem_forall₂ hrel hmem
    exact codec.length_pack x bytes hx
  obtain ⟨hfours, hlength⟩ := fours_flatten hfour
  have hcount : blobs.flatten.length = 4 * items.length := by rw [hlength, hrel.length_eq]
  have hround : items.mapM (fun x => (codec.pack x).map codec.unpack) =
      some (blobs.map codec.unpack) := by
    refine mapM_some_of_forall₂ (List.forall₂_map_right_iff.mpr (hrel.imp fun x bytes hx => ?_))
    rw [hx, Option.map_some]
  refine ⟨hcount, blobs.map codec.unpack, ?_, ?_⟩
  · rw [rounded, hitems]
    exact hround
  · rw [unpackVector, if_pos hcount, hfours]

end Codec

/-! ## Backends -/

/-- What differs between the backends: how a key and a vector are stored, how many keys one read
    takes, whether a failed write raises, and whether keys can get lost. -/
structure CacheBackend (ν φ : Type) where
  name : String → String
  encode : Json → Option ν
  decode : ν → Option (List φ)
  maxKeys : Option Nat
  raises : Bool
  loses : Bool

/-- The exceptions of a read: too many SQL variables, or bytes that cannot be unpacked. -/
inductive ReadError where
  | operationalError
  | structError
  deriving DecidableEq, Repr

section Backend

variable {ν φ : Type}

/-- One read takes so many keys. -/
def CacheBackend.Takes (b : CacheBackend ν φ) (count : Nat) : Prop := ∀ n ∈ b.maxKeys, count ≤ n

instance (b : CacheBackend ν φ) (count : Nat) : Decidable (b.Takes count) :=
  inferInstanceAs (Decidable (∀ n ∈ b.maxKeys, count ≤ n))

/-- The vectors of the keys that are there; `none` when one cannot be unpacked. -/
def CacheBackend.unpacked (b : CacheBackend ν φ) (table : Cells String ν) (keys : List String) :
    Option (List (String × List φ)) :=
  (keys.dedup.filterMap fun k => (table (b.name k)).map fun row => (k, row)).mapM
    fun e => (b.decode e.2).map fun vec => (e.1, vec)

/-- `get_many`. -/
def CacheBackend.getMany (b : CacheBackend ν φ) (table : Cells String ν) (keys : List String) :
    Except ReadError (List (String × List φ)) :=
  if b.Takes keys.length then
    match b.unpacked table keys with
    | some found => .ok found
    | none => .error .structError
  else .error .operationalError

/-- `put_many`, and whether it raises. Nothing is written before all vectors are packed. -/
def CacheBackend.putMany (b : CacheBackend ν φ) (table : Cells String ν)
    (entries : List (String × Json)) (landed : Nat) : Cells String ν × Bool :=
  match entries.mapM fun e => (b.encode e.2).map fun row => (b.name e.1, row) with
  | none => (table, true)
  | some rows => (writeAll table (rows.take landed), b.raises && decide (landed < rows.length))

/-- The SQLite backend: a row has the number of floats and their bytes, and a statement has at
    most `maxVariables` placeholders, one for each key. -/
def sqlite (codec : FloatCodec φ) (maxVariables : Nat) : CacheBackend (Nat × List UInt8) φ where
  name := id
  encode := packVector codec
  decode row := unpackVector codec row.1 row.2
  maxKeys := some maxVariables
  raises := true
  loses := false

/-- `RedisCacheBackend`. -/
def redis (codec : FloatCodec φ) : CacheBackend (List UInt8) φ where
  name key := "rpf:emb:" ++ key
  encode vec := (packVector codec vec).map Prod.snd
  decode blob := unpackVector codec (blob.length / 4) blob
  maxKeys := none
  raises := false
  loses := true

/-- Keys are kept apart, and a stored vector comes back rounded. -/
structure CacheBackend.Lawful (b : CacheBackend ν φ) (codec : FloatCodec φ) : Prop where
  name_inj : Function.Injective b.name
  decode_encode : ∀ {vec row}, b.encode vec = some row →
    ∃ v, rounded codec vec = some v ∧ b.decode row = some v

theorem sqlite_lawful (codec : FloatCodec φ) (maxVariables : Nat) :
    (sqlite codec maxVariables).Lawful codec where
  name_inj := Function.injective_id
  decode_encode h := (unpackVector_packVector codec h).2

theorem redis_lawful (codec : FloatCodec φ) : (redis codec).Lawful codec where
  name_inj key key' h := by
    have hlist := congrArg String.toList h
    simp only [redis, String.toList_append] at hlist
    exact String.toList_inj.mp (List.append_cancel_left hlist)
  decode_encode h := by
    obtain ⟨⟨n, blob⟩, hpack, rfl⟩ := Option.map_eq_some_iff.mp h
    obtain ⟨hlength, v, hround, hunpack⟩ := unpackVector_packVector codec hpack
    refine ⟨v, hround, ?_⟩
    show unpackVector codec (blob.length / 4) blob = some v
    rw [hlength, Nat.mul_div_cancel_left n (by decide), hunpack]

end Backend

/-! ## Histories -/

/-- A call of `put_many`, of whose rows so many land, or the loss of some keys. -/
inductive CacheEvent where
  | put (entries : List (String × Json)) (landed : Nat)
  | lost (gone : String → Bool)

section History

variable {ν φ : Type} (b : CacheBackend ν φ)

def cacheStep (table : Cells String ν) : CacheEvent → Option (Cells String ν)
  | .put entries landed => some (b.putMany table entries landed).1
  | .lost gone => if b.loses then some fun k => if gone k then none else table k else none

/-- A list of events from an empty cache. -/
def cacheHistory (events : List CacheEvent) : Option (Cells String ν) :=
  exec (cacheStep b) (fun _ => none) events

/-- Every row is a vector of the kind, under its key. -/
def Kept (kind : String → Json → Prop) (table : Cells String ν) : Prop :=
  ∀ k row, table k = some row →
    ∃ key vec, b.name key = k ∧ kind key vec ∧ b.encode vec = some row

variable {b} {kind : String → Json → Prop}

/-- What `put_many` leaves. -/
theorem putMany_cases (table : Cells String ν) (entries : List (String × Json)) (landed : Nat)
    (k : String) : (b.putMany table entries landed).1 k = table k ∨
      ∃ e ∈ entries, ∃ row, b.name e.1 = k ∧ b.encode e.2 = some row ∧
        (b.putMany table entries landed).1 k = some row := by
  unfold CacheBackend.putMany
  split
  · exact Or.inl rfl
  · rename_i rows hrows
    have hrel := forall₂_of_mapM_some hrows
    rcases writeAll_cases table (rows.take landed) k with ⟨-, hkeep⟩ | ⟨row, hmem, hlast⟩
    · exact Or.inl hkeep
    · obtain ⟨e, he, hrow⟩ := exists_of_mem_forall₂ hrel (List.mem_of_mem_take hmem)
      obtain ⟨row', hencode, heq⟩ := Option.map_eq_some_iff.mp hrow
      obtain ⟨hname, rfl⟩ := Prod.mk.inj heq
      exact Or.inr ⟨e, he, row', hname, hencode, hlast⟩

theorem kept_step {table table' : Cells String ν} {event : CacheEvent}
    (h : Kept b kind table) (hentries : ∀ entries landed, event = .put entries landed →
      ∀ e ∈ entries, kind e.1 e.2) (hstep : cacheStep b table event = some table') :
    Kept b kind table' := by
  intro k row hrow
  cases event with
  | put entries landed =>
      cases hstep
      rcases putMany_cases table entries landed k with hkeep | ⟨e, he, row', hname, hencode, hput⟩
      · exact h k row (hkeep ▸ hrow)
      · obtain rfl := Option.some.inj (hput.symm.trans hrow)
        exact ⟨e.1, e.2, hname, hentries entries landed rfl e he, hencode⟩
  | lost gone =>
      rw [cacheStep] at hstep
      split at hstep
      · cases hstep
        dsimp only at hrow
        split at hrow
        · cases hrow
        · exact h k row hrow
      · cases hstep

/-- A vector that some call has put under a key. -/
def PutIn (events : List CacheEvent) (key : String) (vec : Json) : Prop :=
  ∃ entries landed, .put entries landed ∈ events ∧ (key, vec) ∈ entries

theorem kept_of_run {events : List CacheEvent} {table table' : Cells String ν}
    (h : Kept b kind table)
    (hentries : ∀ entries landed, .put entries landed ∈ events → ∀ e ∈ entries, kind e.1 e.2)
    (hrun : exec (cacheStep b) table events = some table') : Kept b kind table' := by
  induction events generalizing table with
  | nil =>
      cases hrun
      exact h
  | cons event events ih =>
      obtain ⟨t, hstep, hrest⟩ := Option.bind_eq_some_iff.mp hrun
      have hkept : Kept b kind t := by
        refine kept_step h ?_ hstep
        rintro entries landed rfl
        exact hentries entries landed (List.mem_cons_self ..)
      exact ih hkept (fun entries landed hmem =>
        hentries entries landed (List.mem_cons_of_mem _ hmem)) hrest

/-- Whatever happened, a cache holds nothing but what was put into it, under its key. -/
theorem kept_of_cacheHistory {events : List CacheEvent} {table : Cells String ν}
    (h : cacheHistory b events = some table) : Kept b (PutIn events) table := by
  refine kept_of_run (fun k row hrow => by cases hrow) ?_ h
  intro entries landed hmem e he
  exact ⟨entries, landed, hmem, he⟩

/-! ### Reading -/

variable {codec : FloatCodec φ} {table : Cells String ν} {keys : List String}
  {found : List (String × List φ)}

theorem getMany_eq_ok : b.getMany table keys = .ok found ↔
    b.Takes keys.length ∧ b.unpacked table keys = some found := by
  unfold CacheBackend.getMany
  split
  · rename_i htakes
    cases b.unpacked table keys <;> simp [htakes]
  · rename_i htakes
    simp [htakes]

theorem getMany_spec (h : b.getMany table keys = .ok found) {k : String} {v : List φ}
    (hv : found.lookup k = some v) : k ∈ keys ∧ ∃ row, table (b.name k) = some row ∧
      b.decode row = some v := by
  obtain ⟨before, after, hfound, -⟩ := List.lookup_eq_some_iff.mp hv
  have hmem : (k, v) ∈ found := hfound ▸ List.mem_append_right before (List.mem_cons_self ..)
  have hdecoded := forall₂_of_mapM_some (getMany_eq_ok.mp h).2
  obtain ⟨e, he, hdecode⟩ := exists_of_mem_forall₂ hdecoded hmem
  obtain ⟨vec, hvec, heq⟩ := Option.map_eq_some_iff.mp hdecode
  obtain ⟨rfl, rfl⟩ := Prod.mk.inj heq
  obtain ⟨k, hk, hmap⟩ := List.mem_filterMap.mp he
  obtain ⟨row, htable, rfl⟩ := Option.map_eq_some_iff.mp hmap
  exact ⟨List.mem_dedup.mp hk, row, htable, hvec⟩

/-- A key that is there is found. -/
theorem lookup_getMany (h : b.getMany table keys = .ok found) {k : String} (hk : k ∈ keys) :
    (found.lookup k).isSome ↔ (table (b.name k)).isSome := by
  have hrel := forall₂_of_mapM_some (getMany_eq_ok.mp h).2
  constructor
  · intro hsome
    obtain ⟨v, hv⟩ := Option.isSome_iff_exists.mp hsome
    obtain ⟨-, row, hrow, -⟩ := getMany_spec h hv
    exact Option.isSome_iff_exists.mpr ⟨row, hrow⟩
  · intro hsome
    obtain ⟨row, hrow⟩ := Option.isSome_iff_exists.mp hsome
    have hmem : (k, row) ∈ keys.dedup.filterMap fun k =>
        (table (b.name k)).map fun row => (k, row) := by
      refine List.mem_filterMap.mpr ⟨k, List.mem_dedup.mpr hk, ?_⟩
      rw [hrow, Option.map_some]
    obtain ⟨p, hp, hdecode⟩ := exists_of_mem_forall₂ hrel.flip hmem
    obtain ⟨vec, -, rfl⟩ := Option.map_eq_some_iff.mp hdecode
    exact List.lookup_isSome_iff.mpr ⟨_, hp, beq_self_eq_true k⟩

/-- What is read under a key is a vector of the kind, rounded. -/
theorem Kept.read (hlaw : b.Lawful codec) (hkept : Kept b kind table)
    (h : b.getMany table keys = .ok found) {k : String} {v : List φ}
    (hv : found.lookup k = some v) : ∃ vec, kind k vec ∧ rounded codec vec = some v := by
  obtain ⟨-, row, hrow, hdecode⟩ := getMany_spec h hv
  obtain ⟨key, vec, hname, hkind, hencode⟩ := hkept _ row hrow
  obtain rfl := hlaw.name_inj hname
  obtain ⟨v', hround, hdecode'⟩ := hlaw.decode_encode hencode
  obtain rfl := Option.some.inj (hdecode.symm.trans hdecode')
  exact ⟨vec, hkind, hround⟩

/-- Reading raises only where there are too many keys. -/
theorem Kept.exists_getMany_iff (hlaw : b.Lawful codec) (hkept : Kept b kind table)
    (keys : List String) : (∃ found, b.getMany table keys = .ok found) ↔ b.Takes keys.length := by
  have hall : ∀ e ∈ keys.dedup.filterMap fun k => (table (b.name k)).map fun row => (k, row),
      ∃ f, (b.decode e.2).map (fun vec => (e.1, vec)) = some f ∧ True := by
    intro e he
    obtain ⟨k, -, hmap⟩ := List.mem_filterMap.mp he
    obtain ⟨row, htable, rfl⟩ := Option.map_eq_some_iff.mp hmap
    obtain ⟨key, vec, -, -, hencode⟩ := hkept _ row htable
    obtain ⟨v, -, hdecode⟩ := hlaw.decode_encode hencode
    exact ⟨(k, v), by rw [hdecode, Option.map_some], trivial⟩
  obtain ⟨found, hfound, -⟩ := exists_mapM_some hall
  constructor
  · rintro ⟨found', h⟩
    exact (getMany_eq_ok.mp h).1
  · exact fun htakes => ⟨found, getMany_eq_ok.mpr ⟨htakes, hfound⟩⟩

/-! ### What stays -/

theorem writeAll_isSome {s : Cells String ν} {ws : List (String × ν)} {k : String}
    (h : (s k).isSome ∨ k ∈ ws.map (·.1)) : (writeAll s ws k).isSome := by
  rcases writeAll_cases s ws k with ⟨hnone, hkeep⟩ | ⟨row, -, hlast⟩
  · rw [hkeep]
    refine h.resolve_right fun hmem => ?_
    obtain ⟨w, hw, rfl⟩ := List.mem_map.mp hmem
    exact hnone w.2 hw
  · rw [hlast]
    rfl

/-- A row stays where it was, under any call. -/
theorem putMany_isSome {entries : List (String × Json)} {landed : Nat} {k : String}
    (h : (table k).isSome) : ((b.putMany table entries landed).1 k).isSome := by
  unfold CacheBackend.putMany
  split
  · exact h
  · exact writeAll_isSome (Or.inl h)

/-- The keys of a call that lands are there. -/
theorem putMany_present {entries : List (String × Json)} {landed : Nat}
    (hencode : ∀ e ∈ entries, (b.encode e.2).isSome) (hlanded : entries.length ≤ landed)
    {k : String} (hk : k ∈ entries.map (·.1)) :
    ((b.putMany table entries landed).1 (b.name k)).isSome := by
  have hrows : ∀ e ∈ entries, ∃ row, (b.encode e.2).map (fun row => (b.name e.1, row)) =
      some row ∧ row.1 = b.name e.1 := by
    intro e he
    obtain ⟨row, hrow⟩ := Option.isSome_iff_exists.mp (hencode e he)
    exact ⟨(b.name e.1, row), by rw [hrow, Option.map_some], rfl⟩
  obtain ⟨rows, hmap, hrel⟩ := exists_mapM_some hrows
  rw [CacheBackend.putMany, hmap]
  refine writeAll_isSome (Or.inr ?_)
  rw [List.take_of_length_le (hrel.length_eq ▸ hlanded)]
  obtain ⟨e, he, rfl⟩ := List.mem_map.mp hk
  obtain ⟨row, hmem, hname⟩ := exists_of_mem_forall₂ hrel.flip he
  exact List.mem_map.mpr ⟨row, hmem, hname⟩

/-- In a backend that loses nothing, a row stays. -/
theorem isSome_of_run (hloses : b.loses = false) {events : List CacheEvent}
    {table' : Cells String ν} {k : String} (h : (table k).isSome)
    (hrun : exec (cacheStep b) table events = some table') : (table' k).isSome := by
  induction events generalizing table with
  | nil =>
      cases hrun
      exact h
  | cons event events ih =>
      obtain ⟨t, hstep, hrest⟩ := Option.bind_eq_some_iff.mp hrun
      cases event with
      | put entries landed =>
          cases hstep
          exact ih (putMany_isSome h) hrest
      | lost gone =>
          rw [cacheStep, hloses] at hstep
          cases hstep

/-- What a call that landed has put is still there. -/
theorem isSome_of_put (hloses : b.loses = false) {events : List CacheEvent}
    {table' : Cells String ν} {entries : List (String × Json)} {landed : Nat}
    (hput : .put entries landed ∈ events) (hencode : ∀ e ∈ entries, (b.encode e.2).isSome)
    (hlanded : entries.length ≤ landed) {k : String} (hk : k ∈ entries.map (·.1))
    (hrun : exec (cacheStep b) table events = some table') : (table' (b.name k)).isSome := by
  induction events generalizing table with
  | nil => cases hput
  | cons event events ih =>
      obtain ⟨t, hstep, hrest⟩ := Option.bind_eq_some_iff.mp hrun
      rcases List.mem_cons.mp hput with rfl | hmem
      · cases hstep
        exact isSome_of_run hloses (putMany_present hencode hlanded hk) hrest
      · exact ih hmem hrest

end History

end EmbeddingCache

end RagParamsFinder
