/-
  The embedder of a DoubleWord model: `embed_documents_doubleword` and `embed_query_doubleword`
  of `server/core/embedding/embedder_factory.py`. It answers from the embedding cache alone,
  which completed batches fill.

  A batch is what `plan_pre_embed`, `build_jsonl`, the service and `download_vectors` make of
  some texts of one role. Batches of any experiments, in any order, may be put into the cache;
  a put may land in part, and Redis loses keys.

  Proved: `embedDoubleword_own`: every vector that is returned is the service's answer to a
  request for that very text, under that model and dimension, and of the same role.
  `embedDocuments_ok_iff`: with SQLite, texts are embedded exactly when each was answered.
-/
import RagParamsFinder.Embedding.DoublewordClient
import RagParamsFinder.Embedding.VectorCache

namespace RagParamsFinder

open BatchWrites EmbeddingCache StepMachine Traversals

namespace Doubleword

/-! ## Batches -/

/-- The items of the dict `vectors` whose custom id is a string. -/
def entriesOf (vectors : Dict Json.Key Json) : List (String × Json) :=
  vectors.items.filterMap fun
    | (.text s, vec) => some (String.ofList s, vec)
    | _ => none

/-- A batch of one job, from the plan to the files that the watcher downloads. -/
structure EmbeddingBatch (digest : Text → String) where
  model : String
  dimensions : Nat
  instruction : String
  role : EmbedRole
  texts : List Text
  cached : List String
  payload : Text
  outcomes : List (Option Answer)
  content : String → Option Text
  outputFileId : Option String
  errorFileId : Option String
  built : buildJsonl ((missingItems (cacheKey digest) model dimensions instruction role texts
    cached).map fun item => (item.customId, item.text)) model dimensions = .ok payload
  served : Served payload outcomes (fileLines content outputFileId) (fileLines content errorFileId)

section Batch

variable {digest : Text → String}

/-- What the watcher puts into the cache. -/
def EmbeddingBatch.entries (batch : EmbeddingBatch digest) : List (String × Json) :=
  entriesOf (downloadVectors batch.content batch.outputFileId batch.errorFileId).vectors

/-- The input of a batch's text. -/
def EmbeddingBatch.input (batch : EmbeddingBatch digest) (text : Text) : CacheKeyInput :=
  ⟨"doubleword", batch.model, batch.dimensions, batch.instruction, batch.role.value, text⟩

/-- The service has answered a request for the text of an input, in a batch of its role. -/
structure EmbeddingBatch.Answered (batch : EmbeddingBatch digest) (i : CacheKeyInput)
    (vec : Json) : Prop where
  input : batch.input i.text = i
  request : ∃ (k : Nat) (request : BatchRequest) (answer : Answer),
    (requestsIn batch.payload)[k]? = some (some request) ∧
    batch.outcomes[k]? = some (some answer) ∧ request.model = i.model.toList ∧
    request.input = i.text ∧ request.dimensions = i.dim ∧ answer.embedding = vec

/-! ## The embedder -/

inductive EmbedError where
  | cacheMiss (message : String)
  | read (e : ReadError)
  deriving DecidableEq, Repr

variable {ν φ : Type} (backend : CacheBackend ν φ)

def documentKeys (digest : Text → String) (m : EmbeddingModelId) (texts : List Text) :
    List String :=
  texts.map fun t => cacheKey digest ⟨"doubleword", m.name, m.info.dimensions, "", "doc", t⟩

/-- `embed_documents_doubleword`. -/
def embedDocumentsDoubleword (digest : Text → String) (table : Cells String ν)
    (texts : List Text) (m : EmbeddingModelId) : Except EmbedError (List (List φ)) :=
  let keys := documentKeys digest m texts
  match backend.getMany table keys with
  | .error e => .error (.read e)
  | .ok cached =>
      let missing := keys.filter fun k => (cached.lookup k).isNone
      if missing ≠ [] then
        .error (.cacheMiss (s!"Missing {missing.length} texts from embedding cache — " ++
          "pre_embed must complete before run"))
      else .ok (keys.filterMap fun k => cached.lookup k)

def queryKey (digest : Text → String) (m : EmbeddingModelId) (text : Text) : String :=
  cacheKey digest ⟨"doubleword", m.name, m.info.dimensions, queryInstruction, "query", text⟩

/-- `embed_query_doubleword`. -/
def embedQueryDoubleword (digest : Text → String) (table : Cells String ν) (text : Text)
    (m : EmbeddingModelId) : Except EmbedError (List φ) :=
  let key := queryKey digest m text
  match backend.getMany table [key] with
  | .error e => .error (.read e)
  | .ok cached =>
      match cached.lookup key with
      | none => .error (.cacheMiss "Missing 1 text from embedding cache")
      | some vector => .ok vector

end Batch

/-! ## What a batch puts -/

theorem mem_entriesOf {vectors : Dict Json.Key Json} {e : String × Json} :
    e ∈ entriesOf vectors ↔ (.text e.1.toList, e.2) ∈ vectors.items := by
  rw [entriesOf, List.mem_filterMap]
  constructor
  · rintro ⟨⟨k, vec⟩, hmem, heq⟩
    cases k with
    | text s =>
        obtain rfl := Option.some.inj heq
        rw [String.toList_ofList]
        exact hmem
    | _ => cases heq
  · intro h
    refine ⟨_, h, ?_⟩
    show some (String.ofList e.1.toList, e.2) = some e
    rw [String.ofList_toList]

section Sound

variable {digest : Text → String}

theorem getElem?_deliveredOf {items : List (String × Text)} {outcomes : List (Option Answer)}
    {a : String × Answer} (h : a ∈ deliveredOf items outcomes) :
    ∃ (k : Nat) (text : Text), items[k]? = some (a.1, text) ∧
      outcomes[k]? = some (some a.2) := by
  obtain ⟨⟨⟨cid, text⟩, outcome⟩, hmem, hsome⟩ := List.mem_filterMap.mp h
  obtain ⟨answer, rfl, rfl⟩ := Option.map_eq_some_iff.mp hsome
  obtain ⟨k, hk⟩ := List.getElem?_of_mem hmem
  obtain ⟨hitem, houtcome⟩ := List.getElem?_zip_eq_some.mp hk
  exact ⟨k, text, hitem, houtcome⟩

/-- What a batch puts under a key is an answer to a text with that key. -/
theorem answered_of_mem_entries {batch : EmbeddingBatch digest} {e : String × Json}
    (h : e ∈ batch.entries) : ∃ text, text ∈ batch.texts ∧
      e.1 = cacheKey digest (batch.input text) ∧ batch.Answered (batch.input text) e.2 := by
  obtain ⟨a, ha, heq⟩ := mem_delivered_of_mem batch.built batch.served (mem_entriesOf.mp h)
  obtain ⟨hid, hvec⟩ := Prod.mk.inj heq.symm
  have hcid := text_toList_injective hid
  obtain ⟨k, text, hitem, houtcome⟩ := getElem?_deliveredOf ha
  have hitems := List.mem_of_getElem? hitem
  obtain ⟨item, hmem, hof⟩ := List.mem_map.mp hitems
  obtain ⟨hcustom, rfl⟩ := Prod.mk.inj hof
  obtain ⟨htexts, -⟩ := List.mem_filter.mp hmem
  obtain ⟨text, htext, rfl⟩ := List.mem_map.mp htexts
  refine ⟨text, htext, ?_, rfl, k, requestFor batch.model batch.dimensions (a.1, text), a.2, ?_,
    houtcome, rfl, rfl, rfl, hvec⟩
  · rw [← hcid, ← hcustom]
    rfl
  · rw [requestsIn_buildJsonl batch.built, List.getElem?_map, hitem, Option.map_some]

/-! ## Histories -/

/-- A batch is put into the cache, of whose rows so many land, or keys get lost. -/
inductive BatchEvent (digest : Text → String) where
  | batch (batch : EmbeddingBatch digest) (landed : Nat)
  | lost (gone : String → Bool)

def BatchEvent.cacheEvent : BatchEvent digest → CacheEvent
  | .batch b landed => .put b.entries landed
  | .lost gone => .lost gone

variable {ν φ : Type} {backend : CacheBackend ν φ} {codec : FloatCodec φ}

/-- The cache after some batches. -/
def batchHistory (backend : CacheBackend ν φ) (events : List (BatchEvent digest)) :
    Option (Cells String ν) := cacheHistory backend (events.map BatchEvent.cacheEvent)

/-- Some batch was answered so. -/
def AnsweredIn (events : List (BatchEvent digest)) (i : CacheKeyInput) (vec : Json) : Prop :=
  ∃ batch landed, .batch batch landed ∈ events ∧ batch.Answered i vec

/-- The inputs of the batches. -/
def inputsOf (events : List (BatchEvent digest)) : Set CacheKeyInput :=
  fun i => ∃ batch landed, .batch batch landed ∈ events ∧ ∃ text ∈ batch.texts,
    i = batch.input text

/-- What is read under the key of an input is an answer to it, rounded. -/
theorem answered_of_lookup (hlaw : backend.Lawful codec) {events : List (BatchEvent digest)}
    {inputs : Set CacheKeyInput} (hdigest : NoCollision digest inputs)
    (hinputs : inputsOf events ⊆ inputs) {table : Cells String ν}
    (hrun : batchHistory backend events = some table) {keys : List String}
    {found : List (String × List φ)} (hfound : backend.getMany table keys = .ok found)
    {i : CacheKeyInput} (hi : i ∈ inputs) {v : List φ}
    (hv : found.lookup (cacheKey digest i) = some v) :
    ∃ vec, AnsweredIn events i vec ∧ rounded codec vec = some v := by
  obtain ⟨vec, ⟨entries, landed, hput, hentry⟩, hround⟩ :=
    (kept_of_cacheHistory hrun).read hlaw hfound hv
  obtain ⟨event, hevent, heq⟩ := List.mem_map.mp hput
  cases event with
  | batch batch landed' =>
      rw [BatchEvent.cacheEvent] at heq
      obtain ⟨rfl, rfl⟩ := CacheEvent.put.inj heq
      obtain ⟨text, htext, hkey, hanswered⟩ := answered_of_mem_entries hentry
      have hmem : batch.input text ∈ inputs := hinputs ⟨batch, landed', hevent, text, htext, rfl⟩
      obtain rfl := hdigest.inj hi hmem hkey
      exact ⟨vec, ⟨batch, landed', hevent, hanswered⟩, hround⟩
  | lost gone => cases heq

/-! ## Own vectors -/

/-- The input of a document of a run. -/
def documentInput (m : EmbeddingModelId) (text : Text) : CacheKeyInput :=
  ⟨"doubleword", m.name, m.info.dimensions, "", "doc", text⟩

def queryInput (m : EmbeddingModelId) (text : Text) : CacheKeyInput :=
  ⟨"doubleword", m.name, m.info.dimensions, queryInstruction, "query", text⟩

/-- An answer to the input, rounded. -/
def OwnVector (codec : FloatCodec φ) (events : List (BatchEvent digest)) (i : CacheKeyInput)
    (v : List φ) : Prop := ∃ vec, AnsweredIn events i vec ∧ rounded codec vec = some v

/-- What the two functions return is own vectors. -/
structure EmbedsOwn (backend : CacheBackend ν φ) (codec : FloatCodec φ)
    (events : List (BatchEvent digest)) (table : Cells String ν) (m : EmbeddingModelId)
    (texts : List Text) : Prop where
  documents : ∀ vectors, embedDocumentsDoubleword backend digest table texts m = .ok vectors →
    List.Forall₂ (fun text v => OwnVector codec events (documentInput m text) v) texts vectors
  query : ∀ text ∈ texts, ∀ v, embedQueryDoubleword backend digest table text m = .ok v →
    OwnVector codec events (queryInput m text) v

/-- The vectors of keys that are all found. -/
theorem filterMap_lookup {keys : List String} {found : List (String × List φ)}
    (h : keys.filter (fun k => (found.lookup k).isNone) = []) :
    List.Forall₂ (fun k v => found.lookup k = some v) keys
      (keys.filterMap fun k => found.lookup k) := by
  induction keys with
  | nil => exact .nil
  | cons k keys ih =>
      obtain ⟨hk, hkeys⟩ := List.forall_mem_cons.mp (List.filter_eq_nil_iff.mp h)
      rw [Bool.not_eq_true, Option.isNone_eq_false_iff] at hk
      obtain ⟨v, hv⟩ := Option.isSome_iff_exists.mp hk
      have hcons : (k :: keys).filterMap (fun k => found.lookup k) =
          v :: keys.filterMap fun k => found.lookup k := List.filterMap_cons_some hv
      rw [hcons]
      exact .cons hv (ih (List.filter_eq_nil_iff.mpr hkeys))

section Own

variable {events : List (BatchEvent digest)} {table : Cells String ν} {m : EmbeddingModelId}
  {texts : List Text}

/-- The documents of a run get own vectors. -/
theorem embedDocuments_own (hlaw : backend.Lawful codec)
    (hrun : batchHistory backend events = some table) {inputs : Set CacheKeyInput}
    (hdigest : NoCollision digest inputs) (hinputs : inputsOf events ⊆ inputs)
    (htexts : ∀ text ∈ texts, documentInput m text ∈ inputs) {vectors : List (List φ)}
    (h : embedDocumentsDoubleword backend digest table texts m = .ok vectors) :
    List.Forall₂ (fun text v => OwnVector codec events (documentInput m text) v) texts vectors := by
  rw [embedDocumentsDoubleword] at h
  dsimp only at h
  split at h
  · cases h
  · rename_i found hfound
    split at h
    · cases h
    · rename_i hnone
      cases h
      have hall := List.forall₂_map_left_iff.mp (filterMap_lookup (not_not.mp hnone))
      refine forall₂_imp_of_mem hall fun text htext v hv => ?_
      exact answered_of_lookup hlaw hdigest hinputs hrun hfound (htexts text htext) hv

/-- **No vector of another text.** Over any history of the cache. -/
theorem embedDoubleword_own (hlaw : backend.Lawful codec)
    (hrun : batchHistory backend events = some table) (hdigest : NoCollision digest
      (inputsOf events ∪ {i | ∃ t ∈ texts, i = documentInput m t ∨ i = queryInput m t})) :
    EmbedsOwn backend codec events table m texts := by
  constructor
  case documents =>
    intro vectors h
    refine embedDocuments_own hlaw hrun hdigest (fun _ hi => Or.inl hi) ?_ h
    exact fun text htext => Or.inr ⟨text, htext, Or.inl rfl⟩
  case query =>
    intro text htext v h
    rw [embedQueryDoubleword] at h
    split at h
    · cases h
    · rename_i found hfound
      split at h
      · cases h
      · rename_i vector hlookup
        cases h
        exact answered_of_lookup hlaw hdigest (fun _ hi => Or.inl hi) hrun hfound
          (Or.inr ⟨text, htext, Or.inr rfl⟩) hlookup

end Own

/-! ## Nothing is missed -/

/-- An answered text has an entry under its key. -/
theorem mem_keys_of_answered {b : EmbeddingBatch digest} {i : CacheKeyInput} {vec : Json}
    (h : b.Answered i vec) : cacheKey digest i ∈ b.entries.map (·.1) := by
  obtain ⟨k, request, answer, hrequest, houtcome, -, hinput, -, -⟩ := h.request
  rw [requestsIn_buildJsonl b.built, List.getElem?_map, Option.map_eq_some_iff] at hrequest
  obtain ⟨⟨cid, text⟩, hitem, heq⟩ := hrequest
  obtain rfl := Option.some.inj heq
  obtain ⟨item, hmem, hof⟩ := List.mem_map.mp (List.mem_of_getElem? hitem)
  obtain ⟨rfl, rfl⟩ := Prod.mk.inj hof
  obtain ⟨htexts, -⟩ := List.mem_filter.mp hmem
  obtain ⟨text, -, rfl⟩ := List.mem_map.mp htexts
  have hkey : cacheKey digest (b.input text) = cacheKey digest i := by
    have htext : text = i.text := hinput
    rw [htext, h.input]
  have hdelivered : (cacheKey digest (b.input text), answer) ∈ deliveredOf
      ((missingItems (cacheKey digest) b.model b.dimensions b.instruction b.role b.texts
        b.cached).map fun item => (item.customId, item.text)) b.outcomes := by
    refine List.mem_filterMap.mpr ⟨((cacheKey digest (b.input text), text), some answer), ?_, rfl⟩
    exact List.mem_of_getElem? (List.getElem?_zip_eq_some.mpr ⟨hitem, houtcome⟩)
  rw [← hkey]
  obtain ⟨⟨k, vec⟩, hentry, hk⟩ :=
    List.mem_map.mp (mem_keys_of_delivered b.built b.served hdelivered)
  obtain rfl : k = _ := hk
  exact List.mem_map.mpr ⟨(_, vec), mem_entriesOf.mpr hentry, rfl⟩

/-- All rows of the batch land, and its vectors can be packed. -/
def BatchEvent.Lands (codec : FloatCodec φ) : BatchEvent digest → Prop
  | .batch b landed =>
      b.entries.length ≤ landed ∧ ∀ e ∈ b.entries, (packVector codec e.2).isSome
  | .lost _ => True

/-- A read of all the keys is needed, and it may have too many of them. -/
theorem takes_of_embedDocuments {table : Cells String ν} {m : EmbeddingModelId}
    {texts : List Text} {vectors : List (List φ)}
    (h : embedDocumentsDoubleword backend digest table texts m = .ok vectors) :
    backend.Takes texts.length := by
  rw [embedDocumentsDoubleword] at h
  dsimp only at h
  split at h
  · cases h
  · rename_i found hfound
    have htakes := (getMany_eq_ok.mp hfound).1
    rwa [documentKeys, List.length_map] at htakes

/-- **Nothing is missed.** Where every put lands, texts are embedded exactly when a statement has
    room for their keys and the service has answered each of them. -/
theorem embedDocuments_ok_iff {events : List (BatchEvent digest)}
    (hlands : ∀ event ∈ events, event.Lands codec) {maxVariables : Nat}
    {table : Cells String (Nat × List UInt8)}
    (hrun : batchHistory (sqlite codec maxVariables) events = some table) {m : EmbeddingModelId}
    {texts : List Text}
    (hdigest : NoCollision digest (inputsOf events ∪ {i | ∃ t ∈ texts, i = documentInput m t})) :
    (∃ vectors, embedDocumentsDoubleword (sqlite codec maxVariables) digest table texts m =
        .ok vectors) ↔
      texts.length ≤ maxVariables ∧
        ∀ text ∈ texts, ∃ vec, AnsweredIn events (documentInput m text) vec := by
  have hlaw := sqlite_lawful codec maxVariables
  constructor
  · rintro ⟨vectors, h⟩
    refine ⟨takes_of_embedDocuments h maxVariables rfl, fun text htext => ?_⟩
    have hown := embedDocuments_own hlaw hrun hdigest (fun _ hi => Or.inl hi)
      (fun text htext => Or.inr ⟨text, htext, rfl⟩) h
    obtain ⟨v, -, vec, hanswered, -⟩ := exists_of_mem_forall₂ hown.flip htext
    exact ⟨vec, hanswered⟩
  · rintro ⟨hcount, hall⟩
    have htakes : (sqlite codec maxVariables).Takes (documentKeys digest m texts).length := by
      rw [documentKeys, List.length_map]
      intro n hn
      exact Option.some.inj hn ▸ hcount
    obtain ⟨found, hfound⟩ := ((kept_of_cacheHistory hrun).exists_getMany_iff hlaw
      (documentKeys digest m texts)).mpr htakes
    have hnone : (documentKeys digest m texts).filter (fun k => (found.lookup k).isNone) = [] := by
      refine List.filter_eq_nil_iff.mpr fun k hk => ?_
      obtain ⟨text, htext, rfl⟩ := List.mem_map.mp hk
      obtain ⟨vec, b, landed, hevent, hanswered⟩ := hall text htext
      obtain ⟨hlanded, hpacked⟩ := hlands _ hevent
      have hput : CacheEvent.put b.entries landed ∈ events.map BatchEvent.cacheEvent :=
        List.mem_map.mpr ⟨_, hevent, rfl⟩
      have hthere := isSome_of_put rfl hput hpacked hlanded (mem_keys_of_answered hanswered) hrun
      rw [Bool.not_eq_true, Option.isNone_eq_false_iff]
      exact (lookup_getMany hfound hk).mpr hthere
    rw [embedDocumentsDoubleword]
    dsimp only
    rw [hfound]
    exact ⟨_, if_neg (not_not.mpr hnone)⟩

end Sound

/-! ## Two batches -/

/-- The payload serves for its digest. -/
def plainDigest (payload : Text) : String := String.ofList payload

theorem noCollision_plainDigest (inputs : Set CacheKeyInput) :
    NoCollision plainDigest inputs := by
  intro i _ j _ h
  exact String.ofList_injective h

/-- The items of some texts, none of which is cached. -/
def documentItems (texts : List Text) : List (String × Text) :=
  (missingItems (cacheKey plainDigest) qwen.name 1024 "" .doc texts []).map fun item =>
    (item.customId, item.text)

/-- A batch of documents whose files are written in order. -/
def documentBatch (texts : List Text) (outcomes : List (Option Answer))
    (hshort : ∀ item ∈ documentItems texts, lineBytes qwen.name 1024 item ≤ maxLineBytes)
    (hcount : outcomes.length = (documentItems texts).length)
    (hplain : ∀ a ∈ deliveredOf (documentItems texts) outcomes, Json.plain a.2.embedding = true) :
    EmbeddingBatch plainDigest where
  model := qwen.name
  dimensions := 1024
  instruction := ""
  role := .doc
  texts := texts
  cached := []
  payload := writtenPayload (documentItems texts) qwen.name 1024
  outcomes := outcomes
  content fileId := some
    (if fileId = "out" then outputText (documentItems texts) outcomes
    else errorText (documentItems texts) outcomes)
  outputFileId := some "out"
  errorFileId := some "err"
  built := buildJsonl_of_short hshort
  served := served_written (buildJsonl_of_short hshort) hcount hplain

/-- One text is answered and one is refused. -/
def pellBatch : EmbeddingBatch plainDigest :=
  documentBatch ["pell".toList, "grant".toList] [some ⟨.arr [.int 7, .int 0], 3⟩, none]
    (by decide +kernel) (by decide +kernel) (by decide +kernel)

/-- The refused one is answered. -/
def grantBatch : EmbeddingBatch plainDigest :=
  documentBatch ["grant".toList] [some ⟨.arr [.int 16777217, .int (-1)], 4⟩] (by decide +kernel)
    (by decide +kernel) (by decide +kernel)

def twoTexts : List Text := ["pell".toList, "grant".toList]

/-- A batch of which one row lands, the loss of a key, and the same batch again. -/
def lossyEvents : List (BatchEvent plainDigest) :=
  [.batch pellBatch 1, .lost fun _ => true, .batch grantBatch 1, .batch pellBatch 1]

theorem pell_embedded_own : ∃ table, batchHistory (redis binary32) lossyEvents = some table ∧
    EmbedsOwn (redis binary32) binary32 lossyEvents table qwen twoTexts := by
  obtain ⟨table, hrun⟩ : ∃ table, batchHistory (redis binary32) lossyEvents = some table :=
    ⟨_, rfl⟩
  exact ⟨table, hrun, embedDoubleword_own (redis_lawful binary32) hrun
    (noCollision_plainDigest _)⟩

theorem pellBatch_lands : ∀ event ∈ [BatchEvent.batch pellBatch 1, .batch grantBatch 1],
    event.Lands binary32 := by
  intro event hevent
  simp only [List.mem_cons, List.not_mem_nil, or_false] at hevent
  rcases hevent with rfl | rfl
  · show pellBatch.entries.length ≤ 1 ∧
      ∀ e ∈ pellBatch.entries, (packVector binary32 e.2).isSome
    decide +kernel
  · show grantBatch.entries.length ≤ 1 ∧
      ∀ e ∈ grantBatch.entries, (packVector binary32 e.2).isSome
    decide +kernel

/-- What the service has answered in such a batch. -/
theorem answered_documentBatch {texts : List Text} {outcomes : List (Option Answer)}
    {hshort : ∀ item ∈ documentItems texts, lineBytes qwen.name 1024 item ≤ maxLineBytes}
    {hcount : outcomes.length = (documentItems texts).length}
    {hplain : ∀ a ∈ deliveredOf (documentItems texts) outcomes, Json.plain a.2.embedding = true}
    {k : Nat} {customId : String} {text : Text} {answer : Answer}
    (hitem : (documentItems texts)[k]? = some (customId, text))
    (houtcome : outcomes[k]? = some (some answer)) :
    (documentBatch texts outcomes hshort hcount hplain).Answered (documentInput qwen text)
      answer.embedding where
  input := rfl
  request := by
    refine ⟨k, requestFor qwen.name 1024 (customId, text), answer, ?_, houtcome, rfl, rfl, rfl, rfl⟩
    show (requestsIn (writtenPayload (documentItems texts) qwen.name 1024))[k]? = _
    rw [requestsIn_buildJsonl (buildJsonl_of_short hshort), List.getElem?_map, hitem,
      Option.map_some]

theorem pell_not_missed : ∃ table,
    batchHistory (sqlite binary32 999) [.batch pellBatch 1, .batch grantBatch 1] = some table ∧
    ∃ vectors, embedDocumentsDoubleword (sqlite binary32 999) plainDigest table twoTexts qwen =
      .ok vectors := by
  obtain ⟨table, hrun⟩ : ∃ table, batchHistory (sqlite binary32 999)
      [.batch pellBatch 1, .batch grantBatch 1] = some table := ⟨_, rfl⟩
  refine ⟨table, hrun, (embedDocuments_ok_iff pellBatch_lands hrun
    (noCollision_plainDigest _)).mpr ⟨by decide, fun text htext => ?_⟩⟩
  simp only [twoTexts, List.mem_cons, List.not_mem_nil, or_false] at htext
  rcases htext with rfl | rfl
  · exact ⟨_, pellBatch, 1, List.mem_cons_self ..,
      answered_documentBatch (k := 0) rfl rfl⟩
  · exact ⟨_, grantBatch, 1, List.mem_cons_of_mem _ (List.mem_cons_self ..),
      answered_documentBatch (k := 0) rfl rfl⟩

end Doubleword

end RagParamsFinder
