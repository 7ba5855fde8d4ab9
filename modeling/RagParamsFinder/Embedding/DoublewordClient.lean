/-
  The files of an embedding batch (`server/core/embedding/doubleword_client.py`): `build_jsonl`
  writes one request a line, `download_vectors` reads the answers and the errors.

  `Served` is what the batch service promises: a request is answered or refused, each with one
  line under its custom id, in any order and with blank lines anywhere. How it writes a line is
  left open, as long as `json.loads` finds the documented fields in it.

  Proved: `requestsIn_buildJsonl`: the requests are read back from the file, in order.
  `downloadVectors_accounts`: under the custom id of an answered item is the answer to an item of
  that custom id, and the error ids are the custom ids of the items that were refused.
-/
import Mathlib.Algebra.BigOperators.Group.List.Basic
import Mathlib.Data.Finset.Card
import RagParamsFinder.Chunking.Chunkers
import RagParamsFinder.Lib.Dicts
import RagParamsFinder.Lib.Doubles
import RagParamsFinder.Lib.JsonRoundTrip
import RagParamsFinder.Lib.Traversals

namespace RagParamsFinder

open Traversals

namespace Doubleword

/-! ## Requests -/

/-- `request_obj`. -/
def requestObj (model : String) (dimensions : Int) (customId : String) (text : Text) : Json :=
  .obj [("custom_id".toList, .str customId.toList), ("method".toList, .str "POST".toList),
    ("url".toList, .str "/v1/embeddings".toList),
    ("body".toList, .obj [("model".toList, .str model.toList), ("input".toList, .str text),
      ("dimensions".toList, .int dimensions)])]

/-- `separators=(",", ":")`, with `ensure_ascii`. -/
def compact : Json.Format := ⟨true, false⟩

def maxLineBytes : Nat := 5242880

/-- `len(line.encode("utf-8"))`. -/
def utf8Length (cs : Text) : Nat := (cs.map fun c => c.utf8Size).sum

/-- The line of an item is too long; it has so many bytes. -/
structure LineTooLong where
  customId : String
  bytes : Nat
  deriving DecidableEq, Repr

/-- The text of the `ValueError`, for a custom id that `repr` only puts quotes around. -/
def LineTooLong.message (e : LineTooLong) : String :=
  s!"JSONL line for item '{e.customId}' exceeds 5 MB limit ({e.bytes} bytes)"

def requestLine (model : String) (dimensions : Int) (item : String × Text) :
    Except LineTooLong Text :=
  let line := Json.render compact (requestObj model dimensions item.1 item.2)
  if maxLineBytes < utf8Length line then .error ⟨item.1, utf8Length line⟩ else .ok line

/-- `build_jsonl`. -/
def buildJsonl (items : List (String × Text)) (model : String) (dimensions : Int) :
    Except LineTooLong Text := do
  let lines ← items.mapM (requestLine model dimensions)
  return List.intercalate ['\n'] lines

/-! ## Answers -/

/-- The exceptions of a subscript. -/
inductive SubscriptError where
  | keyError
  | indexError
  | typeError
  deriving DecidableEq, Repr

/-- `value[key]`, for a string; the last of two entries of one key is kept. -/
def getKey (key : String) : Json → Except SubscriptError Json
  | .obj entries =>
      match entries.reverse.lookup key.toList with
      | some v => .ok v
      | none => .error .keyError
  | _ => .error .typeError

/-- `value[0]`; no key of an object is a number. -/
def getFirst : Json → Except SubscriptError Json
  | .arr (x :: _) => .ok x
  | .arr [] => .error .indexError
  | .str (c :: _) => .ok (.str [c])
  | .str [] => .error .indexError
  | .obj _ => .error .keyError
  | _ => .error .typeError

/-- What becomes of a line that raises: it is skipped, or it ends the reading of its file. -/
inductive LineError where
  | skipped
  | fatal
  deriving DecidableEq, Repr

/-- `except (KeyError, IndexError, json.JSONDecodeError)`, inside of `except Exception`. -/
def LineError.ofSubscript : SubscriptError → LineError
  | .keyError => .skipped
  | .indexError => .skipped
  | .typeError => .fatal

def parseLine (line : Text) : Except LineError Json :=
  match Json.loads line with
  | some v => .ok v
  | none => .error .skipped

/-- A line of an output file: its custom id, its embedding and its tokens. -/
def parseOutput (line : Text) : Except LineError (Json × Json × Json) := do
  let obj ← parseLine line
  let fields : Except SubscriptError (Json × Json × Json) := do
    let customId ← getKey "custom_id" obj
    let data ← getKey "data" (← getKey "body" (← getKey "response" obj))
    let embedding ← getKey "embedding" (← getFirst data)
    let usage ← getKey "usage" (← getKey "body" (← getKey "response" obj))
    let promptTokens ← getKey "prompt_tokens" usage
    return (customId, embedding, promptTokens)
  fields.mapError .ofSubscript

/-- A line of an error file. -/
def parseError (line : Text) : Except LineError Json := do
  let obj ← parseLine line
  (getKey "custom_id" obj).mapError .ofSubscript

/-- What `download_vectors` returns. -/
structure Download where
  vectors : Dict Json.Key Json
  errorIds : Finset Json.Key
  totalPromptTokens : Number

/-- `vectors[custom_id] = embedding` and `total_prompt_tokens += prompt_tokens`, either of which
    may raise; what was assigned before is kept. -/
def Download.record (d : Download) (customId embedding promptTokens : Json) : Download × Bool :=
  match customId.key with
  | none => (d, false)
  | some k =>
      let kept := { d with vectors := d.vectors.set k embedding }
      match promptTokens.number.bind d.totalPromptTokens.add with
      | none => (kept, false)
      | some total => ({ kept with totalPromptTokens := total }, true)

/-- The loop over an output file. -/
def readOutputLines : List Text → Download → Download
  | [], d => d
  | line :: lines, d =>
      if Text.strip line = [] then readOutputLines lines d
      else
        match parseOutput line with
        | .error .skipped => readOutputLines lines d
        | .error .fatal => d
        | .ok (customId, embedding, promptTokens) =>
            match d.record customId embedding promptTokens with
            | (kept, true) => readOutputLines lines kept
            | (kept, false) => kept

/-- The loop over an error file. -/
def readErrorLines : List Text → Download → Download
  | [], d => d
  | line :: lines, d =>
      if Text.strip line = [] then readErrorLines lines d
      else
        match parseError line with
        | .error .skipped => readErrorLines lines d
        | .error .fatal => d
        | .ok customId =>
            match customId.key with
            | some k => readErrorLines lines { d with errorIds := insert k d.errorIds }
            | none => d

/-- The lines of a file; none without an id, and none when `files.content` raises. -/
def fileLines (content : String → Option Text) : Option String → List Text
  | none => []
  | some fileId =>
      if fileId = "" then []
      else
        match content fileId with
        | some text => text.splitOn '\n'
        | none => []

/-- `download_vectors`. -/
def downloadVectors (content : String → Option Text) (outputFileId errorFileId : Option String) :
    Download :=
  readErrorLines (fileLines content errorFileId)
    (readOutputLines (fileLines content outputFileId) ⟨.empty, ∅, .int 0⟩)

/-! ## The requests are read back -/

/-- A request as the batch service reads it. -/
structure BatchRequest where
  customId : Text
  method : Text
  url : Text
  model : Text
  input : Text
  dimensions : Int
  deriving DecidableEq, Repr

def strField (key : String) (v : Json) : Option Text :=
  match getKey key v with
  | .ok (.str s) => some s
  | _ => none

def requestOf (v : Json) : Option BatchRequest := do
  let customId ← strField "custom_id" v
  let method ← strField "method" v
  let url ← strField "url" v
  let body ← (getKey "body" v).toOption
  let model ← strField "model" body
  let input ← strField "input" body
  match getKey "dimensions" body with
  | .ok (.int dimensions) => return ⟨customId, method, url, model, input, dimensions⟩
  | _ => none

def nonblank (lines : List Text) : List Text := lines.filter fun line => Text.strip line ≠ []

/-- The requests in a file; a line that is not one of them is `none`. -/
def requestsIn (payload : Text) : List (Option BatchRequest) :=
  (nonblank (payload.splitOn '\n')).map fun line => (Json.loads line).bind requestOf

/-- The request of an item. -/
def requestFor (model : String) (dimensions : Int) (item : String × Text) : BatchRequest where
  customId := item.1.toList
  method := "POST".toList
  url := "/v1/embeddings".toList
  model := model.toList
  input := item.2
  dimensions := dimensions

theorem writable_requestObj (model : String) (dimensions : Int) (customId : String)
    (text : Text) : Json.Writable (requestObj model dimensions customId text) :=
  Json.writable_of_plain _ rfl

theorem requestOf_requestObj (model : String) (dimensions : Int) (item : String × Text) :
    requestOf (requestObj model dimensions item.1 item.2) =
      some (requestFor model dimensions item) := rfl

/-- A character that is no space stays. -/
theorem strip_ne_nil {c : Char} {cs : Text} (hc : c ∈ cs) (hspace : Text.isSpace c = false) :
    Text.strip cs ≠ [] := by
  intro hnil
  rw [Text.strip, List.reverse_eq_nil_iff, List.dropWhile_eq_nil_iff] at hnil
  have hall : ∀ d ∈ cs.takeWhile Text.isSpace ++ cs.dropWhile Text.isSpace,
      Text.isSpace d = true := by
    intro d hd
    rcases List.mem_append.mp hd with hd | hd
    · exact List.mem_takeWhile_imp hd
    · exact hnil d (List.mem_reverse.mpr hd)
  rw [List.takeWhile_append_dropWhile] at hall
  exact Bool.false_ne_true (hspace.symm.trans (hall c hc))

/-- What a line of the file is. -/
structure IsRequestLine (model : String) (dimensions : Int) (item : String × Text)
    (line : Text) : Prop where
  text : line = Json.render compact (requestObj model dimensions item.1 item.2)
  oneLine : '\n' ∉ line
  notBlank : Text.strip line ≠ []
  ascii : ∀ c ∈ line, c.toNat ≤ 0x7E
  bytes : line.length ≤ maxLineBytes

/-- Every character of a line is a byte. -/
theorem utf8Length_of_ascii {cs : Text} (h : ∀ c ∈ cs, c.toNat ≤ 0x7E) :
    utf8Length cs = cs.length := by
  induction cs with
  | nil => rfl
  | cons c cs ih =>
      obtain ⟨hc, hcs⟩ := List.forall_mem_cons.mp h
      have hsize : c.utf8Size = 1 := by
        have hval : c.val ≤ 0x7F := UInt32.le_iff_toNat_le.mpr (Nat.le_succ_of_le hc)
        exact if_pos hval
      rw [utf8Length, List.map_cons, List.sum_cons, hsize, ← utf8Length, ih hcs,
        List.length_cons, Nat.add_comm]

theorem isRequestLine {model : String} {dimensions : Int} {item : String × Text} {line : Text}
    (h : requestLine model dimensions item = .ok line) :
    IsRequestLine model dimensions item line := by
  have hw := writable_requestObj model dimensions item.1 item.2
  have hascii : ∀ c ∈ Json.render compact (requestObj model dimensions item.1 item.2),
      c.toNat ≤ 0x7E := fun c hc => (Json.allPrinted_render compact hw c hc).2 rfl
  rw [requestLine] at h
  split at h
  · cases h
  · rename_i hshort
    obtain rfl := Except.ok.inj h
    refine ⟨rfl, Json.newline_not_mem_render compact hw, ?_, hascii, ?_⟩
    · have hopen : '{' ∈ Json.render compact (requestObj model dimensions item.1 item.2) :=
        List.mem_cons_self ..
      exact strip_ne_nil hopen (by decide)
    · rw [← utf8Length_of_ascii hascii]
      exact Nat.not_lt.mp hshort

/-- The bytes of an item's line. -/
def lineBytes (model : String) (dimensions : Int) (item : String × Text) : Nat :=
  utf8Length (Json.render compact (requestObj model dimensions item.1 item.2))

theorem requestLine_of_short {model : String} {dimensions : Int} {item : String × Text}
    (h : lineBytes model dimensions item ≤ maxLineBytes) : requestLine model dimensions item =
      .ok (Json.render compact (requestObj model dimensions item.1 item.2)) := by
  rw [requestLine, ← lineBytes, if_neg (Nat.not_lt.mpr h)]

/-- Lines that are put together are split again. -/
theorem nonblank_splitOn {lines : List Text}
    (h : ∀ line ∈ lines, '\n' ∉ line ∧ Text.strip line ≠ []) :
    nonblank ((List.intercalate ['\n'] lines).splitOn '\n') = lines := by
  by_cases hne : lines = []
  · rw [hne]
    rfl
  · rw [List.splitOn_intercalate '\n' (fun line hmem => (h line hmem).1) hne]
    exact List.filter_eq_self.mpr fun line hmem => decide_eq_true (h line hmem).2

section Build

variable {items : List (String × Text)} {model : String} {dimensions : Int} {payload : Text}

/-- The lines of some items. -/
def writtenPayload (items : List (String × Text)) (model : String) (dimensions : Int) : Text :=
  List.intercalate ['\n'] (items.map fun item =>
    Json.render compact (requestObj model dimensions item.1 item.2))

theorem buildJsonl_of_short (h : ∀ item ∈ items, lineBytes model dimensions item ≤ maxLineBytes) :
    buildJsonl items model dimensions = .ok (writtenPayload items model dimensions) := by
  refine bind_eq_ok.mpr ⟨_, mapM_of_forall₂ ?_, rfl⟩
  rw [List.forall₂_map_right_iff, List.forall₂_same]
  exact fun item hitem => requestLine_of_short (h item hitem)

/-- The file is written exactly when no line is too long. -/
theorem buildJsonl_ok_iff : (∃ payload, buildJsonl items model dimensions = .ok payload) ↔
    ∀ item ∈ items, lineBytes model dimensions item ≤ maxLineBytes := by
  constructor
  · rintro ⟨payload, h⟩ item hitem
    obtain ⟨lines, hlines, -⟩ := bind_eq_ok.mp h
    obtain ⟨line, -, hline⟩ := exists_of_mem_forall₂ (forall₂_of_mapM hlines).flip hitem
    by_contra hlong
    rw [requestLine, ← lineBytes, if_pos (Nat.not_le.mp hlong)] at hline
    cases hline
  · exact fun hshort => ⟨_, buildJsonl_of_short hshort⟩

theorem buildJsonl_lines (h : buildJsonl items model dimensions = .ok payload) :
    nonblank (payload.splitOn '\n') = items.map fun item =>
      Json.render compact (requestObj model dimensions item.1 item.2) := by
  obtain ⟨lines, hlines, h⟩ := bind_eq_ok.mp h
  obtain rfl := Except.ok.inj h
  have hrel : List.Forall₂ (IsRequestLine model dimensions) items lines :=
    (forall₂_of_mapM hlines).imp fun _ _ => isRequestLine
  have htexts : (items.map fun item =>
      Json.render compact (requestObj model dimensions item.1 item.2)) = lines := by
    have hmap := List.forall₂_map_left_iff.mpr (hrel.imp fun _ _ hline => hline.text.symm)
    rwa [List.forall₂_eq_eq_eq] at hmap
  have hline : ∀ line ∈ lines, '\n' ∉ line ∧ Text.strip line ≠ [] := by
    intro line hmem
    obtain ⟨item, -, hline⟩ := exists_of_mem_forall₂ hrel hmem
    exact ⟨hline.oneLine, hline.notBlank⟩
  rw [htexts]
  exact nonblank_splitOn hline

/-- The service reads the requests that were asked for, in order. -/
theorem requestsIn_buildJsonl (h : buildJsonl items model dimensions = .ok payload) :
    requestsIn payload = items.map fun item => some (requestFor model dimensions item) := by
  rw [requestsIn, buildJsonl_lines h, List.map_map]
  refine List.map_congr_left fun item _ => ?_
  have hw := writable_requestObj model dimensions item.1 item.2
  rw [Function.comp_apply, Json.loads_render compact hw]
  exact requestOf_requestObj model dimensions item

end Build

/-! ## What the service promises -/

/-- What a request that is not refused comes to. -/
structure Answer where
  embedding : Json
  promptTokens : Int

/-- A line of the output file, with the documented fields. -/
structure AnswerLine (line : Text) (answered : BatchRequest × Answer) : Prop where
  fields : ∃ obj response body usage item items, Json.loads line = some obj ∧
    getKey "custom_id" obj = .ok (.str answered.1.customId) ∧
    getKey "response" obj = .ok response ∧ getKey "body" response = .ok body ∧
    getKey "data" body = .ok (.arr (item :: items)) ∧
    getKey "embedding" item = .ok answered.2.embedding ∧
    getKey "usage" body = .ok usage ∧
    getKey "prompt_tokens" usage = .ok (.int answered.2.promptTokens)

/-- A line of the error file. -/
structure RefusalLine (line : Text) (request : BatchRequest) : Prop where
  fields : ∃ obj, Json.loads line = some obj ∧
    getKey "custom_id" obj = .ok (.str request.customId)

/-- The requests that were answered. -/
def answeredOf (requests : List BatchRequest) (outcomes : List (Option Answer)) :
    List (BatchRequest × Answer) :=
  (requests.zip outcomes).filterMap fun ro => ro.2.map fun answer => (ro.1, answer)

def refusedOf (requests : List BatchRequest) (outcomes : List (Option Answer)) :
    List BatchRequest :=
  (requests.zip outcomes).filterMap fun ro => if ro.2.isNone then some ro.1 else none

/-- The files of a completed batch, whose requests came to `outcomes`. -/
structure Served (payload : Text) (outcomes : List (Option Answer))
    (output error : List Text) : Prop where
  count : outcomes.length = (requestsIn payload).length
  answered : ∃ order, order.Perm (answeredOf ((requestsIn payload).filterMap id) outcomes) ∧
    List.Forall₂ AnswerLine (nonblank output) order
  refused : ∃ order, order.Perm (refusedOf ((requestsIn payload).filterMap id) outcomes) ∧
    List.Forall₂ RefusalLine (nonblank error) order

/-! ## What is downloaded -/

theorem parseLine_of_loads {line : Text} {obj : Json} (h : Json.loads line = some obj) :
    parseLine line = .ok obj := by
  rw [parseLine, h]

theorem parseOutput_of_answerLine {line : Text} {answered : BatchRequest × Answer}
    (h : AnswerLine line answered) : parseOutput line =
      .ok (.str answered.1.customId, answered.2.embedding, .int answered.2.promptTokens) := by
  obtain ⟨obj, response, body, usage, item, items, hobj, hid, hresponse, hbody, hdata, hitem,
    husage, htokens⟩ := h.fields
  have hfirst : getFirst (.arr (item :: items)) = .ok item := rfl
  refine bind_eq_ok.mpr ⟨obj, parseLine_of_loads hobj, mapError_eq_ok.mpr ?_⟩
  refine bind_eq_ok.mpr ⟨_, hid, bind_eq_ok.mpr ⟨_, hresponse, bind_eq_ok.mpr ⟨_, hbody, ?_⟩⟩⟩
  refine bind_eq_ok.mpr ⟨_, hdata, bind_eq_ok.mpr ⟨_, hfirst, bind_eq_ok.mpr ⟨_, hitem, ?_⟩⟩⟩
  refine bind_eq_ok.mpr ⟨_, hresponse, bind_eq_ok.mpr ⟨_, hbody, ?_⟩⟩
  exact bind_eq_ok.mpr ⟨_, husage, bind_eq_ok.mpr ⟨_, htokens, rfl⟩⟩

theorem parseError_of_refusalLine {line : Text} {request : BatchRequest}
    (h : RefusalLine line request) : parseError line = .ok (.str request.customId) := by
  obtain ⟨obj, hobj, hid⟩ := h.fields
  exact bind_eq_ok.mpr ⟨obj, parseLine_of_loads hobj, mapError_eq_ok.mpr hid⟩

theorem nonblank_cons_blank {line : Text} (h : Text.strip line = []) (lines : List Text) :
    nonblank (line :: lines) = nonblank lines :=
  List.filter_cons_of_neg (by rw [h]; decide)

theorem nonblank_cons {line : Text} (h : Text.strip line ≠ []) (lines : List Text) :
    nonblank (line :: lines) = line :: nonblank lines :=
  List.filter_cons_of_pos (decide_eq_true h)

theorem readOutputLines_of_answers {lines : List Text} {order : List (BatchRequest × Answer)}
    (h : List.Forall₂ AnswerLine (nonblank lines) order) (vectors : Dict Json.Key Json)
    (errorIds : Finset Json.Key) (total : Int) :
    readOutputLines lines ⟨vectors, errorIds, .int total⟩ =
      ⟨vectors.setAll (order.map fun a => (.text a.1.customId, a.2.embedding)), errorIds,
        .int (total + (order.map fun a => a.2.promptTokens).sum)⟩ := by
  induction lines generalizing order vectors total with
  | nil =>
      cases h
      simp [readOutputLines, Dict.setAll]
  | cons line lines ih =>
      rw [readOutputLines]
      split
      · rename_i hblank
        rw [nonblank_cons_blank hblank] at h
        exact ih h vectors total
      · rename_i hsome
        rw [nonblank_cons hsome] at h
        cases h with
        | @cons _ answered _ order hline hrest =>
            rw [parseOutput_of_answerLine hline]
            show readOutputLines lines ⟨vectors.set (.text answered.1.customId)
              answered.2.embedding, errorIds, .int (total + answered.2.promptTokens)⟩ = _
            rw [ih hrest, List.map_cons, List.map_cons, Dict.setAll_cons, List.sum_cons,
              Int.add_assoc]

theorem readErrorLines_of_refusals {lines : List Text} {order : List BatchRequest}
    (h : List.Forall₂ RefusalLine (nonblank lines) order) (d : Download) :
    readErrorLines lines d =
      { d with errorIds := (order.map fun r => Json.Key.text r.customId).toFinset ∪ d.errorIds }
      := by
  induction lines generalizing order d with
  | nil =>
      cases h
      simp [readErrorLines]
  | cons line lines ih =>
      rw [readErrorLines]
      split
      · rename_i hblank
        rw [nonblank_cons_blank hblank] at h
        exact ih h d
      · rename_i hsome
        rw [nonblank_cons hsome] at h
        cases h with
        | @cons _ request _ order hline hrest =>
            rw [parseError_of_refusalLine hline]
            show readErrorLines lines { d with
              errorIds := insert (.text request.customId) d.errorIds } = _
            rw [ih hrest, List.map_cons, List.toFinset_cons, Finset.union_insert,
              Finset.insert_union]

/-! ## Every item is accounted for -/

/-- The custom ids of the items that were answered, with their answers. -/
def deliveredOf (items : List (String × Text)) (outcomes : List (Option Answer)) :
    List (String × Answer) :=
  (items.zip outcomes).filterMap fun io => io.2.map fun answer => (io.1.1, answer)

/-- The custom ids of the items that were refused. -/
def failedOf (items : List (String × Text)) (outcomes : List (Option Answer)) : List String :=
  (items.zip outcomes).filterMap fun io => if io.2.isNone then some io.1.1 else none

/-- The entry of an answer. -/
def entryOf (a : String × Answer) : Json.Key × Json := (.text a.1.toList, a.2.embedding)

/-- The requests are those of the items, and what is downloaded is what they came to: under the
    custom id of an answered item an answer to it, and where no two items share a custom id, the
    answer to every item that is not refused, once. -/
structure BatchAccounted (items : List (String × Text)) (model : String) (dimensions : Int)
    (payload : Text) (outcomes : List (Option Answer)) (d : Download) : Prop where
  requests : requestsIn payload = items.map fun item => some (requestFor model dimensions item)
  answers : ∀ e ∈ d.vectors.items, ∃ a ∈ deliveredOf items outcomes, e = entryOf a
  answered : ∀ a ∈ deliveredOf items outcomes, (entryOf a).1 ∈ d.vectors.keys
  errorIds : d.errorIds =
    ((failedOf items outcomes).map fun customId => Json.Key.text customId.toList).toFinset
  tokens : d.totalPromptTokens = .int ((deliveredOf items outcomes).map (·.2.promptTokens)).sum
  each : (items.map (·.1)).Nodup →
    d.vectors.items.Perm ((deliveredOf items outcomes).map entryOf) ∧
      d.vectors.items.length + d.errorIds.card = items.length

theorem length_delivered_failed {items : List (String × Text)} {outcomes : List (Option Answer)}
    (h : outcomes.length = items.length) :
    (deliveredOf items outcomes).length + (failedOf items outcomes).length = items.length := by
  induction items generalizing outcomes with
  | nil => rfl
  | cons item items ih =>
      cases outcomes with
      | nil => cases h
      | cons outcome outcomes =>
          have hrest := ih (Nat.succ.inj h)
          cases outcome with
          | none =>
              show (deliveredOf items outcomes).length + ((failedOf items outcomes).length + 1) = _
              rw [List.length_cons, ← hrest, Nat.add_assoc]
          | some answer =>
              show (deliveredOf items outcomes).length + 1 + (failedOf items outcomes).length = _
              rw [List.length_cons, ← hrest, Nat.add_right_comm]

section Round

variable {items : List (String × Text)} {model : String} {dimensions : Int} {payload : Text}
  {outcomes : List (Option Answer)}

theorem map_answeredOf :
    (answeredOf (items.map (requestFor model dimensions)) outcomes).map
        (fun a => (String.ofList a.1.customId, a.2)) = deliveredOf items outcomes := by
  induction items generalizing outcomes with
  | nil => rfl
  | cons item items ih =>
      cases outcomes with
      | nil => rfl
      | cons outcome outcomes =>
          cases outcome with
          | none => exact ih
          | some answer =>
              show (String.ofList item.1.toList, answer) :: _ = (item.1, answer) :: _
              rw [String.ofList_toList]
              exact congrArg _ ih

theorem map_refusedOf :
    (refusedOf (items.map (requestFor model dimensions)) outcomes).map
        (fun request => String.ofList request.customId) = failedOf items outcomes := by
  induction items generalizing outcomes with
  | nil => rfl
  | cons item items ih =>
      cases outcomes with
      | nil => rfl
      | cons outcome outcomes =>
          cases outcome with
          | none =>
              show String.ofList item.1.toList :: _ = item.1 :: _
              rw [String.ofList_toList]
              exact congrArg _ ih
          | some answer => exact ih

/-- Distinct custom ids are those of answered items or of refused ones. -/
theorem nodup_delivered_failed (hids : (items.map (·.1)).Nodup) :
    ((deliveredOf items outcomes).map (·.1)).Nodup ∧ (failedOf items outcomes).Nodup := by
  have hsub : ((deliveredOf items outcomes).map (·.1)).Sublist (items.map (·.1)) ∧
      (failedOf items outcomes).Sublist (items.map (·.1)) := by
    clear hids
    induction items generalizing outcomes with
    | nil => exact ⟨List.nil_sublist _, List.nil_sublist _⟩
    | cons item items ih =>
        cases outcomes with
        | nil => exact ⟨List.nil_sublist _, List.nil_sublist _⟩
        | cons outcome outcomes =>
            obtain ⟨hdelivered, hfailed⟩ := @ih outcomes
            cases outcome with
            | none => exact ⟨hdelivered.cons _, hfailed.cons_cons _⟩
            | some answer => exact ⟨hdelivered.cons_cons _, hfailed.cons _⟩
  exact ⟨hsub.1.nodup hids, hsub.2.nodup hids⟩

theorem text_toList_injective : Function.Injective fun s : String => Json.Key.text s.toList := by
  intro s t h
  exact String.toList_inj.mp (Json.Key.text.inj h)

section Files

variable {content : String → Option Text} {outputFileId errorFileId : Option String}
  (hbuild : buildJsonl items model dimensions = .ok payload)
  (hserved : Served payload outcomes (fileLines content outputFileId)
    (fileLines content errorFileId))

include hbuild hserved

/-- What the two files come to, in the order of their lines. -/
theorem downloadVectors_eq : ∃ (order : List (String × Answer)) (refused : List String),
    order.Perm (deliveredOf items outcomes) ∧ refused.Perm (failedOf items outcomes) ∧
    downloadVectors content outputFileId errorFileId =
      ⟨Dict.empty.setAll (order.map entryOf),
        (refused.map fun customId => Json.Key.text customId.toList).toFinset,
        .int (order.map (·.2.promptTokens)).sum⟩ := by
  have hread : (requestsIn payload).filterMap id = items.map (requestFor model dimensions) := by
    rw [requestsIn_buildJsonl hbuild, List.filterMap_map]
    exact congrFun List.filterMap_eq_map items
  obtain ⟨order, hperm, hlines⟩ := hserved.answered
  obtain ⟨refused, hperm', hlines'⟩ := hserved.refused
  rw [hread] at hperm hperm'
  have hanswers := hperm.map fun a => (String.ofList a.1.customId, a.2)
  have hrefusals := hperm'.map fun request => String.ofList request.customId
  rw [map_answeredOf] at hanswers
  rw [map_refusedOf] at hrefusals
  refine ⟨_, _, hanswers, hrefusals, ?_⟩
  rw [downloadVectors, readOutputLines_of_answers hlines, readErrorLines_of_refusals hlines']
  simp only [List.map_map, Function.comp_def, entryOf, String.toList_ofList, Int.zero_add,
    Finset.union_empty]

/-- Whatever is under a custom id is the answer to an item of that custom id. -/
theorem mem_delivered_of_mem {e : Json.Key × Json}
    (he : e ∈ (downloadVectors content outputFileId errorFileId).vectors.items) :
    ∃ a ∈ deliveredOf items outcomes, e = entryOf a := by
  obtain ⟨order, refused, hperm, -, hdown⟩ := downloadVectors_eq hbuild hserved
  rw [hdown] at he
  obtain ⟨a, ha, rfl⟩ := List.mem_map.mp ((Dict.mem_of_mem_setAll he).resolve_left
    List.not_mem_nil)
  exact ⟨a, hperm.mem_iff.mp ha, rfl⟩

theorem mem_keys_of_delivered {a : String × Answer} (ha : a ∈ deliveredOf items outcomes) :
    (entryOf a).1 ∈ (downloadVectors content outputFileId errorFileId).vectors.keys := by
  obtain ⟨order, refused, hperm, -, hdown⟩ := downloadVectors_eq hbuild hserved
  rw [hdown]
  refine Dict.mem_keys_setAll.mpr (Or.inr ?_)
  exact List.mem_map_of_mem (List.mem_map_of_mem (hperm.mem_iff.mpr ha))

/-- **The round trip of a batch.** Whatever the order of the lines and the way they are written,
    what is downloaded is what the items came to. -/
theorem downloadVectors_accounts : BatchAccounted items model dimensions payload outcomes
    (downloadVectors content outputFileId errorFileId) := by
  have hcount : outcomes.length = items.length := by
    rw [hserved.count, requestsIn_buildJsonl hbuild, List.length_map]
  obtain ⟨order, refused, hperm, hperm', hdown⟩ := downloadVectors_eq hbuild hserved
  constructor
  case requests => exact requestsIn_buildJsonl hbuild
  case answers => exact fun e he => mem_delivered_of_mem hbuild hserved he
  case answered => exact fun a ha => mem_keys_of_delivered hbuild hserved ha
  case errorIds =>
    rw [hdown]
    exact List.toFinset_eq_of_perm _ _ (hperm'.map _)
  case tokens =>
    rw [hdown]
    exact congrArg Number.int (hperm.map _).sum_eq
  case each =>
    intro hids
    rw [hdown]
    obtain ⟨hdelivered, hfailed⟩ := @nodup_delivered_failed items outcomes hids
    have hkeys : ((order.map entryOf).map (·.1)).Nodup := by
      have hnodup := ((hperm.map (·.1)).nodup_iff.mpr hdelivered).map text_toList_injective
      rwa [List.map_map] at hnodup ⊢
    have hvectors : (Dict.empty.setAll (order.map entryOf)).items = order.map entryOf :=
      Dict.items_setAll hkeys
    show (Dict.empty.setAll (order.map entryOf)).items.Perm _ ∧
      (Dict.empty.setAll (order.map entryOf)).items.length + _ = _
    rw [hvectors]
    refine ⟨hperm.map entryOf, ?_⟩
    rw [List.length_map, hperm.length_eq,
      List.toFinset_card_of_nodup ((hperm'.nodup_iff.mpr hfailed).map text_toList_injective),
      List.length_map, hperm'.length_eq]
    exact length_delivered_failed hcount

end Files

end Round

/-- An answer as a service may write it. -/
def answerObj (customId : String) (embedding : Json) (promptTokens : Int) : Json :=
  .obj [("id".toList, .str "batch_req_1".toList), ("custom_id".toList, .str customId.toList),
    ("response".toList, .obj [("status_code".toList, .int 200), ("body".toList, .obj
      [("data".toList, .arr [.obj [("embedding".toList, embedding)]]),
        ("usage".toList, .obj [("prompt_tokens".toList, .int promptTokens)])])])]

theorem answerLine_answerObj {line : Text} {customId : String} {answer : Answer}
    {request : BatchRequest} (hid : request.customId = customId.toList)
    (hline : Json.loads line = some (answerObj customId answer.embedding answer.promptTokens)) :
    AnswerLine line (request, answer) := by
  refine ⟨_, _, _, _, _, _, hline, ?_, rfl, rfl, rfl, rfl, rfl, rfl⟩
  rw [hid]
  rfl

/-! ### A service that writes its files in order -/

section Written

variable {items : List (String × Text)} {model : String} {dimensions : Int} {payload : Text}
  {outcomes : List (Option Answer)}

def answerText (a : String × Answer) : Text :=
  Json.render ⟨false, true⟩ (answerObj a.1 a.2.embedding a.2.promptTokens)

def refusalText (customId : String) : Text :=
  Json.render ⟨true, true⟩ (.obj [("custom_id".toList, .str customId.toList)])

def outputText (items : List (String × Text)) (outcomes : List (Option Answer)) : Text :=
  List.intercalate ['\n'] ((deliveredOf items outcomes).map answerText)

def errorText (items : List (String × Text)) (outcomes : List (Option Answer)) : Text :=
  List.intercalate ['\n'] ((failedOf items outcomes).map refusalText)

theorem writable_answerObj {a : String × Answer} (h : Json.plain a.2.embedding = true) :
    Json.Writable (answerObj a.1 a.2.embedding a.2.promptTokens) := by
  refine Json.writable_of_plain _ ?_
  simp [answerObj, Json.plain, Json.plainEntries, Json.plainItems, h]

theorem not_blank_render {f : Json.Format} {entry : List Char × Json}
    {entries : List (List Char × Json)} (hw : Json.Writable (.obj (entry :: entries))) :
    '\n' ∉ Json.render f (.obj (entry :: entries)) ∧
      Text.strip (Json.render f (.obj (entry :: entries))) ≠ [] := by
  have hopen : '{' ∈ Json.render f (.obj (entry :: entries)) := List.mem_cons_self ..
  exact ⟨Json.newline_not_mem_render f hw, strip_ne_nil hopen (by decide)⟩

theorem served_written (hbuild : buildJsonl items model dimensions = .ok payload)
    (hcount : outcomes.length = items.length)
    (hplain : ∀ a ∈ deliveredOf items outcomes, Json.plain a.2.embedding = true) :
    Served payload outcomes ((outputText items outcomes).splitOn '\n')
      ((errorText items outcomes).splitOn '\n') := by
  have hread : (requestsIn payload).filterMap id = items.map (requestFor model dimensions) := by
    rw [requestsIn_buildJsonl hbuild, List.filterMap_map]
    exact congrFun List.filterMap_eq_map items
  have houtput : nonblank ((outputText items outcomes).splitOn '\n') =
      (deliveredOf items outcomes).map answerText := by
    refine nonblank_splitOn fun line hline => ?_
    obtain ⟨a, ha, rfl⟩ := List.mem_map.mp hline
    exact not_blank_render (writable_answerObj (hplain a ha))
  have herror : nonblank ((errorText items outcomes).splitOn '\n') =
      (failedOf items outcomes).map refusalText := by
    refine nonblank_splitOn fun line hline => ?_
    obtain ⟨customId, -, rfl⟩ := List.mem_map.mp hline
    exact not_blank_render (Json.writable_of_plain _ rfl)
  constructor
  case count => rw [requestsIn_buildJsonl hbuild, List.length_map, hcount]
  case answered =>
    rw [houtput, hread]
    refine ⟨_, List.Perm.refl _, ?_⟩
    rw [← @map_answeredOf items model dimensions outcomes, List.map_map,
      List.forall₂_map_left_iff, List.forall₂_same]
    intro a ha
    have hmem : (String.ofList a.1.customId, a.2) ∈ deliveredOf items outcomes :=
      @map_answeredOf items model dimensions outcomes ▸ List.mem_map_of_mem ha
    exact answerLine_answerObj String.toList_ofList.symm
      (Json.loads_render _ (writable_answerObj (hplain _ hmem)))
  case refused =>
    rw [herror, hread]
    refine ⟨_, List.Perm.refl _, ?_⟩
    rw [← @map_refusedOf items model dimensions outcomes, List.map_map,
      List.forall₂_map_left_iff, List.forall₂_same]
    intro request _
    refine ⟨_, Json.loads_render _ (Json.writable_of_plain _ rfl), ?_⟩
    show _ = Except.ok (Json.str request.customId)
    rw [← String.toList_ofList (l := request.customId)]
    rfl

end Written

def twoItems : List (String × Text) := [("k1", "pell\n".toList), ("k2", "grant".toList)]

def answeredLine : Text := answerText ("k2", ⟨.arr [.int 1], 2⟩)

def refusedLine : Text := refusalText "k1"

/-- The second item is answered, after a blank line; the first one is refused. -/
def twoFiles (fileId : String) : Option Text :=
  if fileId = "out" then some ('\n' :: answeredLine) else some refusedLine

theorem twoItems_accounted : ∃ payload, buildJsonl twoItems "m" 1024 = .ok payload ∧
    BatchAccounted twoItems "m" 1024 payload [none, some ⟨.arr [.int 1], 2⟩]
      (downloadVectors twoFiles (some "out") (some "err")) := by
  have hshort : ∀ item ∈ twoItems, lineBytes "m" 1024 item ≤ maxLineBytes := by
    decide +kernel
  obtain ⟨payload, hbuild⟩ := buildJsonl_ok_iff.mpr hshort
  have hrequests := requestsIn_buildJsonl hbuild
  have houtput : nonblank (fileLines twoFiles (some "out")) = [answeredLine] := by
    decide +kernel
  have herror : nonblank (fileLines twoFiles (some "err")) = [refusedLine] := by
    decide +kernel
  refine ⟨payload, hbuild, downloadVectors_accounts hbuild ⟨?_, ?_, ?_⟩⟩
  · rw [hrequests]
    rfl
  · rw [hrequests, houtput]
    refine ⟨_, List.Perm.refl _, .cons (answerLine_answerObj rfl ?_) .nil⟩
    exact Json.loads_render _ (Json.writable_of_plain _ rfl)
  · rw [hrequests, herror]
    refine ⟨_, List.Perm.refl _, .cons ⟨?_⟩ .nil⟩
    exact ⟨_, Json.loads_render _ (Json.writable_of_plain _ rfl), rfl⟩

end Doubleword

end RagParamsFinder
