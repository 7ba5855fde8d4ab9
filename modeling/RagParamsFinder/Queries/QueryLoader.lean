/-
  Loading of queries files from URLs, over `server/core/query_loader.py`.

  A downloaded file is kept in `configs/` under the last part of its URL's path, and a file
  that is there under that name is taken for the answer: what it was downloaded from and
  whether it was written to its end is not asked. `Files` is the directory, one byte string
  for each name; a label of the machine is a call with what its download, if it makes one,
  comes to.

  Left open: `loads`, the text of a file read and parsed as JSON, `served`, what each URL
  serves, and `hostRefused`, the checks of a host by `urlparse`.

  Proved:
  * `neverConfused_iff`: a run of calls from an empty directory answers each with the queries
    of its own URL, and leaves no file that answers a URL wrongly, exactly when URLs of one
    file name serve the same content, no call is cut short in a new file, and no call for
    `..` has queries to give.
-/
import Mathlib.Data.List.DropRight
import RagParamsFinder.Export.Selection
import RagParamsFinder.Lib.ReadThrough
import RagParamsFinder.Lib.StepMachine

namespace RagParamsFinder

open Documents StepMachine ReadThrough

/-! ## `urlparse` -/

/-- Leading control characters and blanks, and tabs and line ends anywhere, are dropped. -/
def cleanUrl (url : List Char) : List Char :=
  (url.dropWhile fun c => c.toNat ≤ 0x20).filter fun c => c ≠ '\t' ∧ c ≠ '\r' ∧ c ≠ '\n'

/-- `scheme_chars`. -/
def isSchemeChar (c : Char) : Bool := c.isAlphanum || c = '+' || c = '-' || c = '.'

/-- The scheme, in lower case, and what follows it. -/
def splitScheme (url : List Char) : List Char × List Char :=
  let scheme := url.takeWhile (· ≠ ':')
  match url.dropWhile (· ≠ ':') with
  | _ :: rest =>
      if scheme.head?.any Char.isAlpha ∧ scheme.all isSchemeChar then
        (scheme.map Char.toLower, rest)
      else ([], url)
  | [] => ([], url)

/-- `_splitnetloc`, where there are the two slashes. -/
def splitNetloc : List Char → List Char × List Char
  | '/' :: '/' :: rest => rest.span fun c => c ≠ '/' ∧ c ≠ '?' ∧ c ≠ '#'
  | url => ([], url)

/-- The text before the first `c`. -/
def cutAt (c : Char) (text : List Char) : List Char := text.takeWhile (· ≠ c)

/-- `_splitparams`: the last segment ends at its first semicolon. -/
def dropParams (path : List Char) : List Char :=
  path.rdropWhile (· ≠ '/') ++ cutAt ';' (path.rtakeWhile (· ≠ '/'))

structure ParsedUrl where
  scheme : List Char
  path : List Char
  deriving DecidableEq

/-- `urlparse`; `none` is `ValueError`. Only the two schemes that `_is_url` looks for are
    told apart, and both take parameters. -/
def urlparse (hostRefused : List Char → Bool) (url : String) : Option ParsedUrl :=
  let (scheme, rest) := splitScheme (cleanUrl url.toList)
  let (netloc, rest) := splitNetloc rest
  if '[' ∈ netloc ∧ ']' ∉ netloc ∨ ']' ∈ netloc ∧ '[' ∉ netloc then none
  else if hostRefused netloc then none
  else some ⟨scheme, dropParams (cutAt '?' (cutAt '#' rest))⟩

/-- `_is_url`. -/
def ParsedUrl.isUrl (parsed : ParsedUrl) : Bool :=
  parsed.scheme = "http".toList || parsed.scheme = "https".toList

/-- A `queries_file` that `resolve_queries_file` downloads. -/
structure RemoteUrl (hostRefused : List Char → Bool) where
  text : String
  parsed : ParsedUrl
  parses : urlparse hostRefused text = some parsed
  remote : parsed.isUrl = true

/-! ## The queries of a file -/

structure Query where
  text : Value
  personaId : Value
  focus : Value

/-- The elements of a value that are then indexed with a string; `none` is `TypeError`, also
    for an element that is not a dictionary. -/
def docsOf : Value → Option (List Doc)
  | .list vs => vs.mapM fun
      | .dict d => some d
      | _ => none
  | .dict [] => some []
  | .str "" => some []
  | _ => none

def queryOf (personaId : Value) (question : Doc) : Option Query :=
  (question.item "text").map fun text =>
    { text := text, personaId := personaId, focus := question.get "focus" }

/-- The body of the loop over the personas; `none` is `KeyError` or `TypeError`. -/
def personaQueries (persona : Doc) : Option (List Query) := do
  let personaId ← persona.item "id"
  let questions ← docsOf (persona.getDefault "questions" (.list []))
  questions.mapM (queryOf personaId)

/-- What `load_queries` makes of the parsed file; `none` where it raises. -/
def loadedQueries : Value → Option (List Query)
  | .dict data => do
      let personas ← docsOf (Doc.getDefault data "personas" (.list []))
      let queries ← personas.mapM personaQueries
      return queries.flatten
  | _ => none

/-! ## The cache -/

/-- The regular files in `configs/`. -/
abbrev Files := String → Option (List UInt8)

/-- The one name of an entry in `configs/` that no download made: a directory. -/
def parentDir : String := ".."

/-- `local_path.exists()`. -/
def localExists (files : Files) (name : String) : Bool :=
  name = parentDir ∨ (files name).isSome

/-- `path.read_text()`, before the decoding; `none` where it raises. -/
def readBytes (files : Files) (name : String) : Option (List UInt8) :=
  if name = parentDir then none else files name

/-- What the request for a file and the writing of it come to, where the call makes one. -/
inductive Download where
  | completes
  /-- No file is opened: no response, a bad status, no file of that name. -/
  | fails
  /-- `write_bytes` ends after so many bytes: a full disk, a killed process. -/
  | interrupted (written : Nat)

section Loader

variable {hostRefused : List Char → Bool}

/-- `Path(urlparse(url).path).name or "queries.json"`. -/
def RemoteUrl.filename (url : RemoteUrl hostRefused) : String :=
  let name := fileName (String.ofList url.parsed.path)
  if name = "" then "queries.json" else name

variable (loads : List UInt8 → Option Value) (served : RemoteUrl hostRefused → List UInt8)

/-- `_download_queries`: the directory after it and the name it returns; `none` where it
    raises. -/
def downloadQueries (files : Files) (url : RemoteUrl hostRefused) (download : Download) :
    Files × Option String :=
  let filename := url.filename
  if localExists files filename then (files, some filename)
  else
    match download with
    | .completes => (put files filename (served url), some filename)
    | .fails => (files, none)
    | .interrupted written => (put files filename ((served url).take written), none)

/-- The queries of a content; `none` where `load_queries` raises on it. -/
def queriesIn (content : List UInt8) : Option (List Query) := (loads content).bind loadedQueries

/-- `load_queries` for a URL: the directory after it and what it returns. -/
def loadQueries (files : Files) (url : RemoteUrl hostRefused) (download : Download) :
    Files × Option (List Query) :=
  let (files', path) := downloadQueries served files url download
  (files', (path.bind (readBytes files')).bind (queriesIn loads))

theorem loadQueries_of_exists {files : Files} {url : RemoteUrl hostRefused}
    (h : localExists files url.filename = true) (download : Download) :
    loadQueries loads served files url download =
      (files, (readBytes files url.filename).bind (queriesIn loads)) := by
  simp [loadQueries, downloadQueries, h]

theorem ne_parentDir {files : Files} {name : String} (h : localExists files name = false) :
    name ≠ parentDir := by
  rintro rfl
  simp [localExists] at h

theorem readBytes_parentDir (files : Files) {name : String} (h : name = parentDir) :
    readBytes files name = none := by
  unfold readBytes
  rw [if_pos h]

theorem readBytes_of_ne (files : Files) {name : String} (h : name ≠ parentDir) :
    readBytes files name = files name := by
  unfold readBytes
  rw [if_neg h]

theorem loadQueries_completes {files : Files} {url : RemoteUrl hostRefused}
    (h : localExists files url.filename = false) :
    loadQueries loads served files url .completes =
      (put files url.filename (served url), queriesIn loads (served url)) := by
  have hread : readBytes (put files url.filename (served url)) url.filename =
      some (served url) := by
    rw [readBytes_of_ne _ (ne_parentDir h), put_self]
  simp [loadQueries, downloadQueries, h, hread]

theorem loadQueries_fails {files : Files} {url : RemoteUrl hostRefused}
    (h : localExists files url.filename = false) :
    loadQueries loads served files url .fails = (files, none) := by
  simp [loadQueries, downloadQueries, h]

theorem loadQueries_interrupted {files : Files} {url : RemoteUrl hostRefused}
    (h : localExists files url.filename = false) (written : Nat) :
    loadQueries loads served files url (.interrupted written) =
      (put files url.filename ((served url).take written), none) := by
  simp [loadQueries, downloadQueries, h]

/-- A call for one of the URLs. -/
structure LoadCall (urls : Set (RemoteUrl hostRefused)) where
  url : RemoteUrl hostRefused
  mem : url ∈ urls
  download : Download

variable {urls : Set (RemoteUrl hostRefused)}

def loaderStep (files : Files) (c : LoadCall urls) : Option Files :=
  some (loadQueries loads served files c.url c.download).1

/-! ## Remote files are never confused -/

/-- A call returns the queries of its own content or nothing, and not nothing where its
    download completes. -/
def AnswersOwn (files : Files) (c : LoadCall urls) : Prop :=
  (∀ queries, (loadQueries loads served files c.url c.download).2 = some queries →
      queriesIn loads (served c.url) = some queries) ∧
    (c.download = .completes →
      (loadQueries loads served files c.url c.download).2 = queriesIn loads (served c.url))

/-- Two URLs are given the same local file only if they serve the same content. -/
def MapsApart (urls : Set (RemoteUrl hostRefused)) (files : Files) : Prop :=
  ∀ r ∈ urls, ∀ s ∈ urls, ∀ path, (downloadQueries served files r .completes).2 = some path →
    (downloadQueries served files s .completes).2 = some path → served r = served s

/-- URLs share a file only if they serve the same content, and each call answers its own URL
    and leaves no file that answers one of the URLs wrongly. -/
def NeverConfused (calls : List (LoadCall urls)) : Prop :=
  MapsApart served urls (fun _ => none) ∧
    EveryStep (loaderStep loads served)
      (fun files c files' =>
        AnswersOwn loads served files c ∧ Coherent RemoteUrl.filename served urls files' ∧
          MapsApart served urls files')
      (fun _ => none) calls

/-- The call is interrupted with a part of a new file written. -/
def CutShort (files : Files) (c : LoadCall urls) : Prop :=
  localExists files c.url.filename = false ∧
    ∃ written < (served c.url).length, c.download = .interrupted written

/-- The call goes through, and opens the directory above `configs/` for its queries. -/
def OpensDirectory (c : LoadCall urls) : Prop :=
  c.url.filename = parentDir ∧ c.download = .completes ∧
    (queriesIn loads (served c.url)).isSome = true

/-- URLs of one file name serve the same content, and no call is cut short or opens the
    directory. -/
def KeptApart (calls : List (LoadCall urls)) : Prop :=
  Apart RemoteUrl.filename served urls ∧
    EveryStep (loaderStep loads served)
      (fun files c _ => ¬CutShort served files c ∧ ¬OpensDirectory loads served c)
      (fun _ => none) calls

section Coherence

variable {loads : List UInt8 → Option Value} {served : RemoteUrl hostRefused → List UInt8}

theorem downloadQueries_path (files : Files) (url : RemoteUrl hostRefused) :
    (downloadQueries served files url .completes).2 = some url.filename := by
  unfold downloadQueries
  cases hexists : localExists files url.filename with
  | true => simp [hexists]
  | false => simp [hexists]

/-- Whatever is in the directory, the file name alone decides. -/
theorem mapsApart_iff {files : Files} :
    MapsApart served urls files ↔ Apart RemoteUrl.filename served urls := by
  unfold MapsApart
  simp only [downloadQueries_path, Option.some.injEq]
  constructor
  · intro h r hr s hs hname
    exact h r hr s hs s.filename hname rfl
  · intro h r hr s hs path hpath hpath'
    exact h r hr s hs (hpath.trans hpath'.symm)

/-- A file that is there, and that is a file, is the one the URL serves. -/
theorem readBytes_of_coherent {files : Files} (h : Coherent RemoteUrl.filename served urls files)
    {url : RemoteUrl hostRefused} (hurl : url ∈ urls)
    (hexists : localExists files url.filename = true) (hname : url.filename ≠ parentDir) :
    readBytes files url.filename = some (served url) := by
  rw [readBytes_of_ne files hname]
  have hfile : (files url.filename).isSome = true := by
    simpa [localExists, hname] using hexists
  obtain ⟨content, hcontent⟩ := Option.isSome_iff_exists.mp hfile
  rw [hcontent, h url hurl content hcontent]

/-- The step: a call on a directory whose files are all what their URLs serve. -/
theorem answersOwn_and_coherent {files : Files} {c : LoadCall urls}
    (hapart : Apart RemoteUrl.filename served urls)
    (h : Coherent RemoteUrl.filename served urls files)
    (hcut : ¬CutShort served files c) (hopens : ¬OpensDirectory loads served c) :
    AnswersOwn loads served files c ∧ Coherent RemoteUrl.filename served urls
      (loadQueries loads served files c.url c.download).1 := by
  obtain ⟨url, hurl, download⟩ := c
  unfold AnswersOwn
  cases hexists : localExists files url.filename with
  | true =>
      rw [loadQueries_of_exists loads served hexists]
      refine ⟨?_, h⟩
      by_cases hname : url.filename = parentDir
      · rw [readBytes_parentDir files hname]
        refine ⟨nofun, fun hdone => ?_⟩
        -- the call raises, as it has to where the content holds no queries
        cases hown : queriesIn loads (served url) with
        | none => rfl
        | some queries => exact absurd ⟨hname, hdone, by rw [hown]; rfl⟩ hopens
      · rw [readBytes_of_coherent h hurl hexists hname]
        exact ⟨fun queries hq => hq, fun _ => rfl⟩
  | false =>
      have hput : Coherent RemoteUrl.filename served urls
          (put files url.filename (served url)) := h.put hapart hurl
      cases download with
      | completes =>
          rw [loadQueries_completes loads served hexists]
          dsimp only
          exact ⟨⟨fun queries hq => hq, fun _ => rfl⟩, hput⟩
      | fails =>
          rw [loadQueries_fails loads served hexists]
          exact ⟨⟨nofun, nofun⟩, h⟩
      | interrupted written =>
          have hwhole : (served url).length ≤ written :=
            Nat.le_of_not_lt fun hlt => hcut ⟨hexists, written, hlt, rfl⟩
          rw [loadQueries_interrupted loads served hexists]
          dsimp only
          refine ⟨⟨nofun, nofun⟩, ?_⟩
          rw [List.take_of_length_le hwhole]
          exact hput

/-- A call that is cut short leaves a file that does not answer its URL. -/
theorem not_coherent_of_cutShort {files : Files} {c : LoadCall urls}
    (h : CutShort served files c) : ¬Coherent RemoteUrl.filename served urls
      (loadQueries loads served files c.url c.download).1 := by
  obtain ⟨hexists, written, hlt, hdownload⟩ := h
  rw [hdownload, loadQueries_interrupted loads served hexists]
  dsimp only
  refine not_coherent_put files c.mem fun hcut => ?_
  have hlength := congrArg List.length hcut
  rw [List.length_take] at hlength
  omega

/-- A call that opens the directory does not return the queries that it downloaded. -/
theorem not_answersOwn_of_opensDirectory {files : Files} {c : LoadCall urls}
    (h : OpensDirectory loads served c) : ¬AnswersOwn loads served files c := by
  obtain ⟨hname, hdone, hown⟩ := h
  rintro ⟨-, hresult⟩
  have hexists : localExists files c.url.filename = true := by
    simp [localExists, hname]
  have hnone := hresult hdone
  rw [loadQueries_of_exists loads served hexists, readBytes_parentDir files hname] at hnone
  rw [← hnone] at hown
  cases hown

/-- Two calls are confused if the second goes through and does not return its own queries. -/
theorem not_neverConfused_pair {c d : LoadCall urls} (hdone : d.download = .completes)
    (hother : (loadQueries loads served (loadQueries loads served (fun _ => none) c.url
      c.download).1 d.url d.download).2 ≠ queriesIn loads (served d.url)) :
    ¬NeverConfused loads served [c, d] := by
  rintro ⟨-, hrun⟩
  obtain ⟨-, hrest⟩ := hrun _ rfl
  obtain ⟨⟨⟨-, hown⟩, -⟩, -⟩ := hrest _ rfl
  exact hother (hown hdone)

/-- Calls for remote files are not confused exactly where their names keep them apart. -/
theorem neverConfused_iff (loads : List UInt8 → Option Value)
    (served : RemoteUrl hostRefused → List UInt8) (calls : List (LoadCall urls)) :
    NeverConfused loads served calls ↔ KeptApart loads served calls := by
  constructor
  · rintro ⟨hmaps, hrun⟩
    refine ⟨mapsApart_iff.mp hmaps, everyStep_mono (fun files c files' hstep hq => ?_) hrun⟩
    obtain ⟨hanswers, hcoherent, -⟩ := hq
    have hfiles := Option.some.inj hstep
    subst hfiles
    exact ⟨fun hcut => not_coherent_of_cutShort hcut hcoherent,
      fun hopens => not_answersOwn_of_opensDirectory hopens hanswers⟩
  · rintro ⟨hapart, hrun⟩
    have hmaps : ∀ files, MapsApart served urls files := fun _ => mapsApart_iff.mpr hapart
    refine ⟨hmaps _, everyStep_of_inv (fun files c files' hcoherent hstep hg => ?_)
      (coherent_empty RemoteUrl.filename served urls) hrun⟩
    obtain ⟨hcut, hopens⟩ := hg
    have hfiles := Option.some.inj hstep
    subst hfiles
    obtain ⟨hanswers, hkept⟩ := answersOwn_and_coherent hapart hcoherent hcut hopens
    exact ⟨hkept, hanswers, hkept, hmaps _⟩

end Coherence

end Loader

/-! ## Two files of one name -/

/-- A queries file of one question, as ASCII. -/
def oneQuestionFile (question : String) : List UInt8 :=
  ("\x7b\"personas\": [\x7b\"id\": \"p\", \"questions\": [\x7b\"text\": \"" ++ question ++
    "\"\x7d]\x7d]\x7d").toList.map fun c => c.toNat.toUInt8

/-- What `json.loads` makes of it. -/
def oneQuestion (question : String) : Value :=
  .dict [("personas", .list [.dict [("id", .str "p"),
    ("questions", .list [.dict [("text", .str question)]])]])]

def loadsOneQuestion (content : List UInt8) : Option Value :=
  (["hotels?", "banks?"].find? fun question => content = oneQuestionFile question).map oneQuestion

def hotelsUrl : RemoteUrl fun _ => false where
  text := "https://hotels.example/queries.json"
  parsed := ⟨"https".toList, "/queries.json".toList⟩
  parses := by decide
  remote := by decide

def banksUrl : RemoteUrl fun _ => false where
  text := "https://banks.example/queries.json?v=2"
  parsed := ⟨"https".toList, "/queries.json".toList⟩
  parses := by decide
  remote := by decide

def servesOneQuestion (url : RemoteUrl fun _ => false) : List UInt8 :=
  oneQuestionFile (if url.text = hotelsUrl.text then "hotels?" else "banks?")

def loadCall (url : RemoteUrl fun _ => false) (download : Download) :
    LoadCall (Set.univ : Set (RemoteUrl fun _ => false)) :=
  ⟨url, Set.mem_univ url, download⟩

/-- Which of the queries ask about hotels. -/
def askHotels (result : Option (List Query)) : Option (List Bool) :=
  result.map fun queries => queries.map fun query => query.text.isStr "hotels?"

/-- The second URL is answered with the queries of the first, and a file that was cut short
    is taken for the answer by the next call, which raises. -/
theorem filename_confuses :
    ¬NeverConfused loadsOneQuestion servesOneQuestion
        [loadCall hotelsUrl .completes, loadCall banksUrl .completes] ∧
      ¬NeverConfused loadsOneQuestion servesOneQuestion
        [loadCall hotelsUrl (.interrupted 20), loadCall hotelsUrl .completes] := by
  refine ⟨not_neverConfused_pair rfl fun hown => ?_, not_neverConfused_pair rfl fun hown => ?_⟩
  · exact absurd (congrArg askHotels hown) (by decide +kernel)
  · exact absurd (congrArg askHotels hown) (by decide +kernel)

end RagParamsFinder
