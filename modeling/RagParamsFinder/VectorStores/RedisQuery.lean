/-
  The query that `sparse_search` of `server/db/redis/search.py` sends to RediSearch.

  Tags and tokens are escaped by one table, `_TAG_ESCAPE_CHARS`, which does not hold the
  backslash itself. RediSearch is outside this repository: which characters it takes for syntax
  is the parameter `special`, of which only the table's characters are assumed.

  Proved: `readQuery_eq_iff`: the query reads as the tags and the tokens that were given exactly
  when none of them has a backslash or a special character that the table leaves out.
-/
import RagParamsFinder.Chunking.Chunkers
import RagParamsFinder.Lib.Escaping
import RagParamsFinder.Lib.Traversals

namespace RagParamsFinder

open Escaping Traversals

/-! ## Escaping -/

/-- The keys of `_TAG_ESCAPE_CHARS`. -/
def tagEscapeChars : List Char :=
  [',', '.', '<', '>', '{', '}', '[', ']', '\x22', '\x27', ':', ';', '!', '@', '#', '$', '%',
    '^', '&', '*', '(', ')', '-', '+', '=', '~', '|', '?', '/', ' ']

def isEscaped (c : Char) : Bool := c ∈ tagEscapeChars

/-- `_escape_tag`. -/
def escapeTag (value : Text) : Text := escape '\\' isEscaped value

/-- `_escape_text_token`. -/
def escapeTextToken (token : Text) : Text := escape '\\' isEscaped token

/-! ## The query -/

namespace Text

/-- The loop of `str.split`, with the word it is in. -/
def splitFrom : Text → Text → List Text
  | word, [] => if word = [] then [] else [word]
  | word, c :: cs =>
      if isSpace c then (if word = [] then splitFrom [] cs else word :: splitFrom [] cs)
      else splitFrom (word ++ [c]) cs

/-- `str.split()`. -/
def split (cs : Text) : List Text := splitFrom [] cs

end Text

def beforeModel : Text := "(@embedding_model:\x7b".toList

def beforeExperiment : Text := "\x7d @experiment_id:\x7b".toList

def beforeRun : Text := "\x7d @run_id:\x7b".toList

def beforeText : Text := "\x7d) @text:(".toList

def betweenTokens : Text := " | ".toList

/-- `require_top_k`. -/
def requireTopK (topK : Int) : Except String Unit :=
  if topK ≤ 0 then .error s!"top_k must be greater than 0 (got {topK})" else .ok ()

/-- `require_embedding_model`. -/
def requireEmbeddingModel (embeddingModel : Text) : Except String Unit :=
  if embeddingModel = [] then
    .error ("embedding_model is required — chunks from different models share one index " ++
      "and must never be compared")
  else .ok ()

/-- `_tag_filter`. -/
def tagFilter (experimentId embeddingModel runId : Text) : Except String Text := do
  requireEmbeddingModel embeddingModel
  return beforeModel ++ escapeTag embeddingModel ++ beforeExperiment ++ escapeTag experimentId ++
    beforeRun ++ escapeTag runId ++ "\x7d)".toList

/-- The query of `sparse_search`; none is sent for a text without tokens. -/
def sparseQuery (queryText experimentId embeddingModel runId : Text) (topK : Int) :
    Except String (Option Text) := do
  requireTopK topK
  let tagFilter ← tagFilter experimentId embeddingModel runId
  let tokens := ((Text.split queryText).filter fun t => t.strip ≠ []).map escapeTextToken
  if tokens = [] then return none
  return some (tagFilter ++ " @text:(".toList ++ List.intercalate betweenTokens tokens ++ [')'])

/-! ## Reading -/

/-- What a query asks for: three tags, and any of the tokens. -/
structure SparseQuery where
  embeddingModel : Text
  experimentId : Text
  runId : Text
  tokens : List Text
  deriving DecidableEq, Repr

/-- The rest after a fixed part. -/
def expect (part cs : Text) : Option Text :=
  if part.isPrefixOf cs then some (cs.drop part.length) else none

/-- The tokens up to the closing parenthesis, at most as many as given. -/
def readTokens (special : Char → Bool) : Nat → Text → Option (List Text)
  | 0, _ => none
  | n + 1, cs =>
      let word := readWord '\\' special cs
      if word.2 = [')'] then some [word.1]
      else (expect betweenTokens word.2).bind fun rest =>
        (readTokens special n rest).map (word.1 :: ·)

/-- A value and the fixed part after it. -/
def readField (special : Char → Bool) (part cs : Text) : Option (Text × Text) :=
  (expect part (readWord '\\' special cs).2).map ((readWord '\\' special cs).1, ·)

/-- The query as RediSearch reads it, after its escaping rule. -/
def readQuery (special : Char → Bool) (query : Text) : Option SparseQuery := do
  let cs ← expect beforeModel query
  let (embeddingModel, cs) ← readField special beforeExperiment cs
  let (experimentId, cs) ← readField special beforeRun cs
  let (runId, cs) ← readField special beforeText cs
  let tokens ← readTokens special cs.length cs
  return ⟨embeddingModel, experimentId, runId, tokens⟩

section Reading

variable {special : Char → Bool}

theorem expect_append (part cs : Text) : expect part (part ++ cs) = some cs := by
  have hpre : part.isPrefixOf (part ++ cs) = true :=
    List.isPrefixOf_iff_prefix.mpr (List.prefix_append part cs)
  rw [expect, if_pos hpre, List.drop_left]

theorem ne_backslash {c : Char} (h : isEscaped c = true) : c ≠ '\\' := by
  rintro rfl
  exact absurd h (by decide)

section Special

variable (hspecial : ∀ c, isEscaped c = true → special c = true)

include hspecial

theorem delimits_pair {c d : Char} (hc : isEscaped c = true) (hd : isEscaped d = true)
    (cs : Text) : Delimits '\\' special (c :: d :: cs) :=
  ⟨ne_backslash hc, hspecial c hc, ne_backslash hd, hspecial d hd⟩

theorem delimits_beforeExperiment (cs : Text) :
    Delimits '\\' special (beforeExperiment ++ cs) := by
  have hpart : beforeExperiment = '}' :: ' ' :: "@experiment_id:\x7b".toList := by decide +kernel
  exact hpart ▸ delimits_pair hspecial (by decide) (by decide) _

theorem delimits_beforeRun (cs : Text) : Delimits '\\' special (beforeRun ++ cs) := by
  have hpart : beforeRun = '}' :: ' ' :: "@run_id:\x7b".toList := by decide +kernel
  exact hpart ▸ delimits_pair hspecial (by decide) (by decide) _

theorem delimits_beforeText (cs : Text) : Delimits '\\' special (beforeText ++ cs) := by
  have hpart : beforeText = '}' :: ')' :: " @text:(".toList := by decide +kernel
  exact hpart ▸ delimits_pair hspecial (by decide) (by decide) _

theorem delimits_betweenTokens (cs : Text) : Delimits '\\' special (betweenTokens ++ cs) := by
  have hpart : betweenTokens = [' ', '|', ' '] := by decide +kernel
  exact hpart ▸ delimits_pair hspecial (by decide) (by decide) _

theorem delimits_close : Delimits '\\' special [')'] :=
  ⟨ne_backslash (by decide), hspecial _ (by decide), trivial⟩

/-- A value is read back with the part after it exactly when it is safe. -/
theorem readField_eq_iff {part cs : Text} (hpart : Delimits '\\' special (part ++ cs))
    (v rest : Text) : readField special part (escapeTag v ++ (part ++ cs)) = some (v, rest) ↔
      Escapable '\\' isEscaped special v ∧ rest = cs := by
  constructor
  · intro h
    obtain ⟨rest', hrest, heq⟩ := Option.map_eq_some_iff.mp h
    obtain ⟨hword, rfl⟩ := Prod.mk.inj heq
    have hsafe := safe_of_readWord_escape hspecial hpart hword
    rw [escapeTag, readWord_escape hsafe hpart.stops, expect_append] at hrest
    exact ⟨hsafe, (Option.some.inj hrest).symm⟩
  · rintro ⟨hsafe, rfl⟩
    rw [readField, escapeTag, readWord_escape hsafe hpart.stops, expect_append]
    rfl

omit hspecial in
/-- The first token is the word that is read first. -/
theorem head_of_readTokens {n : Nat} {cs t : Text} {ts : List Text}
    (h : readTokens special (n + 1) cs = some (t :: ts)) : (readWord '\\' special cs).1 = t := by
  rw [readTokens] at h
  split at h
  · exact (List.cons.inj (Option.some.inj h)).1
  · obtain ⟨rest, -, htokens⟩ := Option.bind_eq_some_iff.mp h
    obtain ⟨ts', -, heq⟩ := Option.map_eq_some_iff.mp htokens
    exact (List.cons.inj heq).1

/-- The tokens are read back exactly when each of them is safe. -/
theorem readTokens_eq_iff {tokens : List Text} (hne : tokens ≠ []) {n : Nat}
    (hn : tokens.length ≤ n) :
    readTokens special n
        (List.intercalate betweenTokens (tokens.map escapeTextToken) ++ [')']) = some tokens ↔
      ∀ t ∈ tokens, Escapable '\\' isEscaped special t := by
  induction tokens generalizing n with
  | nil => exact absurd rfl hne
  | cons t tokens ih =>
      have hpos : 1 ≤ n := Nat.le_trans (Nat.succ_le_succ (Nat.zero_le _)) hn
      obtain ⟨n, rfl⟩ := Nat.exists_eq_add_of_le' hpos
      rw [List.forall_mem_cons]
      cases tokens with
      | nil =>
          have hclose := delimits_close hspecial
          rw [List.map_singleton, List.intercalate_singleton, escapeTextToken]
          constructor
          · intro h
            exact ⟨safe_of_readWord_escape hspecial hclose (head_of_readTokens h), by simp⟩
          · rintro ⟨hsafe, -⟩
            rw [readTokens, readWord_escape hsafe hclose.stops]
            exact if_pos rfl
      | cons u tokens =>
          have hcons : List.intercalate betweenTokens ((t :: u :: tokens).map escapeTextToken) ++
              [')'] = escapeTextToken t ++ (betweenTokens ++
                (List.intercalate betweenTokens ((u :: tokens).map escapeTextToken) ++ [')'])) := by
            simp [List.intercalate_cons_cons]
          have hbetween := delimits_betweenTokens hspecial
            (List.intercalate betweenTokens ((u :: tokens).map escapeTextToken) ++ [')'])
          have hread : Escapable '\\' isEscaped special t →
              readTokens special (n + 1) (escapeTextToken t ++ (betweenTokens ++
                (List.intercalate betweenTokens ((u :: tokens).map escapeTextToken) ++ [')']))) =
              (readTokens special n (List.intercalate betweenTokens
                ((u :: tokens).map escapeTextToken) ++ [')'])).map (t :: ·) := by
            intro hsafe
            have hlong : ¬betweenTokens ++ (List.intercalate betweenTokens
                ((u :: tokens).map escapeTextToken) ++ [')']) = [')'] := by
              intro heq
              have hlen := congrArg List.length heq
              have hthree : betweenTokens.length = 3 := by decide +kernel
              rw [List.length_append, hthree, List.length_singleton] at hlen
              omega
            rw [readTokens, escapeTextToken, readWord_escape hsafe hbetween.stops, if_neg hlong,
              expect_append]
            rfl
          have hrest := ih (List.cons_ne_nil u tokens) (Nat.le_of_succ_le_succ hn)
          rw [hcons]
          constructor
          · intro h
            have hsafe := safe_of_readWord_escape hspecial hbetween (head_of_readTokens h)
            rw [hread hsafe] at h
            obtain ⟨ts, hts, heq⟩ := Option.map_eq_some_iff.mp h
            obtain rfl := (List.cons.inj heq).2
            exact ⟨hsafe, hrest.mp hts⟩
          · rintro ⟨hsafe, hall⟩
            rw [hread hsafe, hrest.mpr hall]
            rfl

/-- A written query. -/
def writeQuery (q : SparseQuery) : Text :=
  beforeModel ++ (escapeTag q.embeddingModel ++ (beforeExperiment ++ (escapeTag q.experimentId ++
    (beforeRun ++ (escapeTag q.runId ++ (beforeText ++
      (List.intercalate betweenTokens (q.tokens.map escapeTextToken) ++ [')'])))))))

omit hspecial in
theorem length_tokens_le (tokens : List Text) : tokens.length ≤
    (List.intercalate betweenTokens (tokens.map escapeTextToken) ++ [')']).length := by
  have hthree : betweenTokens.length = 3 := by decide +kernel
  induction tokens with
  | nil => exact Nat.zero_le _
  | cons t tokens ih =>
      cases tokens with
      | nil => simp
      | cons u tokens =>
          rw [List.map_cons, List.map_cons, List.intercalate_cons_cons]
          rw [List.map_cons] at ih
          simp only [List.length_append, List.length_cons, hthree] at ih ⊢
          omega

/-- A query is read back exactly when its values are safe. -/
theorem readQuery_writeQuery_iff {q : SparseQuery} (hne : q.tokens ≠ []) :
    readQuery special (writeQuery q) = some q ↔
      ∀ v ∈ [q.embeddingModel, q.experimentId, q.runId] ++ q.tokens,
        Escapable '\\' isEscaped special v := by
  obtain ⟨embeddingModel, experimentId, runId, tokens⟩ := q
  have htokens := readTokens_eq_iff hspecial hne (length_tokens_le tokens)
  have hmodel := readField_eq_iff hspecial (delimits_beforeExperiment hspecial
    (escapeTag experimentId ++ (beforeRun ++ (escapeTag runId ++ (beforeText ++
      (List.intercalate betweenTokens (tokens.map escapeTextToken) ++ [')'])))))) embeddingModel
  have hexperiment := readField_eq_iff hspecial (delimits_beforeRun hspecial
    (escapeTag runId ++ (beforeText ++
      (List.intercalate betweenTokens (tokens.map escapeTextToken) ++ [')'])))) experimentId
  have hrun := readField_eq_iff hspecial (delimits_beforeText hspecial
    (List.intercalate betweenTokens (tokens.map escapeTextToken) ++ [')'])) runId
  simp only [List.cons_append, List.nil_append, List.forall_mem_cons]
  unfold readQuery writeQuery
  rw [expect_append, Option.bind_eq_bind, Option.bind_some]
  constructor
  · intro h
    obtain ⟨⟨_, cs⟩, hread, h⟩ := Option.bind_eq_some_iff.mp h
    obtain ⟨⟨_, cs'⟩, hread', h⟩ := Option.bind_eq_some_iff.mp h
    obtain ⟨⟨_, cs''⟩, hread'', h⟩ := Option.bind_eq_some_iff.mp h
    obtain ⟨_, hlast, h⟩ := Option.bind_eq_some_iff.mp h
    cases h
    obtain ⟨hsafe, rfl⟩ := (hmodel _).mp hread
    obtain ⟨hsafe', rfl⟩ := (hexperiment _).mp hread'
    obtain ⟨hsafe'', rfl⟩ := (hrun _).mp hread''
    exact ⟨hsafe, hsafe', hsafe'', htokens.mp hlast⟩
  · rintro ⟨hsafe, hsafe', hsafe'', hall⟩
    rw [(hmodel _).mpr ⟨hsafe, rfl⟩, Option.bind_eq_bind, Option.bind_some]
    dsimp only
    rw [(hexperiment _).mpr ⟨hsafe', rfl⟩, Option.bind_eq_bind, Option.bind_some]
    dsimp only
    rw [(hrun _).mpr ⟨hsafe'', rfl⟩, Option.bind_some]
    dsimp only
    rw [htokens.mpr hall]
    rfl

end Special

end Reading

/-! ## What is sent -/

theorem Text.strip_of_no_space {t : Text} (h : ∀ c ∈ t, isSpace c = false) : strip t = t := by
  have hdrop : ∀ cs : Text, (∀ c ∈ cs, isSpace c = false) → cs.dropWhile isSpace = cs := by
    intro cs hcs
    cases cs with
    | nil => rfl
    | cons c cs => rw [List.dropWhile_cons_of_neg (by simp [hcs c (List.mem_cons_self ..)])]
  have hrev : ∀ c ∈ t.reverse, isSpace c = false := fun c hc => h c (List.mem_reverse.mp hc)
  rw [strip, hdrop t h, hdrop t.reverse hrev, List.reverse_reverse]

/-- The words of a split are not empty and have no whitespace. -/
theorem Text.mem_splitFrom {cs word : Text} (hword : ∀ c ∈ word, isSpace c = false) :
    ∀ t ∈ splitFrom word cs, t ≠ [] ∧ ∀ c ∈ t, isSpace c = false := by
  have hnone : ∀ c ∈ ([] : Text), isSpace c = false := fun _ hc => absurd hc List.not_mem_nil
  induction cs generalizing word with
  | nil =>
      intro t ht
      rw [splitFrom] at ht
      split at ht
      · cases ht
      · rename_i hne
        rw [List.mem_singleton.mp ht]
        exact ⟨hne, hword⟩
  | cons c cs ih =>
      rw [splitFrom]
      split
      · split
        · exact ih hnone
        · rename_i hne
          exact List.forall_mem_cons.mpr ⟨⟨hne, hword⟩, ih hnone⟩
      · rename_i hspace
        refine ih fun d hd => ?_
        rcases List.mem_append.mp hd with hd | hd
        · exact hword d hd
        · rw [List.mem_singleton.mp hd]
          exact Bool.eq_false_iff.mpr hspace

theorem Text.filter_split (cs : Text) : (split cs).filter (fun t => t.strip ≠ []) = split cs := by
  rw [List.filter_eq_self]
  intro t ht
  obtain ⟨hne, hspace⟩ := mem_splitFrom (fun _ hc => absurd hc List.not_mem_nil) t ht
  rw [strip_of_no_space hspace]
  exact decide_eq_true hne

section

variable {queryText experimentId embeddingModel runId query : Text} {topK : Int}

/-- The query that is sent, if any. -/
theorem sparseQuery_eq_some
    (h : sparseQuery queryText experimentId embeddingModel runId topK = .ok (some query)) :
    Text.split queryText ≠ [] ∧
      query = writeQuery ⟨embeddingModel, experimentId, runId, Text.split queryText⟩ := by
  rw [sparseQuery, Text.filter_split] at h
  obtain ⟨-, -, h⟩ := bind_eq_ok.mp h
  obtain ⟨tags, htags, h⟩ := bind_eq_ok.mp h
  obtain ⟨-, -, htags⟩ := bind_eq_ok.mp htags
  obtain rfl := Except.ok.inj htags
  dsimp only at h
  split at h
  · cases h
  · rename_i hne
    refine ⟨fun hnil => hne (by rw [hnil]; rfl), ?_⟩
    obtain rfl := Option.some.inj (Except.ok.inj h)
    have hjoin : "\x7d)".toList ++ " @text:(".toList = beforeText := by decide +kernel
    simp only [writeQuery, ← hjoin, List.append_assoc]

/-- What a query is to say. -/
structure QuerySays (special : Char → Bool)
    (queryText experimentId embeddingModel runId query : Text) : Prop where
  tags : ∀ v ∈ [embeddingModel, experimentId, runId],
    readWord '\\' special (escapeTag v) = (v, [])
  tokens : ∀ t ∈ Text.split queryText, readWord '\\' special (escapeTextToken t) = (t, [])
  reads : readQuery special query =
    some ⟨embeddingModel, experimentId, runId, Text.split queryText⟩

theorem readWord_escape_of_safe {special : Char → Bool} {v : Text}
    (h : Escapable '\\' isEscaped special v) :
    readWord '\\' special (escape '\\' isEscaped v) = (v, []) := by
  have hstop : Stops '\\' special [] := trivial
  have hread := readWord_escape h hstop
  rwa [List.append_nil] at hread

theorem safe_iff {special : Char → Bool} {v : Text} : Escapable '\\' isEscaped special v ↔
    ∀ c ∈ v, c ≠ '\\' ∧ (special c = true → c ∈ tagEscapeChars) := by
  refine forall_congr' fun c => imp_congr_right fun _ => ?_
  have hlisted : isEscaped c = true ↔ c ∈ tagEscapeChars := decide_eq_true_iff
  constructor
  · rintro (hc | ⟨hne, hplain⟩)
    · exact ⟨ne_backslash hc, fun _ => hlisted.mp hc⟩
    · exact ⟨hne, fun hs => by rw [hplain] at hs; cases hs⟩
  · rintro ⟨hne, hs⟩
    by_cases hc : special c = true
    · exact Or.inl (hlisted.mpr (hs hc))
    · exact Or.inr ⟨hne, Bool.eq_false_iff.mpr hc⟩

/-- A query says what was asked exactly when no tag and no token has a backslash or a special
    character that the table leaves out. -/
theorem querySays_iff {special : Char → Bool}
    (hspecial : ∀ c ∈ tagEscapeChars, special c = true)
    (h : sparseQuery queryText experimentId embeddingModel runId topK = .ok (some query)) :
    QuerySays special queryText experimentId embeddingModel runId query ↔
      ∀ v ∈ [embeddingModel, experimentId, runId] ++ Text.split queryText,
        ∀ c ∈ v, c ≠ '\\' ∧ (special c = true → c ∈ tagEscapeChars) := by
  obtain ⟨hne, rfl⟩ := sparseQuery_eq_some h
  have hread := readQuery_writeQuery_iff (fun c hc => hspecial c (of_decide_eq_true hc))
    (q := ⟨embeddingModel, experimentId, runId, Text.split queryText⟩) hne
  simp only [← safe_iff]
  constructor
  · exact fun hsays => hread.mp hsays.reads
  · intro hsafe
    have hsafe' := List.forall_mem_append.mp hsafe
    exact ⟨fun v hv => readWord_escape_of_safe (hsafe'.1 v hv),
      fun t ht => readWord_escape_of_safe (hsafe'.2 t ht), hread.mpr hsafe⟩

end

/-! ## A backslash -/

/-- The punctuation marks that RediSearch separates words at, and whitespace. -/
def redisSyntax (c : Char) : Bool :=
  c ∈ tagEscapeChars || c == '\\' || c.toNat == 96 || Text.isSpace c

theorem redisSyntax_of_mem {c : Char} (h : c ∈ tagEscapeChars) : redisSyntax c = true := by
  simp [redisSyntax, h]

/-- A backslash at the end of a token takes the closing parenthesis for a character. -/
theorem backslash_swallows_parenthesis :
    ¬∀ (special : Char → Bool) (queryText experimentId embeddingModel runId query : Text)
      (topK : Int), (∀ c ∈ tagEscapeChars, special c = true) →
      sparseQuery queryText experimentId embeddingModel runId topK = .ok (some query) →
      QuerySays special queryText experimentId embeddingModel runId query := by
  intro h
  have hsays := h redisSyntax "C:\\".toList ['e'] ['m'] ['r']
    ("(@embedding_model:\x7bm\x7d @experiment_id:\x7be\x7d " ++
      "@run_id:\x7br\x7d) @text:(C\\:\\)").toList 5 (fun _ => redisSyntax_of_mem)
    (by decide +kernel)
  exact absurd hsays.reads (by decide +kernel)

theorem plain_words_read_back :
    (∀ c ∈ tagEscapeChars, redisSyntax c = true) ∧
      (QuerySays redisSyntax ['a', ' ', 'b'] ['e'] ['m'] ['r']
          ("(@embedding_model:\x7bm\x7d @experiment_id:\x7be\x7d " ++
            "@run_id:\x7br\x7d) @text:(a | b)").toList ↔
        ∀ v ∈ [['m'], ['e'], ['r']] ++ Text.split ['a', ' ', 'b'],
          ∀ c ∈ v, c ≠ '\\' ∧ (redisSyntax c = true → c ∈ tagEscapeChars)) := by
  have hspecial : ∀ c ∈ tagEscapeChars, redisSyntax c = true := fun _ => redisSyntax_of_mem
  have hquery : sparseQuery ['a', ' ', 'b'] ['e'] ['m'] ['r'] 5 = .ok (some
      ("(@embedding_model:\x7bm\x7d @experiment_id:\x7be\x7d " ++
        "@run_id:\x7br\x7d) @text:(a | b)").toList) := by
    decide +kernel
  exact ⟨hspecial, querySays_iff hspecial hquery⟩

end RagParamsFinder
