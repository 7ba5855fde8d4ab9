/-
  The embedders that call a service or a local model: `embedder.py`, `sie_embedder.py` and
  `local_embedder.py` of `server/core/embedding`, with `call_with_retry` of `rate_limiter.py`.

  An embedder is a program of four calls: the control check that a run hands in, the rate
  limiter's `wait`, a request, and a sleep. A list of texts is split into requests, which are
  made one after another; what a service calls a temporary failure is tried again.

  The clients, the semaphore of the SIE requests, the cache of loaded models, the thread pool
  and the log are left out. A retry delay is an exact number; an infinite one is left out.
-/
import Mathlib.Algebra.Order.Ring.Rat
import RagParamsFinder.Chunking.Chunkers
import RagParamsFinder.Embedding.ContextSegments
import RagParamsFinder.Lib.Programs
import RagParamsFinder.Lib.Slices
import RagParamsFinder.Lifecycle.Shared

namespace RagParamsFinder

open Programs Slices

namespace Embedders

/-! ## Calls -/

/-- An exception of a service: whether it is Voyage's `RateLimitError`, its text, and what
    `get` gives for a header of its response. -/
structure ServiceError where
  rateLimit : Bool
  message : String
  header : String → Option String

/-- `client.embed`, `client.contextualized_embed`, `SIEClient.encode` with items
    `{"text": t}`, and `SentenceTransformer.encode`. -/
inductive EmbedRequest where
  | embed (texts : List String) (model inputType : String)
  | contextualizedEmbed (inputs : List Segment) (model inputType : String)
  | sieEncode (model : String) (items : List String)
  | localEncode (model : String) (texts : List String)
  deriving DecidableEq

/-- The texts that a request asks vectors for. -/
def EmbedRequest.texts : EmbedRequest → List String
  | .embed texts _ _ => texts
  | .contextualizedEmbed inputs _ _ => inputs.flatten
  | .sieEncode _ items => items
  | .localEncode _ texts => texts

/-- `item["dense"]` of an SIE answer; `notVector` has the type's name. -/
inductive Dense (φ : Type) where
  | vector (v : List φ)
  | missing
  | notVector (type : String)

abbrev EmbedRequest.Response (φ : Type) : EmbedRequest → Type
  | .embed _ _ _ => List (List φ)
  | .contextualizedEmbed _ _ _ => List (List (List φ))
  | .sieEncode _ _ => List (Dense φ)
  | .localEncode _ _ => List (List φ)

inductive EmbedCall where
  | cancelCheck
  | wait (estimatedTokens : Nat)
  | send (request : EmbedRequest)
  | sleep (seconds : Rat)

/-- `wait` answers `false` when it raises: a limiter that allows no request has no oldest one. -/
abbrev EmbedCall.Answer (φ : Type) : EmbedCall → Type
  | .cancelCheck => Signal
  | .wait _ => Bool
  | .send request => Except ServiceError (request.Response φ)
  | .sleep _ => Unit

/-- What an embedder raises. -/
inductive Raised where
  | cancelled
  | paused
  | service (e : ServiceError)
  | indexError (message : String)
  | keyError (key : String)
  | typeError (message : String)
  | valueError (message : String)
  | runtimeError (message : String)
  | sieUnavailable (message : String)

abbrev Embedding (φ α : Type) := Program EmbedCall (EmbedCall.Answer φ) Raised α

section

variable {φ : Type}

/-- `if cancel_check is not None: cancel_check()`. -/
def runCancelCheck (cancelCheck : Bool) : Embedding φ Unit :=
  if cancelCheck then
    .call .cancelCheck fun
      | .clear => .done ()
      | .cancelled => .raise .cancelled
      | .paused => .raise .paused
  else .done ()

/-- `limiter.wait`. -/
def wait (estimatedTokens : Nat) : Embedding φ Unit :=
  .call (.wait estimatedTokens) fun
    | true => .done ()
    | false => .raise (.indexError "deque index out of range")

/-- `time.sleep`. -/
def sleep (seconds : Rat) : Embedding φ Unit := .call (.sleep seconds) fun _ => .done ()

/-- `xs[0]`. -/
def firstOf {α : Type} : List α → Embedding φ α
  | [] => .raise (.indexError "list index out of range")
  | x :: _ => .done x

/-- `_to_float_vector(item["dense"])`. -/
def Dense.toFloatVector : Dense φ → Embedding φ (List φ)
  | .vector v => .done v
  | .missing => .raise (.keyError "dense")
  | .notVector type => .raise (.typeError s!"Expected vector-like object, got {type}")

def toFloatVectors : List (Dense φ) → Embedding φ (List (List φ))
  | [] => .done []
  | item :: items => do
      let v ← item.toFloatVector
      let vs ← toFloatVectors items
      return v :: vs

/-- The vectors of a response, one list. -/
def EmbedRequest.vectorsIn : (request : EmbedRequest) → request.Response φ →
    Embedding φ (List (List φ))
  | .embed _ _ _, embeddings => .done embeddings
  | .contextualizedEmbed _ _ _, results => .done results.flatten
  | .sieEncode _ _, items => toFloatVectors items
  | .localEncode _ _, rows => .done rows

/-! ## Retries -/

/-- `MAX_RETRIES`. -/
def maxRetries : Nat := 5

/-- `INITIAL_BACKOFF_S`. -/
def initialBackoffS : Rat := 25

/-- The loop of `call_with_retry`, over the attempts to come. -/
def retryFrom (request : EmbedRequest) (estimatedTokens : Nat) (cancelCheck : Bool) :
    List Nat → Rat → Embedding φ (request.Response φ)
  | [], _ => .raise (.runtimeError "unreachable")
  | attempt :: attempts, backoff => do
      runCancelCheck cancelCheck
      wait estimatedTokens
      .call (.send request) fun
        | .ok response => .done response
        | .error e =>
            if e.rateLimit then
              if attempt = maxRetries then .raise (.service e)
              else do
                sleep backoff
                retryFrom request estimatedTokens cancelCheck attempts (backoff * 2)
            else .raise (.service e)

/-- `call_with_retry`. -/
def callWithRetry (request : EmbedRequest) (estimatedTokens : Nat) (cancelCheck : Bool) :
    Embedding φ (request.Response φ) :=
  retryFrom request estimatedTokens cancelCheck (List.range' 1 maxRetries) initialBackoffS

/-- `_SIE_ENCODE_MAX_RETRIES`. -/
def sieEncodeMaxRetries : Nat := 3

/-- `_SIE_INITIAL_RETRY_DELAY_S`. -/
def sieInitialRetryDelayS : Rat := 1 / 2

/-- The markers of `_is_retryable_sie_error`. -/
def retryableMarkers : List String :=
  ["429", "rate limit", "too many requests", "503", "504", "gateway timeout", "unavailable",
    "service unavailable"]

/-- `str(exc).lower()`. -/
def ServiceError.lower (e : ServiceError) : List Char := e.message.toList.map Char.toLower

/-- `_is_retryable_sie_error`. -/
def isRetryableSieError (e : ServiceError) : Bool :=
  retryableMarkers.any fun marker => decide (marker.toList <:+: e.lower)

/-- The number of a match of `[0-9]+\.?[0-9]*`. -/
def numberOf (whole frac : List Char) : Rat :=
  let digits := (whole ++ frac).foldl (fun n c => 10 * n + (c.toNat - '0'.toNat)) 0
  digits / 10 ^ frac.length

/-- A match of `\s*[:=]\s*([0-9]+\.?[0-9]*)` at the head of a text. -/
def matchSeconds (cs : List Char) : Option Rat :=
  match cs.dropWhile Text.isSpace with
  | [] => none
  | c :: cs =>
      if c = ':' ∨ c = '=' then
        let cs := cs.dropWhile Text.isSpace
        let whole := cs.takeWhile Char.isDigit
        if whole = [] then none
        else match cs.dropWhile Char.isDigit with
          | '.' :: cs => some (numberOf whole (cs.takeWhile Char.isDigit))
          | _ => some (numberOf whole [])
      else none

/-- A match of `retry[- ]?after…` at the head of a text. -/
def matchRetryAfter (cs : List Char) : Option Rat :=
  ["retryafter", "retry-after", "retry after"].findSome? fun key =>
    if key.toList <+: cs then matchSeconds (cs.drop key.length) else none

/-- `_extract_retry_after_seconds`; `float` reads a header's number. An empty header is passed
    over, and one that is no number leaves the text to be searched. -/
def extractRetryAfterSeconds (float : String → Option Rat) (e : ServiceError) : Option Rat :=
  let header := (e.header "Retry-After").filter (· ≠ "") <|>
    (e.header "retry-after").filter (· ≠ "")
  match header.bind float with
  | some value => some (max 0 value)
  | none => e.lower.tails.findSome? matchRetryAfter

/-- `_extract_retry_after_seconds(exc) or delay`: zero is passed over. -/
def retryDelayAfter (float : String → Option Rat) (e : ServiceError) (delay : Rat) : Rat :=
  ((extractRetryAfterSeconds float e).filter (· ≠ 0)).getD delay

/-- The loop of `_encode_with_retries`, over the attempts to come. -/
def encodeFrom (float : String → Option Rat) (request : EmbedRequest) :
    List Nat → Rat → Embedding φ (request.Response φ)
  | [], _ => .raise (.runtimeError "SIE encode retries exhausted.")
  | attempt :: attempts, delay =>
      .call (.send request) fun
        | .ok response => .done response
        | .error e =>
            if !isRetryableSieError e ∨ attempt = sieEncodeMaxRetries then .raise (.service e)
            else do
              let retryDelay := retryDelayAfter float e delay
              sleep retryDelay
              encodeFrom float request attempts (if retryDelay = delay then delay * 2 else delay)

/-- `_encode_with_retries`. -/
def encodeWithRetries (float : String → Option Rat) (request : EmbedRequest) :
    Embedding φ (request.Response φ) :=
  encodeFrom float request (List.range' 1 sieEncodeMaxRetries) sieInitialRetryDelayS

/-- `model.encode`, which is tried once. -/
def encodeOnce (request : EmbedRequest) : Embedding φ (request.Response φ) :=
  .call (.send request) fun
    | .ok response => .done response
    | .error e => .raise (.service e)

/-! ## Documents -/

/-- The loop over the requests: a check, the attempts, and the vectors of the answer. -/
def embedEach (cancelCheck : Bool)
    (attempt : (request : EmbedRequest) → Embedding φ (request.Response φ))
    (requests : List EmbedRequest) : Embedding φ (List (List φ)) :=
  foldM (fun allEmbeddings request => do
    runCancelCheck cancelCheck
    let response ← attempt request
    let vectors ← request.vectorsIn response
    return allEmbeddings ++ vectors) [] requests

/-- What the embedders read of the settings, `tokens` for the length of a text's encoding by
    tiktoken. -/
structure EmbedSettings where
  voyageApiKey : String
  voyageTpmLimit : Int
  tokens : String → Nat
  float : String → Option Rat

variable (settings : EmbedSettings)

/-- `get_client` of `embedder.py`. -/
def getClient : Embedding φ Unit :=
  if settings.voyageApiKey = "" then
    .raise (.valueError "VOYAGE_API_KEY not set in .env or environment")
  else .done ()

/-- The requests of `_embed_documents_voyage`. -/
def voyageBatchRequests (texts : List String) (model : String) : List EmbedRequest :=
  (splitIntoBatches texts (tokenBudgetPerRequest settings.voyageTpmLimit) none).map fun batch =>
    .embed batch model "document"

/-- `_embed_documents_voyage`. -/
def embedDocumentsVoyageBatches (texts : List String) (model : String) (cancelCheck : Bool) :
    Embedding φ (List (List φ)) := do
  getClient settings
  embedEach cancelCheck
    (fun request => callWithRetry request (estimateTokens request.texts) cancelCheck)
    (voyageBatchRequests settings texts model)

/-- The requests of `_embed_documents_voyage_context`. -/
def voyageContextRequests (texts : List String) (model : String) : List EmbedRequest :=
  (contextRequests settings.tokens texts).map fun r =>
    .contextualizedEmbed r.segments model "document"

/-- `_embed_documents_voyage_context`. -/
def embedDocumentsVoyageContext (texts : List String) (model : String) (cancelCheck : Bool) :
    Embedding φ (List (List φ)) :=
  if texts = [] then .done []
  else match validateContextChunkSizes settings.tokens texts with
    | .error message => .raise (.valueError message)
    | .ok () => do
        getClient settings
        let allEmbeddings ← embedEach cancelCheck
          (fun request =>
            callWithRetry request (countContextTokens settings.tokens request.texts) cancelCheck)
          (voyageContextRequests settings texts model)
        let _ ← firstOf allEmbeddings
        return allEmbeddings

/-- `is_contextualized_embedding`. -/
def isContextualizedEmbedding (m : EmbeddingModelId) : Bool := m.name = "voyage-context-3"

/-- `embed_documents_voyage`. -/
def embedDocumentsVoyage (texts : List String) (m : EmbeddingModelId) (cancelCheck : Bool) :
    Embedding φ (List (List φ)) :=
  if isContextualizedEmbedding m then
    embedDocumentsVoyageContext settings texts m.name cancelCheck
  else embedDocumentsVoyageBatches settings texts m.name cancelCheck

/-- The models with a `huggingface_id`. -/
def huggingfaceIds : List (String × String) :=
  [("all-MiniLM-L6-v2", "sentence-transformers/all-MiniLM-L6-v2"), ("bge-m3", "BAAI/bge-m3"),
    ("stella-v5", "NovaSearch/stella_en_1.5B_v5"), ("splade-v3", "naver/splade-v3")]

/-- `_resolve_sie_model_name`, and the name in `_get_model`. -/
def huggingfaceName (m : EmbeddingModelId) : String := (huggingfaceIds.lookup m.name).getD m.name

/-- `_SIE_ENCODE_BATCH_SIZE`. -/
def sieEncodeBatchSize : Nat := 128

/-- The requests of `embed_documents_sie`. -/
def sieRequests (texts : List String) (m : EmbeddingModelId) : List EmbedRequest :=
  (windows texts sieEncodeBatchSize sieEncodeBatchSize).map (.sieEncode (huggingfaceName m))

/-- `str(exc)`. -/
def Raised.str : Raised → String
  | .cancelled => "cancelled"
  | .paused => "paused"
  | .service e => e.message
  | .indexError message => message
  | .keyError key => s!"'{key}'"
  | .typeError message => message
  | .valueError message => message
  | .runtimeError message => message
  | .sieUnavailable message => message

/-- The handlers of the SIE embedders. -/
def sieHandler {α : Type} : Raised → Embedding φ α
  | .cancelled => .raise .cancelled
  | .paused => .raise .paused
  | e => .raise (.sieUnavailable ("SIE unreachable or encode failed: " ++ e.str))

/-- `embed_documents_sie`. -/
def embedDocumentsSie (texts : List String) (m : EmbeddingModelId) (cancelCheck : Bool) :
    Embedding φ (List (List φ)) :=
  if texts = [] then .done []
  else Program.handle (do
    let vectors ← embedEach cancelCheck (encodeWithRetries settings.float) (sieRequests texts m)
    let _ ← firstOf vectors
    return vectors) sieHandler

/-- `embed_documents_local`. -/
def embedDocumentsLocal (texts : List String) (m : EmbeddingModelId) (cancelCheck : Bool) :
    Embedding φ (List (List φ)) := do
  let result ← embedEach cancelCheck encodeOnce [.localEncode (huggingfaceName m) texts]
  let _ ← firstOf result
  return result

/-! ## Queries -/

/-- `_embed_query_voyage_context`. -/
def embedQueryVoyageContext (text : String) (m : EmbeddingModelId) : Embedding φ (List φ) := do
  getClient settings
  let results : List (List (List φ)) ←
    callWithRetry (.contextualizedEmbed [[text]] m.name "query") (estimateTokens [text]) false
  let embeddings ← firstOf results
  firstOf embeddings

/-- `_embed_query_voyage`. -/
def embedQueryVoyageText (text : String) (m : EmbeddingModelId) : Embedding φ (List φ) := do
  getClient settings
  let embeddings : List (List φ) ←
    callWithRetry (.embed [text] m.name "query") (estimateTokens [text]) false
  firstOf embeddings

/-- `embed_query_voyage`. -/
def embedQueryVoyage (text : String) (m : EmbeddingModelId) : Embedding φ (List φ) :=
  if isContextualizedEmbedding m then embedQueryVoyageContext settings text m
  else embedQueryVoyageText settings text m

/-! ## Dispatch -/

/-- `get_embedder` of a provider that is called at run time, and its embedder for documents. The
    DoubleWord embedder takes no `cancel_check`. -/
def embedDocuments (provider : Provider) (texts : List String) (m : EmbeddingModelId) :
    Embedding φ (List (List φ)) :=
  match provider with
  | .voyage => embedDocumentsVoyage settings texts m true
  | .localProvider => embedDocumentsLocal texts m true
  | .sie => embedDocumentsSie settings texts m true
  | .doubleword => .raise (.typeError ("get_embedder.<locals>.embed_documents_doubleword() got " ++
      "an unexpected keyword argument 'cancel_check'"))
  | .kimchi => .raise (.valueError ("Unknown embedding provider 'kimchi'. " ++
      "Supported: 'voyage', 'local', 'sie', 'doubleword'."))

end

end Embedders

end RagParamsFinder
