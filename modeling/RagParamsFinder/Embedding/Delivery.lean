/-
  What the embedders of `server/core/embedding` ask of the services and what they return,
  whatever the services answer and whenever an experiment is stopped.

  A trace is read as a log: the requests that were answered, each with the errors of its
  earlier attempts and the pause after each of them. `RetryPolicy` is what is retried, how often,
  and after which pause.

  Proved: `fulfils_embedDocuments`: the requests go out in order, each again after a temporary
  failure and the pause for it only, no more often than its policy says, and never once it has
  been answered. As long as the services answer with one vector for each text of a request, what
  is returned has one vector for each text, in order, from the answers.
-/
import RagParamsFinder.Embedding.Embedders
import RagParamsFinder.Lib.Traversals

namespace RagParamsFinder

open Programs Slices Traversals

namespace Embedders

/-! ## Logs -/

/-- An attempt at a request. -/
structure Sent (φ : Type) where
  request : EmbedRequest
  answer : Except ServiceError (request.Response φ)

abbrev EmbedTrace (σ φ : Type) := Trace σ EmbedCall (EmbedCall.Answer φ)

/-- The vectors of a response, if it has nothing else. -/
def Dense.vector? {φ : Type} : Dense φ → Option (List φ)
  | .vector v => some v
  | _ => none

def EmbedRequest.vectors {φ : Type} :
    (request : EmbedRequest) → request.Response φ → Option (List (List φ))
  | .embed _ _ _, embeddings => some embeddings
  | .contextualizedEmbed _ _ _, results => some results.flatten
  | .sieEncode _ _, items => items.mapM Dense.vector?
  | .localEncode _ _, rows => some rows

section

variable {σ φ : Type}

/-- An attempt or a pause. -/
inductive Move (φ : Type) where
  | sent (attempt : Sent φ)
  | slept (seconds : Rat)

def moveOf : Event σ EmbedCall (EmbedCall.Answer φ) → Option (Move φ)
  | ⟨_, .send request, answer⟩ => some (.sent ⟨request, answer⟩)
  | ⟨_, .sleep seconds, _⟩ => some (.slept seconds)
  | _ => none

/-- The attempts and the pauses of a trace. -/
def moves (tr : EmbedTrace σ φ) : List (Move φ) := tr.filterMap moveOf

/-- Which errors are tried again, how many attempts there are, and the pause after errors. -/
structure RetryPolicy where
  limit : Nat
  retries : ServiceError → Bool
  pause : List ServiceError → Rat

/-- `call_with_retry`: 25 seconds after the first error, twice as long after each next one. -/
def voyagePolicy : RetryPolicy where
  limit := 5
  retries e := e.rateLimit
  pause errors := 25 * 2 ^ (errors.length - 1)

/-- Half a second, doubled at each error whose server has asked for no other pause. -/
def sieBackoff (float : String → Option Rat) (errors : List ServiceError) : Rat :=
  errors.foldl (fun delay e => if retryDelayAfter float e delay = delay then delay * 2 else delay)
    (1 / 2)

/-- `_encode_with_retries`: what the server asks for at the last error, or the doubled delay. -/
def siePolicy (float : String → Option Rat) : RetryPolicy where
  limit := 3
  retries := isRetryableSieError
  pause errors := match errors.getLast? with
    | some e => retryDelayAfter float e (sieBackoff float errors.dropLast)
    | none => 0

/-- A request that is made once. -/
def oncePolicy : RetryPolicy where
  limit := 1
  retries _ := false
  pause _ := 0

/-- Attempts that failed after those that `before` failed with, each with its pause. -/
def triedAfter (policy : RetryPolicy) (request : EmbedRequest) :
    List ServiceError → List ServiceError → List (Move φ)
  | _, [] => []
  | before, e :: errors =>
      .sent ⟨request, .error e⟩ :: .slept (policy.pause (before ++ [e])) ::
        triedAfter policy request (before ++ [e]) errors

/-- The attempts at a request that failed, each with its pause. -/
def tried (policy : RetryPolicy) (request : EmbedRequest) (errors : List ServiceError) :
    List (Move φ) := triedAfter policy request [] errors

/-- A request that was answered, with the errors of the attempts before. -/
structure Answered (φ : Type) where
  request : EmbedRequest
  errors : List ServiceError
  response : request.Response φ

/-- The attempts at a request, the last of them answered. -/
def Answered.moves (policy : RetryPolicy) (a : Answered φ) : List (Move φ) :=
  tried policy a.request a.errors ++ [.sent ⟨a.request, .ok a.response⟩]

/-- `vectorOf request text v`: the service's vector for a text of a request is `v`. -/
abbrev VectorOf (φ : Type) := EmbedRequest → String → List φ → Prop

/-- What the services promise: where a response is one of vectors, there is one for each text of
    the request, in order. The control check and the limiter may answer anything. -/
def ServesVectors (vectorOf : VectorOf φ) (_ : σ) :
    (op : EmbedCall) → EmbedCall.Answer φ op → Prop
  | .send request, .ok response => ∀ vs, request.vectors response = some vs →
      List.Forall₂ (vectorOf request) request.texts vs
  | _, _ => True

variable (policy : RetryPolicy) (vectorOf : VectorOf φ)

/-- The attempts at a request kept to the policy, and its response is as the service promises. -/
structure Answered.Within (a : Answered φ) : Prop where
  retried : ∀ e ∈ a.errors, policy.retries e = true
  fewer : a.errors.length < policy.limit
  served : ∀ vs, a.request.vectors a.response = some vs →
    List.Forall₂ (vectorOf a.request) a.request.texts vs

/-- The attempts so far are those of the log. -/
structure Delivered (log : List (Answered φ)) (tr : EmbedTrace σ φ) : Prop where
  attempts : moves tr = log.flatMap (Answered.moves policy)
  within : ∀ a ∈ log, a.Within policy vectorOf

/-- The attempts so far are those of the log, then failures of one more request, the pause after
    the last of them over. -/
structure Trying (log : List (Answered φ)) (request : EmbedRequest) (errors : List ServiceError)
    (tr : EmbedTrace σ φ) : Prop where
  attempts : moves tr = log.flatMap (Answered.moves policy) ++ tried policy request errors
  within : ∀ a ∈ log, a.Within policy vectorOf
  retried : ∀ e ∈ errors, policy.retries e = true

/-- The last attempt has failed, after others of that request. -/
structure Failed (log : List (Answered φ)) (request : EmbedRequest) (errors : List ServiceError)
    (e : ServiceError) (tr : EmbedTrace σ φ) : Prop where
  attempts : moves tr = log.flatMap (Answered.moves policy) ++ tried policy request errors ++
    [.sent ⟨request, .error e⟩]
  within : ∀ a ∈ log, a.Within policy vectorOf
  retried : ∀ e ∈ errors, policy.retries e = true

/-- The request is the next one after those of the log. -/
def Next (requests : List EmbedRequest) (log : List (Answered φ)) (request : EmbedRequest) :
    Prop := ∃ rest, log.map (·.request) ++ request :: rest = requests

/-- A call that the policy allows: the next request, while attempts are left and after the pause
    for the error before; that pause, right after an error that is retried. -/
inductive Allowed (requests : List EmbedRequest) (tr : EmbedTrace σ φ) : EmbedCall → Prop
  | cancelCheck : Allowed requests tr .cancelCheck
  | wait (n : Nat) : Allowed requests tr (.wait n)
  | send {log : List (Answered φ)} {request : EmbedRequest} {errors : List ServiceError}
      (trying : Trying policy vectorOf log request errors tr)
      (left : errors.length < policy.limit) (next : Next requests log request) :
      Allowed requests tr (.send request)
  | sleep {log : List (Answered φ)} {request : EmbedRequest} {errors : List ServiceError}
      {e : ServiceError} (failed : Failed policy vectorOf log request errors e tr)
      (again : policy.retries e = true) (left : errors.length + 1 < policy.limit)
      (next : Next requests log request) :
      Allowed requests tr (.sleep (policy.pause (errors ++ [e])))

/-- Why an embedder raises: the last check says stop, a request has failed for good, or what
    came back is not as promised. -/
inductive Explained (requests : List EmbedRequest) (tr : EmbedTrace σ φ) : Raised → Prop
  | cancelled {before : EmbedTrace σ φ} {s : σ}
      (h : tr = before ++ [⟨s, .cancelCheck, .cancelled⟩]) : Explained requests tr .cancelled
  | paused {before : EmbedTrace σ φ} {s : σ}
      (h : tr = before ++ [⟨s, .cancelCheck, .paused⟩]) : Explained requests tr .paused
  | service {log : List (Answered φ)} {request : EmbedRequest} {errors : List ServiceError}
      {e : ServiceError} (failed : Failed policy vectorOf log request errors e tr)
      (next : Next requests log request)
      (final : policy.retries e = false ∨ errors.length + 1 = policy.limit) :
      Explained requests tr (.service e)
  | indexError (message : String) : Explained requests tr (.indexError message)
  | keyError (key : String) : Explained requests tr (.keyError key)
  | typeError (message : String) : Explained requests tr (.typeError message)
  | valueError (message : String) : Explained requests tr (.valueError message)
  | sieUnavailable {e : Raised} (h : Explained requests tr e) :
      Explained requests tr (.sieUnavailable ("SIE unreachable or encode failed: " ++ e.str))

/-- Every request is answered; the vectors of the answers, in order, are those returned. -/
def AllDelivered (requests : List EmbedRequest) (tr : EmbedTrace σ φ)
    (vectors : List (List φ)) : Prop :=
  ∃ (log : List (Answered φ)) (vss : List (List (List φ))),
    Delivered policy vectorOf log tr ∧ log.map (·.request) = requests ∧
      List.Forall₂ (fun a vs => a.request.vectors a.response = some vs) log vss ∧
      vectors = vss.flatten

/-! ## One call -/

variable {policy vectorOf} {requests : List EmbedRequest} {tr : EmbedTrace σ φ}
  {log : List (Answered φ)} {request : EmbedRequest} {errors : List ServiceError}

theorem moves_append (tr tr' : EmbedTrace σ φ) : moves (tr ++ tr') = moves tr ++ moves tr' :=
  List.filterMap_append

theorem moves_send (tr : EmbedTrace σ φ) (s : σ) (request : EmbedRequest)
    (answer : Except ServiceError (request.Response φ)) :
    moves (tr ++ [⟨s, .send request, answer⟩]) = moves tr ++ [.sent ⟨request, answer⟩] :=
  moves_append tr _

theorem triedAfter_append (policy : RetryPolicy) (request : EmbedRequest)
    (before errors : List ServiceError) (e : ServiceError) :
    (triedAfter policy request before (errors ++ [e]) : List (Move φ)) =
      triedAfter policy request before errors ++
        [.sent ⟨request, .error e⟩, .slept (policy.pause (before ++ (errors ++ [e])))] := by
  induction errors generalizing before with
  | nil => rfl
  | cons e' errors ih =>
      rw [List.cons_append, triedAfter, ih (before ++ [e']), triedAfter, List.append_assoc,
        List.singleton_append, List.cons_append, List.cons_append]

theorem tried_append (policy : RetryPolicy) (request : EmbedRequest)
    (errors : List ServiceError) (e : ServiceError) :
    (tried policy request (errors ++ [e]) : List (Move φ)) = tried policy request errors ++
      [.sent ⟨request, .error e⟩, .slept (policy.pause (errors ++ [e]))] :=
  triedAfter_append policy request [] errors e

/-- What depends on the attempts and the pauses only is kept by a control check. -/
theorem fulfils_runCancelCheck (inv : List (Move φ) → Prop) (cancelCheck : Bool)
    (h : inv (moves tr)) :
    Fulfils (ServesVectors vectorOf) (Allowed policy vectorOf requests)
      (fun tr _ => inv (moves tr)) (Explained policy vectorOf requests) tr
      (runCancelCheck (φ := φ) cancelCheck) := by
  unfold runCancelCheck
  split
  · refine ⟨.cancelCheck, fun s signal _ => ?_⟩
    cases signal with
    | clear =>
        have hmoves : moves (tr ++ [⟨s, .cancelCheck, .clear⟩]) = moves tr :=
          (moves_append tr _).trans (List.append_nil _)
        show inv (moves (tr ++ [⟨s, .cancelCheck, .clear⟩]))
        rwa [hmoves]
    | cancelled => exact .cancelled rfl
    | paused => exact .paused rfl
  · exact h

theorem fulfils_wait (inv : List (Move φ) → Prop) (estimatedTokens : Nat) (h : inv (moves tr)) :
    Fulfils (ServesVectors vectorOf) (Allowed policy vectorOf requests)
      (fun tr _ => inv (moves tr)) (Explained policy vectorOf requests) tr
      (wait (φ := φ) estimatedTokens) := by
  refine ⟨.wait _, fun s passed _ => ?_⟩
  cases passed with
  | true =>
      have hmoves : moves (tr ++ [⟨s, .wait estimatedTokens, true⟩]) = moves tr :=
        (moves_append tr _).trans (List.append_nil _)
      show inv (moves (tr ++ [⟨s, .wait estimatedTokens, true⟩]))
      rwa [hmoves]
  | false => exact .indexError _

/-- A response ends the attempts at a request. -/
theorem Trying.answered (h : Trying policy vectorOf log request errors tr)
    (hleft : errors.length < policy.limit) {s : σ} {response : request.Response φ}
    (ha : ServesVectors vectorOf s (.send request) (.ok response)) :
    Delivered policy vectorOf (log ++ [⟨request, errors, response⟩])
      (tr ++ [⟨s, .send request, .ok response⟩]) := by
  constructor
  · rw [moves_send, h.attempts, List.flatMap_append, List.flatMap_singleton, List.append_assoc]
    rfl
  · rw [List.forall_mem_append, List.forall_mem_singleton]
    exact ⟨h.within, h.retried, hleft, ha⟩

/-- An error is the last attempt. -/
theorem Trying.failed (h : Trying policy vectorOf log request errors tr) (s : σ)
    (e : ServiceError) :
    Failed policy vectorOf log request errors e (tr ++ [⟨s, .send request, .error e⟩]) :=
  ⟨by rw [moves_send, h.attempts], h.within, h.retried⟩

/-- After the pause the request is tried again. -/
theorem Failed.slept {e : ServiceError} (h : Failed policy vectorOf log request errors e tr)
    (he : policy.retries e = true) (s : σ) :
    Trying policy vectorOf log request (errors ++ [e])
      (tr ++ [⟨s, .sleep (policy.pause (errors ++ [e])), ()⟩]) := by
  refine ⟨?_, h.within, ?_⟩
  · rw [moves_append, h.attempts, tried_append, List.append_assoc, List.append_assoc]
    rfl
  · rw [List.forall_mem_append, List.forall_mem_singleton]
    exact ⟨h.retried, he⟩

theorem Delivered.trying (h : Delivered policy vectorOf log tr) (request : EmbedRequest) :
    Trying policy vectorOf log request [] tr :=
  ⟨h.attempts.trans (List.append_nil _).symm, h.within, nofun⟩

/-! ## The attempts at a request -/

variable (policy vectorOf) in
/-- The response ends the log. -/
def Got (log : List (Answered φ)) (request : EmbedRequest) (tr : EmbedTrace σ φ)
    (response : request.Response φ) : Prop :=
  ∃ errors, Delivered policy vectorOf (log ++ [⟨request, errors, response⟩]) tr

/-- The pause for an error that is retried, before the attempts that are left. -/
theorem fulfils_pause (hnext : Next requests log request) {e : ServiceError} {α : Type}
    {post : EmbedTrace σ φ → α → Prop} {rest : Embedding φ α} {seconds : Rat}
    (hseconds : seconds = policy.pause (errors ++ [e]))
    (h : Failed policy vectorOf log request errors e tr) (he : policy.retries e = true)
    (hleft : errors.length + 1 < policy.limit)
    (hrest : ∀ tr, Trying policy vectorOf log request (errors ++ [e]) tr →
      Fulfils (ServesVectors vectorOf) (Allowed policy vectorOf requests) post
        (Explained policy vectorOf requests) tr rest) :
    Fulfils (ServesVectors vectorOf) (Allowed policy vectorOf requests) post
      (Explained policy vectorOf requests) tr (sleep seconds >>= fun _ => rest) := by
  subst hseconds
  exact ⟨.sleep h he hleft hnext, fun s _ _ => hrest _ (h.slept he s)⟩

/-- The attempts that `call_with_retry` has left after errors. -/
theorem fulfils_retryFrom (hnext : Next requests log request) (estimatedTokens : Nat)
    (cancelCheck : Bool) {n : Nat} (hcount : errors.length + n = maxRetries)
    (hleft : errors.length < maxRetries)
    (h : Trying voyagePolicy vectorOf log request errors tr) :
    Fulfils (ServesVectors vectorOf) (Allowed voyagePolicy vectorOf requests)
      (Got voyagePolicy vectorOf log request) (Explained voyagePolicy vectorOf requests) tr
      (retryFrom request estimatedTokens cancelCheck (List.range' (errors.length + 1) n)
        (25 * 2 ^ errors.length)) := by
  induction n generalizing errors tr with
  | zero => omega
  | succ n ih =>
      rw [List.range'_succ, retryFrom]
      refine fulfils_bind (fulfils_runCancelCheck (· = moves tr) cancelCheck rfl)
        fun tr₁ _ h₁ => ?_
      refine fulfils_bind (fulfils_wait (· = moves tr) estimatedTokens h₁) fun tr₂ _ h₂ => ?_
      have htry : Trying voyagePolicy vectorOf log request errors tr₂ :=
        ⟨h₂.trans h.attempts, h.within, h.retried⟩
      refine ⟨.send htry hleft hnext, fun s answer ha => ?_⟩
      cases answer with
      | ok response => exact ⟨errors, htry.answered hleft ha⟩
      | error e =>
          have hfailed := htry.failed s e
          have hlength : (errors ++ [e]).length = errors.length + 1 := by simp
          dsimp only
          split
          · rename_i hrate
            split
            · rename_i hlast
              exact .service hfailed hnext (Or.inr hlast)
            · rename_i hlast
              have hleft' : errors.length + 1 < maxRetries := by omega
              refine fulfils_pause hnext ?_ hfailed hrate hleft' fun tr₃ h₃ => ?_
              · show (25 * 2 ^ errors.length : Rat) = 25 * 2 ^ ((errors ++ [e]).length - 1)
                rw [hlength, Nat.add_sub_cancel]
              · have hih := @ih tr₃ (errors ++ [e]) (by omega) (by omega) h₃
                rw [hlength] at hih
                rw [mul_assoc, ← pow_succ]
                exact hih
          · rename_i hrate
            exact .service hfailed hnext (Or.inl (Bool.eq_false_iff.mpr hrate))

theorem fulfils_callWithRetry (hnext : Next requests log request) (estimatedTokens : Nat)
    (cancelCheck : Bool) (h : Delivered voyagePolicy vectorOf log tr) :
    Fulfils (ServesVectors vectorOf) (Allowed voyagePolicy vectorOf requests)
      (Got voyagePolicy vectorOf log request) (Explained voyagePolicy vectorOf requests) tr
      (callWithRetry request estimatedTokens cancelCheck) := by
  have hfrom := fulfils_retryFrom hnext estimatedTokens cancelCheck (Nat.zero_add maxRetries)
    (by decide) (h.trying request)
  have hbackoff : (25 * 2 ^ ([] : List ServiceError).length : Rat) = initialBackoffS := by
    show (25 * 2 ^ 0 : Rat) = 25
    rw [pow_zero, mul_one]
  rw [hbackoff] at hfrom
  exact hfrom

theorem sieBackoff_append (float : String → Option Rat) (errors : List ServiceError)
    (e : ServiceError) : sieBackoff float (errors ++ [e]) =
      if retryDelayAfter float e (sieBackoff float errors) = sieBackoff float errors then
        sieBackoff float errors * 2
      else sieBackoff float errors := by
  rw [sieBackoff, List.foldl_append]
  rfl

theorem pause_siePolicy (float : String → Option Rat) (errors : List ServiceError)
    (e : ServiceError) : (siePolicy float).pause (errors ++ [e]) =
      retryDelayAfter float e (sieBackoff float errors) := by
  simp only [siePolicy, List.getLast?_concat, List.dropLast_concat]

/-- The attempts that `_encode_with_retries` has left after errors. -/
theorem fulfils_encodeFrom (float : String → Option Rat) (hnext : Next requests log request)
    {n : Nat} (hcount : errors.length + n = sieEncodeMaxRetries)
    (hleft : errors.length < sieEncodeMaxRetries)
    (h : Trying (siePolicy float) vectorOf log request errors tr) :
    Fulfils (ServesVectors vectorOf) (Allowed (siePolicy float) vectorOf requests)
      (Got (siePolicy float) vectorOf log request)
      (Explained (siePolicy float) vectorOf requests) tr
      (encodeFrom float request (List.range' (errors.length + 1) n)
        (sieBackoff float errors)) := by
  induction n generalizing errors tr with
  | zero => omega
  | succ n ih =>
      rw [List.range'_succ, encodeFrom]
      refine ⟨.send h hleft hnext, fun s answer ha => ?_⟩
      cases answer with
      | ok response => exact ⟨errors, h.answered hleft ha⟩
      | error e =>
          have hfailed := h.failed s e
          have hlength : (errors ++ [e]).length = errors.length + 1 := by simp
          dsimp only
          split
          · rename_i hgive
            refine .service hfailed hnext (hgive.imp (fun hnot => ?_) id)
            show isRetryableSieError e = false
            simpa using hnot
          · rename_i hgive
            obtain ⟨hretry, hlast⟩ := not_or.mp hgive
            have hretry : isRetryableSieError e = true := by simpa using hretry
            have hleft' : errors.length + 1 < sieEncodeMaxRetries := by omega
            refine fulfils_pause hnext (pause_siePolicy float errors e).symm hfailed hretry hleft'
              fun tr₁ h₁ => ?_
            have hih := @ih tr₁ (errors ++ [e]) (by omega) (by omega) h₁
            rwa [hlength, sieBackoff_append] at hih

theorem fulfils_encodeWithRetries (float : String → Option Rat)
    (hnext : Next requests log request) (h : Delivered (siePolicy float) vectorOf log tr) :
    Fulfils (ServesVectors vectorOf) (Allowed (siePolicy float) vectorOf requests)
      (Got (siePolicy float) vectorOf log request)
      (Explained (siePolicy float) vectorOf requests) tr (encodeWithRetries float request) :=
  fulfils_encodeFrom float hnext (Nat.zero_add sieEncodeMaxRetries) (by decide)
    (h.trying request)

theorem fulfils_encodeOnce (hnext : Next requests log request)
    (h : Delivered oncePolicy vectorOf log tr) :
    Fulfils (ServesVectors vectorOf) (Allowed oncePolicy vectorOf requests)
      (Got oncePolicy vectorOf log request) (Explained oncePolicy vectorOf requests) tr
      (encodeOnce request) := by
  have htry := h.trying request
  refine ⟨.send htry (by decide) hnext, fun s answer ha => ?_⟩
  cases answer with
  | ok response => exact ⟨[], htry.answered (by decide) ha⟩
  | error e => exact .service (htry.failed s e) hnext (Or.inl rfl)

/-! ## The loop over the requests -/

/-- What is left of a response that is not one of vectors is an exception. -/
theorem fulfils_toFloatVectors (items : List (Dense φ)) :
    Fulfils (ServesVectors vectorOf) (Allowed policy vectorOf requests)
      (fun tr' vs => tr' = tr ∧ items.mapM Dense.vector? = some vs)
      (Explained policy vectorOf requests) tr (toFloatVectors items) := by
  induction items with
  | nil => exact ⟨rfl, rfl⟩
  | cons item items ih =>
      rw [toFloatVectors]
      cases item with
      | missing => exact .keyError _
      | notVector type => exact .typeError _
      | vector v =>
          change Fulfils _ _ _ _ tr (toFloatVectors items >>= fun vs => .done (v :: vs))
          refine fulfils_bind ih fun tr' vs h => ?_
          exact ⟨h.1, mapM_some_of_forall₂ (.cons rfl (forall₂_of_mapM_some h.2))⟩

theorem fulfils_vectorsIn (request : EmbedRequest) (response : request.Response φ) :
    Fulfils (ServesVectors vectorOf) (Allowed policy vectorOf requests)
      (fun tr' vs => tr' = tr ∧ request.vectors response = some vs)
      (Explained policy vectorOf requests) tr (request.vectorsIn response) := by
  cases request with
  | embed texts model inputType => exact ⟨rfl, rfl⟩
  | contextualizedEmbed inputs model inputType => exact ⟨rfl, rfl⟩
  | sieEncode model items => exact fulfils_toFloatVectors response
  | localEncode model texts => exact ⟨rfl, rfl⟩

theorem fulfils_embedEach (cancelCheck : Bool)
    {attempt : (request : EmbedRequest) → Embedding φ (request.Response φ)}
    (hattempt : ∀ {log : List (Answered φ)} {request : EmbedRequest} {tr : EmbedTrace σ φ},
      Next requests log request → Delivered policy vectorOf log tr →
        Fulfils (ServesVectors vectorOf) (Allowed policy vectorOf requests)
          (Got policy vectorOf log request) (Explained policy vectorOf requests) tr
          (attempt request)) :
    Fulfils (ServesVectors vectorOf) (Allowed policy vectorOf requests)
      (AllDelivered policy vectorOf requests) (Explained policy vectorOf requests)
      ([] : EmbedTrace σ φ) (embedEach cancelCheck attempt requests) := by
  refine fulfils_foldM (AllDelivered policy vectorOf) requests
    (fun done request rest hdone tr all h => ?_) [] requests rfl [] []
    ⟨[], [], ⟨rfl, nofun⟩, rfl, .nil, rfl⟩
  obtain ⟨log, vss, hdelivered, rfl, hvectors, rfl⟩ := h
  refine fulfils_bind (fulfils_runCancelCheck (· = log.flatMap (Answered.moves policy)) cancelCheck
    hdelivered.attempts) fun tr₁ _ h₁ => ?_
  refine fulfils_bind (hattempt ⟨rest, hdone⟩ ⟨h₁, hdelivered.within⟩) fun tr₂ response h₂ => ?_
  obtain ⟨errors, hgot⟩ := h₂
  refine fulfils_bind (fulfils_vectorsIn request response) fun tr₃ vs h₃ => ?_
  obtain ⟨rfl, hvs⟩ := h₃
  refine ⟨_, vss ++ [vs], hgot, by simp, ?_, by simp⟩
  exact List.rel_append hvectors (.cons hvs .nil)

/-- Where the services keep their promise, there is one vector for each text of the requests. -/
theorem AllDelivered.forall₂ {vectors : List (List φ)}
    (h : AllDelivered policy vectorOf requests tr vectors) :
    List.Forall₂ (fun text v => ∃ request ∈ requests, vectorOf request text v)
      (requests.flatMap EmbedRequest.texts) vectors := by
  obtain ⟨log, vss, hdelivered, rfl, hvectors, rfl⟩ := h
  have hall : List.Forall₂ (List.Forall₂ fun text v =>
      ∃ request ∈ log.map (·.request), vectorOf request text v)
      (log.map fun a => a.request.texts) vss := by
    rw [List.forall₂_map_left_iff]
    refine forall₂_imp_of_mem hvectors fun a ha vs hvs => ?_
    refine ((hdelivered.within a ha).served vs hvs).imp fun text v hv => ?_
    exact ⟨a.request, List.mem_map_of_mem ha, hv⟩
  rw [List.flatMap_map]
  exact List.rel_flatten hall

end

/-! ## The embedders -/

section

variable {σ φ : Type} (settings : EmbedSettings)

/-- The requests that a list of texts is split into. -/
def documentRequests (texts : List String) (m : EmbeddingModelId) : Provider → List EmbedRequest
  | .voyage =>
      if isContextualizedEmbedding m then voyageContextRequests settings texts m.name
      else voyageBatchRequests settings texts m.name
  | .sie => sieRequests texts m
  | .localProvider => [.localEncode (huggingfaceName m) texts]
  | .doubleword | .kimchi => []

def retryPolicy : Provider → RetryPolicy
  | .voyage => voyagePolicy
  | .sie => siePolicy settings.float
  | .localProvider | .doubleword | .kimchi => oncePolicy

/-- The requests hold the texts, in order. -/
theorem texts_voyageBatchRequests (texts : List String) (model : String) :
    (voyageBatchRequests settings texts model).flatMap EmbedRequest.texts = texts := by
  rw [voyageBatchRequests, List.flatMap_map]
  exact List.flatMap_id.trans (flatten_splitIntoBatches ..)

theorem texts_voyageContextRequests {texts : List String} (model : String)
    (h : validateContextChunkSizes settings.tokens texts = .ok ()) :
    (voyageContextRequests settings texts model).flatMap EmbedRequest.texts = texts := by
  rw [voyageContextRequests, List.flatMap_map]
  exact (flatten_contextRequests settings.tokens texts).trans (contextRequestsFit h).flatten

theorem texts_sieRequests (texts : List String) (m : EmbeddingModelId) :
    (sieRequests texts m).flatMap EmbedRequest.texts = texts := by
  rw [sieRequests, List.flatMap_map]
  exact List.flatMap_id.trans (flatten_windows texts (by decide))

variable (vectorOf : VectorOf φ)

/-- What an embedder returns: the vectors of its answered requests, one for each text. -/
structure Embedded (policy : RetryPolicy) (requests : List EmbedRequest) (texts : List String)
    (tr : EmbedTrace σ φ) (vectors : List (List φ)) : Prop where
  delivered : AllDelivered policy vectorOf requests tr vectors
  own : List.Forall₂ (fun text v => ∃ request ∈ requests, vectorOf request text v) texts vectors

variable {vectorOf} {policy : RetryPolicy} {requests : List EmbedRequest} {texts : List String}

/-- A loop that has delivered all, and what may follow it. -/
theorem fulfils_embedded (htexts : requests.flatMap EmbedRequest.texts = texts)
    {p : Embedding φ (List (List φ))} {tr : EmbedTrace σ φ}
    (h : Fulfils (ServesVectors vectorOf) (Allowed policy vectorOf requests)
      (AllDelivered policy vectorOf requests) (Explained policy vectorOf requests) tr p) :
    Fulfils (ServesVectors vectorOf) (Allowed policy vectorOf requests)
      (Embedded vectorOf policy requests texts) (Explained policy vectorOf requests) tr p :=
  h.mono (fun _ _ hall => ⟨hall, htexts ▸ hall.forall₂⟩) fun _ _ he => he

/-- The look at the first vector loses none. -/
theorem fulfils_logFirst {p : Embedding φ (List (List φ))} {tr : EmbedTrace σ φ}
    (h : Fulfils (ServesVectors vectorOf) (Allowed policy vectorOf requests)
      (Embedded vectorOf policy requests texts) (Explained policy vectorOf requests) tr p) :
    Fulfils (ServesVectors vectorOf) (Allowed policy vectorOf requests)
      (Embedded vectorOf policy requests texts) (Explained policy vectorOf requests) tr
      (do
        let all ← p
        let _ ← firstOf all
        return all) := by
  refine fulfils_bind h fun tr all hall => ?_
  cases all with
  | nil => exact .indexError _
  | cons v all => exact hall

theorem embedded_nil (policy : RetryPolicy) :
    Embedded vectorOf policy [] [] ([] : EmbedTrace σ φ) [] :=
  ⟨⟨[], [], ⟨rfl, nofun⟩, rfl, .nil, rfl⟩, .nil⟩

theorem fulfils_embedDocumentsVoyageBatches (texts : List String) (model : String)
    (cancelCheck : Bool) :
    Fulfils (ServesVectors vectorOf)
      (Allowed voyagePolicy vectorOf (voyageBatchRequests settings texts model))
      (Embedded vectorOf voyagePolicy (voyageBatchRequests settings texts model) texts)
      (Explained voyagePolicy vectorOf (voyageBatchRequests settings texts model))
      ([] : EmbedTrace σ φ) (embedDocumentsVoyageBatches settings texts model cancelCheck) := by
  unfold embedDocumentsVoyageBatches getClient
  split
  · exact .valueError _
  · refine fulfils_embedded (texts_voyageBatchRequests settings texts model) ?_
    exact fulfils_embedEach cancelCheck fun hnext h => fulfils_callWithRetry hnext _ _ h

theorem fulfils_embedDocumentsVoyageContext (texts : List String) (model : String)
    (cancelCheck : Bool) :
    Fulfils (ServesVectors vectorOf)
      (Allowed voyagePolicy vectorOf (voyageContextRequests settings texts model))
      (Embedded vectorOf voyagePolicy (voyageContextRequests settings texts model) texts)
      (Explained voyagePolicy vectorOf (voyageContextRequests settings texts model))
      ([] : EmbedTrace σ φ) (embedDocumentsVoyageContext settings texts model cancelCheck) := by
  unfold embedDocumentsVoyageContext
  split
  · rename_i hnil
    rw [hnil]
    exact embedded_nil voyagePolicy
  · split
    · exact .valueError _
    · rename_i hsizes
      unfold getClient
      split
      · exact .valueError _
      · refine fulfils_logFirst (fulfils_embedded
          (texts_voyageContextRequests settings model hsizes) ?_)
        exact fulfils_embedEach cancelCheck fun hnext h => fulfils_callWithRetry hnext _ _ h

/-- The handler of the SIE embedder keeps the cause. -/
theorem fulfils_sieHandler {α : Type} {post : EmbedTrace σ φ → α → Prop} {tr : EmbedTrace σ φ}
    {e : Raised} (h : Explained policy vectorOf requests tr e) :
    Fulfils (ServesVectors vectorOf) (Allowed policy vectorOf requests) post
      (Explained policy vectorOf requests) tr (sieHandler (α := α) e) := by
  cases e with
  | cancelled => exact h
  | paused => exact h
  | service | indexError | keyError | typeError | valueError | runtimeError | sieUnavailable =>
      exact .sieUnavailable h

theorem fulfils_embedDocumentsSie (texts : List String) (m : EmbeddingModelId)
    (cancelCheck : Bool) :
    Fulfils (ServesVectors vectorOf)
      (Allowed (siePolicy settings.float) vectorOf (sieRequests texts m))
      (Embedded vectorOf (siePolicy settings.float) (sieRequests texts m) texts)
      (Explained (siePolicy settings.float) vectorOf (sieRequests texts m))
      ([] : EmbedTrace σ φ) (embedDocumentsSie settings texts m cancelCheck) := by
  unfold embedDocumentsSie
  split
  · rename_i hnil
    rw [hnil]
    exact embedded_nil _
  · refine fulfils_handle (fulfils_logFirst (fulfils_embedded (texts_sieRequests texts m) ?_))
      fun tr e he => fulfils_sieHandler he
    exact fulfils_embedEach cancelCheck fun hnext h =>
      fulfils_encodeWithRetries settings.float hnext h

theorem fulfils_embedDocumentsLocal (texts : List String) (m : EmbeddingModelId)
    (cancelCheck : Bool) :
    Fulfils (ServesVectors vectorOf)
      (Allowed oncePolicy vectorOf [.localEncode (huggingfaceName m) texts])
      (Embedded vectorOf oncePolicy [.localEncode (huggingfaceName m) texts] texts)
      (Explained oncePolicy vectorOf [.localEncode (huggingfaceName m) texts])
      ([] : EmbedTrace σ φ) (embedDocumentsLocal texts m cancelCheck) := by
  have htexts : [EmbedRequest.localEncode (huggingfaceName m) texts].flatMap
      EmbedRequest.texts = texts := List.append_nil texts
  refine fulfils_logFirst (fulfils_embedded htexts ?_)
  exact fulfils_embedEach cancelCheck fun hnext h => fulfils_encodeOnce hnext h

/-- For every provider, whatever it answers and whenever the run is stopped. -/
theorem fulfils_embedDocuments (vectorOf : VectorOf φ) (provider : Provider)
    (texts : List String) (m : EmbeddingModelId) :
    Fulfils (ServesVectors vectorOf)
      (Allowed (retryPolicy settings provider) vectorOf
        (documentRequests settings texts m provider))
      (Embedded vectorOf (retryPolicy settings provider)
        (documentRequests settings texts m provider) texts)
      (Explained (retryPolicy settings provider) vectorOf
        (documentRequests settings texts m provider))
      ([] : EmbedTrace σ φ) (embedDocuments settings provider texts m) := by
  cases provider with
  | voyage =>
      unfold documentRequests embedDocuments embedDocumentsVoyage
      dsimp only
      split
      · exact fulfils_embedDocumentsVoyageContext settings texts m.name true
      · exact fulfils_embedDocumentsVoyageBatches settings texts m.name true
  | sie => exact fulfils_embedDocumentsSie settings texts m true
  | localProvider => exact fulfils_embedDocumentsLocal texts m true
  | doubleword => exact .typeError _
  | kimchi => exact .valueError _

end

end Embedders

end RagParamsFinder
