/-
  When the embedders of `server/core/embedding` make their requests: after which checks and
  which waits.

  Proved:
  * `embedDocuments_delivers`: an embedder for documents makes its requests as its policy says,
    and none after a check that says stop; it returns the vectors of its texts.
  * `voyage_charged`: every attempt of the Voyage embedders, a repeated one too, comes directly
    after a wait for its own estimate, and nothing else is charged to the limiter.
  * `sent_after_stop_le`: once an experiment is stopped, a run sends at most one more request,
    with SIE at most three attempts, all of them at one request.
-/
import RagParamsFinder.Embedding.Delivery

namespace RagParamsFinder

open Programs Traversals

namespace Embedders

section

variable {σ φ : Type} {serves : σ → (op : EmbedCall) → EmbedCall.Answer φ op → Prop}
  {ok : EmbedTrace σ φ → EmbedCall → Prop} {inv : EmbedTrace σ φ → Prop} {tr : EmbedTrace σ φ}

/-! ## What makes no calls -/

theorem silent_toFloatVectors (items : List (Dense φ)) (h : inv tr) :
    Fulfils serves ok (fun tr _ => inv tr) (fun tr _ => inv tr) tr (toFloatVectors items) := by
  induction items with
  | nil => exact h
  | cons item items ih =>
      cases item with
      | vector v => exact fulfils_bind (f := fun vs => .done (v :: vs)) ih fun _ _ h => h
      | missing => exact h
      | notVector type => exact h

theorem silent_vectorsIn (request : EmbedRequest) (response : request.Response φ) (h : inv tr) :
    Fulfils serves ok (fun tr _ => inv tr) (fun tr _ => inv tr) tr
      (request.vectorsIn response) := by
  cases request with
  | embed | contextualizedEmbed | localEncode => exact h
  | sieEncode model items => exact silent_toFloatVectors response h

theorem silent_getClient (settings : EmbedSettings) (h : inv tr) :
    Fulfils serves ok (fun tr _ => inv tr) (fun tr _ => inv tr) tr
      (getClient (φ := φ) settings) := by
  unfold getClient
  split
  · exact h
  · exact h

theorem silent_firstOf {α : Type} (xs : List α) (h : inv tr) :
    Fulfils serves ok (fun tr _ => inv tr) (fun tr _ => inv tr) tr (firstOf (φ := φ) xs) := by
  cases xs with
  | nil => exact h
  | cons x xs => exact h

end

/-! ## Charges -/

section

variable {σ φ : Type}

def sentOf : Event σ EmbedCall (EmbedCall.Answer φ) → Option (Sent φ)
  | ⟨_, .send request, answer⟩ => some ⟨request, answer⟩
  | _ => none

/-- The attempts of a trace. -/
def sends (tr : EmbedTrace σ φ) : List (Sent φ) := tr.filterMap sentOf

theorem sends_append (tr tr' : EmbedTrace σ φ) : sends (tr ++ tr') = sends tr ++ sends tr' :=
  List.filterMap_append

def chargeOf : Event σ EmbedCall (EmbedCall.Answer φ) → Option Nat
  | ⟨_, .wait n, true⟩ => some n
  | _ => none

/-- The estimates that the limiter has let through. -/
def charges (tr : EmbedTrace σ φ) : List Nat := tr.filterMap chargeOf

/-- The answers of the service and the limiter are of no account. -/
def AnyAnswer (_ : σ) (op : EmbedCall) (_ : EmbedCall.Answer φ op) : Prop := True

variable (estimate : EmbedRequest → Nat)

/-- The attempts and the charges of a trace are of the same requests. -/
def Balanced (tr : EmbedTrace σ φ) : Prop :=
  charges tr = (sends tr).map fun sent => estimate sent.request

/-- An attempt comes directly after a wait for its estimate, the one charge without an
    attempt. -/
inductive Paced (tr : EmbedTrace σ φ) : EmbedCall → Prop
  | cancelCheck : Paced tr .cancelCheck
  | wait (n : Nat) (balanced : Balanced estimate tr) : Paced tr (.wait n)
  | send {request : EmbedRequest} {before : EmbedTrace σ φ} {s : σ}
      (balanced : Balanced estimate before)
      (last : tr = before ++ [⟨s, .wait (estimate request), true⟩]) : Paced tr (.send request)
  | sleep (seconds : Rat) (balanced : Balanced estimate tr) : Paced tr (.sleep seconds)

variable {estimate} {tr : EmbedTrace σ φ}

theorem charges_append (tr tr' : EmbedTrace σ φ) :
    charges (tr ++ tr') = charges tr ++ charges tr' := List.filterMap_append

/-- An event that neither is an attempt nor is charged. -/
theorem Balanced.quiet (h : Balanced estimate tr) {event : Event σ EmbedCall (EmbedCall.Answer φ)}
    (hsent : sentOf event = none) (hcharge : chargeOf event = none) :
    Balanced estimate (tr ++ [event]) := by
  rw [Balanced, charges_append, sends_append, List.map_append, h]
  show _ ++ [event].filterMap chargeOf = _ ++ ([event].filterMap sentOf).map _
  rw [List.filterMap_cons_none hsent, List.filterMap_cons_none hcharge]
  rfl

/-- A wait and the attempt after it. -/
theorem Balanced.attempt (h : Balanced estimate tr) {s s' : σ} {request : EmbedRequest}
    {answer : Except ServiceError (request.Response φ)} :
    Balanced estimate (tr ++ [⟨s, .wait (estimate request), true⟩] ++
      [⟨s', .send request, answer⟩]) := by
  rw [Balanced, charges_append, charges_append, sends_append, sends_append, List.map_append,
    List.map_append, h]
  show _ ++ [estimate request] ++ [] = _ ++ [] ++ [estimate request]
  rw [List.append_nil, List.append_nil]

theorem paced_runCancelCheck (cancelCheck : Bool) (h : Balanced estimate tr) :
    Fulfils AnyAnswer (Paced estimate) (fun tr _ => Balanced estimate tr)
      (fun tr _ => Balanced estimate tr) tr (runCancelCheck (φ := φ) cancelCheck) := by
  unfold runCancelCheck
  split
  · refine ⟨.cancelCheck, fun s signal _ => ?_⟩
    cases signal with
    | clear | cancelled | paused => exact h.quiet rfl rfl
  · exact h

theorem paced_retryFrom (request : EmbedRequest) (cancelCheck : Bool) (attempts : List Nat)
    (backoff : Rat) (h : Balanced estimate tr) :
    Fulfils AnyAnswer (Paced estimate) (fun tr _ => Balanced estimate tr)
      (fun tr _ => Balanced estimate tr) tr
      (retryFrom (φ := φ) request (estimate request) cancelCheck attempts backoff) := by
  induction attempts generalizing tr backoff with
  | nil => exact h
  | cons attempt attempts ih =>
      rw [retryFrom]
      refine fulfils_bind (paced_runCancelCheck cancelCheck h) fun tr₁ _ h₁ => ?_
      refine ⟨.wait _ h₁, fun s passed _ => ?_⟩
      cases passed with
      | false => exact h₁.quiet rfl rfl
      | true =>
          refine ⟨.send h₁ rfl, fun s' answer _ => ?_⟩
          cases answer with
          | ok response => exact h₁.attempt
          | error e =>
              have hfailed : Balanced estimate (tr₁ ++ [⟨s, .wait (estimate request), true⟩] ++
                  [⟨s', .send request, .error e⟩]) := h₁.attempt
              dsimp only
              split
              · split
                · exact hfailed
                · exact ⟨.sleep _ hfailed, fun s'' _ _ => ih _ (hfailed.quiet rfl rfl)⟩
              · exact hfailed

theorem paced_embedEach (cancelCheck : Bool) (requests : List EmbedRequest)
    (h : Balanced estimate tr) :
    Fulfils AnyAnswer (Paced estimate) (fun tr _ => Balanced estimate tr)
      (fun tr _ => Balanced estimate tr) tr
      (embedEach cancelCheck
        (fun request => callWithRetry request (estimate request) cancelCheck) requests) := by
  refine fulfils_foldM (fun _ tr _ => Balanced estimate tr) requests
    (fun done request rest _ tr all h => ?_) [] requests rfl tr [] h
  refine fulfils_bind (paced_runCancelCheck cancelCheck h) fun tr₁ _ h₁ => ?_
  refine fulfils_bind (paced_retryFrom request cancelCheck _ _ h₁) fun tr₂ response h₂ => ?_
  exact fulfils_bind (silent_vectorsIn request response h₂) fun _ _ h => h

end

section

variable {σ φ : Type} (settings : EmbedSettings)

/-- The estimate of a request of a model. -/
def voyageEstimate (m : EmbeddingModelId) (request : EmbedRequest) : Nat :=
  if isContextualizedEmbedding m then countContextTokens settings.tokens request.texts
  else estimateTokens request.texts

/-- A program whose attempts are all paced. -/
def PacedBy (estimate : EmbedRequest → Nat) {α : Type} (p : Embedding φ α) : Prop :=
  Fulfils AnyAnswer (Paced estimate) (fun tr _ => Balanced estimate tr)
    (fun tr _ => Balanced estimate tr) ([] : EmbedTrace σ φ) p

theorem paced_embedDocumentsVoyage (texts : List String) (m : EmbeddingModelId)
    (cancelCheck : Bool) :
    PacedBy (σ := σ) (φ := φ) (voyageEstimate settings m)
      (embedDocumentsVoyage settings texts m cancelCheck) := by
  have hstart : Balanced (voyageEstimate settings m) ([] : EmbedTrace σ φ) := rfl
  unfold embedDocumentsVoyage
  split
  · rename_i hcontext
    have hestimate : voyageEstimate settings m =
        fun request => countContextTokens settings.tokens request.texts :=
      funext fun request => if_pos hcontext
    rw [PacedBy, hestimate]
    rw [hestimate] at hstart
    unfold embedDocumentsVoyageContext
    split
    · exact hstart
    · split
      · exact hstart
      · refine fulfils_bind (silent_getClient settings hstart) fun tr₁ _ h₁ => ?_
        refine fulfils_bind (paced_embedEach cancelCheck _ h₁) fun tr₂ all h₂ => ?_
        exact fulfils_bind (silent_firstOf all h₂) fun _ _ h => h
  · rename_i hplain
    have hestimate : voyageEstimate settings m = fun request => estimateTokens request.texts :=
      funext fun request => if_neg hplain
    rw [PacedBy, hestimate]
    rw [hestimate] at hstart
    refine fulfils_bind (silent_getClient settings hstart) fun tr₁ _ h₁ => ?_
    exact paced_embedEach cancelCheck _ h₁

theorem paced_embedQueryVoyage (text : String) (m : EmbeddingModelId) :
    PacedBy (σ := σ) (φ := φ) (fun request => estimateTokens request.texts)
      (embedQueryVoyage settings text m) := by
  have hstart : Balanced (fun request => estimateTokens request.texts)
      ([] : EmbedTrace σ φ) := rfl
  unfold embedQueryVoyage
  split
  · refine fulfils_bind (silent_getClient settings hstart) fun tr₁ _ h₁ => ?_
    refine fulfils_bind (paced_retryFrom (.contextualizedEmbed [[text]] m.name "query") false
      _ _ h₁) fun tr₂ results h₂ => ?_
    refine fulfils_bind (silent_firstOf _ h₂) fun tr₃ embeddings h₃ => ?_
    exact silent_firstOf embeddings h₃
  · refine fulfils_bind (silent_getClient settings hstart) fun tr₁ _ h₁ => ?_
    refine fulfils_bind (paced_retryFrom (.embed [text] m.name "query") false _ _ h₁)
      fun tr₂ embeddings h₂ => ?_
    exact silent_firstOf _ h₂

/-- **Charges.** Of texts and of queries, for every model. -/
theorem voyage_charged (texts : List String) (text : String) (m : EmbeddingModelId)
    (cancelCheck : Bool) :
    PacedBy (σ := σ) (φ := φ) (voyageEstimate settings m)
        (embedDocumentsVoyage settings texts m cancelCheck) ∧
      PacedBy (σ := σ) (φ := φ) (fun request => estimateTokens request.texts)
        (embedQueryVoyage settings text m) :=
  ⟨paced_embedDocumentsVoyage settings texts m cancelCheck,
    paced_embedQueryVoyage settings text m⟩

end

/-! ## Stopping -/

section

variable {φ : Type}

/-- The requests sent since the last control check. -/
def sinceCheck {σ : Type} (tr : EmbedTrace σ φ) : List EmbedRequest :=
  tr.foldl (fun requests event => match event.op with
    | .cancelCheck => []
    | .send request => requests ++ [request]
    | _ => requests) []

/-- A control check has let the program go on. -/
def Passed {σ : Type} : Event σ EmbedCall (EmbedCall.Answer φ) → Prop
  | ⟨_, .cancelCheck, signal⟩ => signal = .clear
  | _ => True

def AllPassed {σ : Type} (tr : EmbedTrace σ φ) : Prop := ∀ event ∈ tr, Passed event

/-- A call is made when every check has passed, and a request when no other and fewer than `limit`
    have been sent since the last one. -/
def Heeds {σ : Type} (limit : Nat) (tr : EmbedTrace σ φ) (op : EmbedCall) : Prop :=
  AllPassed tr ∧ ∀ request, op = .send request →
    (∀ r ∈ sinceCheck tr, r = request) ∧ (sinceCheck tr).length < limit

section

variable {σ : Type} {tr : EmbedTrace σ φ}
  {serves : σ → (op : EmbedCall) → EmbedCall.Answer φ op → Prop}

theorem AllPassed.append (h : AllPassed tr) {event : Event σ EmbedCall (EmbedCall.Answer φ)}
    (hevent : Passed event) : AllPassed (tr ++ [event]) := by
  unfold AllPassed
  rw [List.forall_mem_append, List.forall_mem_singleton]
  exact ⟨h, hevent⟩

theorem sinceCheck_append (tr : EmbedTrace σ φ)
    (event : Event σ EmbedCall (EmbedCall.Answer φ)) :
    sinceCheck (tr ++ [event]) = match event.op with
      | .cancelCheck => []
      | .send request => sinceCheck tr ++ [request]
      | _ => sinceCheck tr := by
  rw [sinceCheck, List.foldl_append]
  rfl

/-- A call that is not a request is made when every check has passed. -/
theorem heeds_quiet {limit : Nat} {op : EmbedCall} (h : AllPassed tr)
    (hop : ∀ request, op ≠ .send request) : Heeds limit tr op :=
  ⟨h, fun request heq => absurd heq (hop request)⟩

/-- The first request after a check. -/
theorem heeds_first {request : EmbedRequest} (h : AllPassed tr) (hsince : sinceCheck tr = []) :
    Heeds 1 tr (.send request) := by
  refine ⟨h, fun _ _ => ?_⟩
  rw [hsince]
  exact ⟨nofun, Nat.one_pos⟩

/-- An exception is a stop, or comes while the experiment goes on. -/
def StoppedOr (tr : EmbedTrace σ φ) (e : Raised) : Prop :=
  e = .cancelled ∨ e = .paused ∨ AllPassed tr

variable (serves) in
/-- The program heeds the control checks, from a trace on. -/
def Heeding (limit : Nat) {α : Type} (tr : EmbedTrace σ φ) (p : Embedding φ α) : Prop :=
  Fulfils serves (Heeds limit) (fun tr _ => AllPassed tr) StoppedOr tr p

theorem heeding_of_raise {limit : Nat} {α : Type} (h : AllPassed tr) (e : Raised) :
    Heeding serves limit tr (.raise e : Embedding φ α) := Or.inr (Or.inr h)

/-- After a check nothing has been sent yet. -/
theorem heeds_runCancelCheck (limit : Nat) (h : AllPassed tr) :
    Fulfils serves (Heeds limit) (fun tr _ => AllPassed tr ∧ sinceCheck tr = []) StoppedOr tr
      (runCancelCheck (φ := φ) true) := by
  refine ⟨heeds_quiet h (by simp), fun s signal _ => ?_⟩
  cases signal with
  | clear => exact ⟨h.append rfl, sinceCheck_append tr _⟩
  | cancelled => exact Or.inl rfl
  | paused => exact Or.inr (Or.inl rfl)

theorem heeds_retryFrom (request : EmbedRequest) (estimatedTokens : Nat) (attempts : List Nat)
    (backoff : Rat) (h : AllPassed tr) :
    Heeding serves 1 tr (retryFrom (φ := φ) request estimatedTokens true attempts backoff) := by
  induction attempts generalizing tr backoff with
  | nil => exact heeding_of_raise h _
  | cons attempt attempts ih =>
      rw [retryFrom]
      refine fulfils_bind (heeds_runCancelCheck 1 h) fun tr₁ _ h₁ => ?_
      refine ⟨heeds_quiet h₁.1 (by simp), fun s passed _ => ?_⟩
      have hpassed : AllPassed (tr₁ ++ [⟨s, .wait estimatedTokens, passed⟩]) :=
        h₁.1.append trivial
      cases passed with
      | false => exact heeding_of_raise hpassed _
      | true =>
          have hsince : sinceCheck (tr₁ ++ [⟨s, .wait estimatedTokens, true⟩]) = [] :=
            (sinceCheck_append tr₁ _).trans h₁.2
          refine ⟨heeds_first hpassed hsince, fun s' answer _ => ?_⟩
          cases answer with
          | ok response => exact hpassed.append trivial
          | error e =>
              have hfailed : AllPassed (tr₁ ++ [⟨s, .wait estimatedTokens, true⟩] ++
                [⟨s', .send request, .error e⟩]) := hpassed.append trivial
              dsimp only
              split
              · split
                · exact heeding_of_raise hfailed _
                · exact ⟨heeds_quiet hfailed (by simp),
                    fun s'' _ _ => ih _ (hfailed.append trivial)⟩
              · exact heeding_of_raise hfailed _

/-- Without a check between them, the attempts add up. -/
theorem heeds_encodeFrom (float : String → Option Rat) (request : EmbedRequest)
    (attempts : List Nat) (delay : Rat) {limit : Nat} (h : AllPassed tr)
    (hsame : ∀ r ∈ sinceCheck tr, r = request)
    (hroom : (sinceCheck tr).length + attempts.length ≤ limit) :
    Heeding serves limit tr (encodeFrom (φ := φ) float request attempts delay) := by
  induction attempts generalizing tr delay with
  | nil => exact heeding_of_raise h _
  | cons attempt attempts ih =>
      rw [List.length_cons] at hroom
      rw [encodeFrom]
      refine ⟨⟨h, fun r hr => ?_⟩, fun s answer _ => ?_⟩
      · obtain rfl := EmbedCall.send.inj hr
        exact ⟨hsame, by omega⟩
      cases answer with
      | ok response => exact h.append trivial
      | error e =>
          have hfailed : AllPassed (tr ++ [⟨s, .send request, .error e⟩]) := h.append trivial
          dsimp only
          split
          · exact heeding_of_raise hfailed _
          · refine ⟨heeds_quiet hfailed (by simp), fun s' _ _ => ?_⟩
            have hsince : sinceCheck (tr ++ [⟨s, .send request, .error e⟩] ++
                [⟨s', .sleep (retryDelayAfter float e delay), ()⟩]) =
                  sinceCheck tr ++ [request] :=
              (sinceCheck_append _ _).trans (sinceCheck_append tr _)
            refine ih _ (hfailed.append trivial) ?_ ?_
            · rw [hsince, List.forall_mem_append, List.forall_mem_singleton]
              exact ⟨hsame, rfl⟩
            · rw [hsince, List.length_append, List.length_singleton]
              omega

theorem heeds_encodeOnce (request : EmbedRequest) (h : AllPassed tr) (hroom : sinceCheck tr = []) :
    Heeding serves 1 tr (encodeOnce (φ := φ) request) := by
  refine ⟨heeds_first h hroom, fun s answer _ => ?_⟩
  cases answer with
  | ok response => exact h.append trivial
  | error e =>
      have hfailed : AllPassed (tr ++ [⟨s, .send request, .error e⟩]) := h.append trivial
      exact heeding_of_raise hfailed _

/-- What makes no call. -/
theorem heeding_of_silent {limit : Nat} {α : Type} {p : Embedding φ α}
    (h : Fulfils serves (Heeds limit) (fun tr _ => AllPassed tr) (fun tr _ => AllPassed tr) tr p) :
    Heeding serves limit tr p :=
  h.mono (fun _ _ h => h) fun _ _ h => Or.inr (Or.inr h)

theorem heeds_embedEach {limit : Nat}
    {attempt : (request : EmbedRequest) → Embedding φ (request.Response φ)}
    (hattempt : ∀ {tr : EmbedTrace σ φ} (request : EmbedRequest), AllPassed tr →
      sinceCheck tr = [] → Heeding serves limit tr (attempt request))
    (requests : List EmbedRequest) (h : AllPassed tr) :
    Heeding serves limit tr (embedEach true attempt requests) := by
  refine fulfils_foldM (fun _ tr _ => AllPassed tr) requests
    (fun done request rest _ tr all h => ?_) [] requests rfl tr [] h
  refine fulfils_bind (heeds_runCancelCheck limit h) fun tr₁ _ h₁ => ?_
  refine fulfils_bind (hattempt request h₁.1 h₁.2) fun tr₂ response h₂ => ?_
  exact fulfils_bind (heeding_of_silent (silent_vectorsIn request response h₂)) fun _ _ h => h

/-- The requests that may be sent between two checks. -/
def sendLimit : Provider → Nat
  | .voyage | .localProvider => 1
  | .sie => 3
  | .doubleword | .kimchi => 0

theorem heeds_firstOf {limit : Nat} {p : Embedding φ (List (List φ))}
    (h : Heeding serves limit tr p) :
    Heeding serves limit tr (do
      let all ← p
      let _ ← firstOf all
      return all) := by
  refine fulfils_bind h fun tr all h => ?_
  exact fulfils_bind (heeding_of_silent (silent_firstOf all h)) fun _ _ h => h

theorem heeds_getClient (settings : EmbedSettings) {p : Embedding φ (List (List φ))}
    (h : AllPassed tr) (hp : Heeding serves 1 tr p) :
    Heeding serves 1 tr (getClient settings >>= fun _ => p) := by
  unfold getClient
  split
  · exact heeding_of_raise h _
  · exact hp

theorem heeds_sieHandler {limit : Nat} {α : Type} {e : Raised} (h : StoppedOr tr e) :
    Heeding serves limit tr (sieHandler (φ := φ) (α := α) e) := by
  cases e with
  | cancelled => exact Or.inl rfl
  | paused => exact Or.inr (Or.inl rfl)
  | service | indexError | keyError | typeError | valueError | runtimeError | sieUnavailable =>
      exact heeding_of_raise ((h.resolve_left nofun).resolve_left nofun) _

/-- Every embedder for documents heeds the control checks. -/
theorem heeds_embedDocuments (settings : EmbedSettings) (provider : Provider)
    (texts : List String) (m : EmbeddingModelId) :
    Heeding serves (sendLimit provider) ([] : EmbedTrace σ φ)
      (embedDocuments settings provider texts m) := by
  have hstart : AllPassed ([] : EmbedTrace σ φ) := nofun
  cases provider with
  | voyage =>
      have hloop : ∀ (estimate : EmbedRequest → Nat) (requests : List EmbedRequest),
          Heeding serves 1 ([] : EmbedTrace σ φ)
            (embedEach true (fun r => callWithRetry r (estimate r) true) requests) :=
        fun estimate requests => heeds_embedEach
          (fun request h _ => heeds_retryFrom request _ _ _ h) requests hstart
      unfold embedDocuments embedDocumentsVoyage
      dsimp only
      split
      · unfold embedDocumentsVoyageContext
        split
        · exact hstart
        · split
          · exact heeding_of_raise hstart _
          · exact heeds_getClient settings hstart (heeds_firstOf (hloop _ _))
      · exact heeds_getClient settings hstart (hloop _ _)
  | sie =>
      unfold embedDocuments embedDocumentsSie
      dsimp only
      split
      · exact hstart
      · refine fulfils_handle (heeds_firstOf (heeds_embedEach
          (fun request h hroom => ?_) _ hstart)) fun tr e he => heeds_sieHandler he
        refine heeds_encodeFrom settings.float request _ _ h ?_ ?_
        · rw [hroom]
          exact nofun
        · rw [hroom]
          exact Nat.le_refl 3
  | localProvider =>
      exact heeds_firstOf (heeds_embedEach
        (fun request h hroom => heeds_encodeOnce request h hroom) _ hstart)
  | doubleword => exact heeding_of_raise hstart _
  | kimchi => exact heeding_of_raise hstart _

/-- **Delivery.** For every provider, whatever it answers and whenever the run is stopped. -/
theorem embedDocuments_delivers (settings : EmbedSettings) (vectorOf : VectorOf φ)
    (provider : Provider) (texts : List String) (m : EmbeddingModelId) :
    Fulfils (ServesVectors vectorOf)
      (fun tr op => Allowed (retryPolicy settings provider) vectorOf
        (documentRequests settings texts m provider) tr op ∧ Heeds (sendLimit provider) tr op)
      (fun tr vectors => Embedded vectorOf (retryPolicy settings provider)
        (documentRequests settings texts m provider) texts tr vectors ∧ AllPassed tr)
      (fun tr e => Explained (retryPolicy settings provider) vectorOf
        (documentRequests settings texts m provider) tr e ∧ StoppedOr tr e)
      ([] : EmbedTrace σ φ) (embedDocuments settings provider texts m) :=
  (fulfils_embedDocuments settings vectorOf provider texts m).and
    (heeds_embedDocuments settings provider texts m)

end

/-! ## Runs -/

/-- The control check answers from the sweep's control; services answer as they will. -/
def FromControl (control : Option SweepControl) :
    (op : EmbedCall) → EmbedCall.Answer φ op → Prop
  | .cancelCheck, signal => signal = checkControl control
  | _, _ => True

/-- The experiment has been cancelled or paused when the call is made. -/
def Stopped (event : Event (Option SweepControl) EmbedCall (EmbedCall.Answer φ)) : Bool :=
  checkControl event.before ≠ .clear

def isSend : EmbedCall → Bool
  | .send _ => true
  | _ => false

/-- The requests sent although the experiment is stopped. -/
def sentAfterStop (tr : EmbedTrace (Option SweepControl) φ) :
    List (Event (Option SweepControl) EmbedCall (EmbedCall.Answer φ)) :=
  tr.filter fun event => isSend event.op && Stopped event

/-- A stop is not taken back. -/
def StopStays (tr : EmbedTrace (Option SweepControl) φ) : Prop :=
  tr.Pairwise fun a b => Stopped a = true → Stopped b = true

variable {tr : EmbedTrace (Option SweepControl) φ}

/-- A check that passes finds the experiment running, and so does every call before it. -/
theorem sentAfterStop_of_passed
    {event : Event (Option SweepControl) EmbedCall (EmbedCall.Answer φ)}
    (hstay : StopStays (tr ++ [event])) (hevent : Stopped event = false) :
    sentAfterStop tr = [] := by
  refine List.filter_eq_nil_iff.mpr fun e he => ?_
  have hpair := (List.pairwise_append.mp hstay).2.2 e he event (List.mem_singleton_self event)
  intro hsent
  have hstopped := hpair (Bool.and_eq_true_iff.mp hsent).2
  rw [hevent] at hstopped
  cases hstopped

/-- What is no request is not sent. -/
theorem sentAfterStop_quiet (tr : EmbedTrace (Option SweepControl) φ)
    {event : Event (Option SweepControl) EmbedCall (EmbedCall.Answer φ)}
    (h : isSend event.op = false) : sentAfterStop (tr ++ [event]) = sentAfterStop tr := by
  rw [sentAfterStop, List.filter_append, List.filter_singleton, h]
  exact List.append_nil _

theorem sentAfterStop_sublist (tr : EmbedTrace (Option SweepControl) φ)
    (event : Event (Option SweepControl) EmbedCall (EmbedCall.Answer φ)) :
    (sentAfterStop (tr ++ [event])).Sublist (sentAfterStop tr ++ [event]) := by
  rw [sentAfterStop, List.filter_append]
  exact List.Sublist.append (List.Sublist.refl _) List.filter_sublist

/-- At most so many attempts, all of them at one request. -/
structure AtOne (limit : Nat)
    (sent : List (Event (Option SweepControl) EmbedCall (EmbedCall.Answer φ))) : Prop where
  length : sent.length ≤ limit
  same : ∀ a ∈ sent, ∀ b ∈ sent, a.op = b.op

/-- What was sent is among some attempts at one request. -/
theorem atOne_of_sublist {limit : Nat} {request : EmbedRequest} {requests : List EmbedRequest}
    {sent : List (Event (Option SweepControl) EmbedCall (EmbedCall.Answer φ))}
    (h : (sent.map (·.op)).Sublist (requests.map .send)) (hsame : ∀ r ∈ requests, r = request)
    (hlength : requests.length ≤ limit) : AtOne limit sent := by
  constructor
  case length =>
    have hle := h.length_le
    rw [List.length_map, List.length_map] at hle
    exact hle.trans hlength
  case same =>
    have hone : ∀ a ∈ sent, a.op = .send request := by
      intro a ha
      obtain ⟨r, hr, hop⟩ := List.mem_map.mp (h.subset (List.mem_map_of_mem ha))
      rw [← hop, hsame r hr]
    exact fun a ha b hb => (hone a ha).trans (hone b hb).symm

/-- One call more: what was sent after a stop was sent after the last check. -/
theorem sentAfterStop_append {limit : Nat}
    {event : Event (Option SweepControl) EmbedCall (EmbedCall.Answer φ)}
    (hserved : FromControl event.before event.op event.answer)
    (hstay : StopStays (tr ++ [event])) (hheeds : Heeds limit tr event.op)
    (hlast : ((sentAfterStop tr).map (·.op)).Sublist ((sinceCheck tr).map .send))
    (hone : AtOne limit (sentAfterStop tr)) :
    (AllPassed (tr ++ [event]) → ((sentAfterStop (tr ++ [event])).map (·.op)).Sublist
        ((sinceCheck (tr ++ [event])).map .send)) ∧
      AtOne limit (sentAfterStop (tr ++ [event])) := by
  obtain ⟨s, op, answer⟩ := event
  rw [sinceCheck_append]
  cases op with
  | send request =>
      obtain ⟨hsame, hroom⟩ := hheeds.2 request rfl
      have hsub : ((sentAfterStop (tr ++ [⟨s, .send request, answer⟩])).map (·.op)).Sublist
          ((sinceCheck tr ++ [request]).map .send) := by
        refine ((sentAfterStop_sublist tr _).map _).trans ?_
        rw [List.map_append, List.map_append]
        exact hlast.append (List.Sublist.refl _)
      have hall : ∀ r ∈ sinceCheck tr ++ [request], r = request := by
        rw [List.forall_mem_append, List.forall_mem_singleton]
        exact ⟨hsame, rfl⟩
      refine ⟨fun _ => hsub, atOne_of_sublist hsub hall ?_⟩
      rw [List.length_append, List.length_singleton]
      exact hroom
  | cancelCheck =>
      rw [sentAfterStop_quiet tr rfl]
      refine ⟨fun hpassed => ?_, hone⟩
      have hclear : answer = .clear :=
        hpassed ⟨s, .cancelCheck, answer⟩ (List.mem_append_right _ (List.mem_singleton_self _))
      have hnot : Stopped (⟨s, .cancelCheck, answer⟩ :
          Event (Option SweepControl) EmbedCall (EmbedCall.Answer φ)) = false := by
        have hcontrol : answer = checkControl s := hserved
        rw [hclear] at hcontrol
        simp [Stopped, ← hcontrol]
      rw [sentAfterStop_of_passed hstay hnot]
      exact List.nil_sublist _
  | wait n =>
      rw [sentAfterStop_quiet tr rfl]
      exact ⟨fun _ => hlast, hone⟩
  | sleep seconds =>
      rw [sentAfterStop_quiet tr rfl]
      exact ⟨fun _ => hlast, hone⟩

/-- **Stopping.** Once an experiment is cancelled or paused, its embedder sends no more than one
    request, or three attempts at one with SIE. -/
theorem sent_after_stop_le {settings : EmbedSettings} {provider : Provider}
    {texts : List String} {m : EmbeddingModelId} {q : Embedding φ (List (List φ))}
    (hrun : Runs FromControl (embedDocuments settings provider texts m) tr q)
    (hstay : StopStays tr) : (sentAfterStop tr).length ≤ sendLimit provider ∧
      ∀ a ∈ sentAfterStop tr, ∀ b ∈ sentAfterStop tr, a.op = b.op := by
  have hprogram : Heeding (FromControl (φ := φ)) (sendLimit provider) []
      (embedDocuments settings provider texts m) := heeds_embedDocuments settings provider texts m
  have hboth : (AllPassed tr →
        ((sentAfterStop tr).map (·.op)).Sublist ((sinceCheck tr).map .send)) ∧
      AtOne (sendLimit provider) (sentAfterStop tr) := by
    induction hrun with
    | start => exact ⟨fun _ => List.Sublist.refl _, Nat.zero_le _, nofun⟩
    | @call tr op next s answer h ha ih =>
        have hheeds := (h.fulfils hprogram).1
        obtain ⟨hlast, hone⟩ := ih (List.pairwise_append.mp hstay).1
        exact sentAfterStop_append ha hstay hheeds (hlast hheeds.1) hone
  exact ⟨hboth.2.length, hboth.2.same⟩

end

/-! ## A busy service -/

section Busy

/-- The vector of a text is its length. -/
def lengthVectors (texts : List String) : List (List Nat) := texts.map fun text => [text.length]

def lengthResponse : (request : EmbedRequest) → request.Response Nat
  | .embed texts _ _ => lengthVectors texts
  | .contextualizedEmbed inputs _ _ => inputs.map lengthVectors
  | .sieEncode _ items => (lengthVectors items).map .vector
  | .localEncode _ texts => lengthVectors texts

def LengthOf : VectorOf Nat := fun _ text v => v = [text.length]

def busy : ServiceError := ⟨false, "503 Service Unavailable", fun _ => none⟩

/-- A service that is busy twice, for an experiment whose control is `control` after its check. -/
def busyTwice (control : Option SweepControl) (tr : EmbedTrace (Option SweepControl) Nat) :
    (op : EmbedCall) → Option SweepControl × EmbedCall.Answer Nat op
  | .cancelCheck => (none, .clear)
  | .wait _ => (control, true)
  | .send request =>
      (control, if (sends tr).length < 2 then .error busy else .ok (lengthResponse request))
  | .sleep _ => (control, ())

theorem fromControl_busyTwice (control : Option SweepControl)
    (tr : EmbedTrace (Option SweepControl) Nat) (op : EmbedCall) :
    FromControl (busyTwice control tr op).1 op (busyTwice control tr op).2 := by
  cases op with
  | cancelCheck => rfl
  | wait | send | sleep => trivial

theorem forall₂_lengthVectors (request : EmbedRequest) (texts : List String) :
    List.Forall₂ (LengthOf request) texts (lengthVectors texts) := by
  rw [lengthVectors, List.forall₂_map_right_iff, List.forall₂_same]
  exact fun _ _ => rfl

/-- It gives each text its own vector. -/
theorem vectors_lengthResponse {request : EmbedRequest} {vs : List (List Nat)}
    (h : request.vectors (lengthResponse request) = some vs) :
    vs = lengthVectors request.texts := by
  cases request with
  | embed | localEncode => exact (Option.some.inj h).symm
  | contextualizedEmbed inputs model inputType =>
      obtain rfl := Option.some.inj h
      exact (List.map_flatten ..).symm
  | sieEncode model items =>
      have hall : ∀ vs : List (List Nat), (vs.map Dense.vector).mapM Dense.vector? = some vs := by
        intro vs
        induction vs with
        | nil => rfl
        | cons v vs ih => simp [Dense.vector?, ih]
      exact Option.some.inj (h.symm.trans (hall _))

theorem servesVectors_busyTwice (control : Option SweepControl)
    (tr : EmbedTrace (Option SweepControl) Nat) (op : EmbedCall) :
    ServesVectors LengthOf (busyTwice control tr op).1 op (busyTwice control tr op).2 := by
  cases op with
  | cancelCheck | wait | sleep => trivial
  | send request =>
      show ServesVectors LengthOf control (.send request)
        (if (sends tr).length < 2 then .error busy else .ok (lengthResponse request))
      split
      · trivial
      · intro vs hvs
        rw [vectors_lengthResponse hvs]
        exact forall₂_lengthVectors request request.texts

/-- The SIE embedder, for a text. -/
def sieProgram : Embedding Nat (List (List Nat)) :=
  embedDocuments ⟨"", 0, String.length, fun _ => none⟩ .sie ["pell"] miniLm

/-- Cancelled after the check. -/
def cancelledRun : EmbedTrace (Option SweepControl) Nat × Except Raised (List (List Nat)) :=
  sieProgram.run (busyTwice (some ⟨true, false, 0⟩)) []

theorem cancelledRun_returns : cancelledRun.2 = .ok [[4]] :=
  toOption_eq_some.mp (by decide +kernel)

/-- The third attempt is answered, after pauses of half a second and of one. -/
theorem sie_delivered :
    Embedded LengthOf (siePolicy fun _ => none) (sieRequests ["pell"] miniLm) ["pell"]
      cancelledRun.1 [[4]] ∧
    cancelledRun.1.length = 6 ∧
    ∀ before event after, cancelledRun.1 = before ++ event :: after →
      Allowed (siePolicy fun _ => none) LengthOf (sieRequests ["pell"] miniLm) before event.op ∧
        Heeds 3 before event.op := by
  have hrun := runs_run (servesVectors_busyTwice (some ⟨true, false, 0⟩)) sieProgram
  change Runs _ _ cancelledRun.1 (.ended cancelledRun.2) at hrun
  rw [cancelledRun_returns] at hrun
  have hdelivers := embedDocuments_delivers (σ := Option SweepControl)
    ⟨"", 0, String.length, fun _ => none⟩ LengthOf .sie ["pell"] miniLm
  exact ⟨(hrun.fulfils hdelivers).1, by decide +kernel,
    fun before event after htr => (hrun.allowed hdelivers before event after htr).1⟩

theorem three_sent_after_cancel : (sentAfterStop cancelledRun.1).length = 3 ∧
    (sentAfterStop cancelledRun.1).length ≤ sendLimit .sie ∧
    ∀ a ∈ sentAfterStop cancelledRun.1, ∀ b ∈ sentAfterStop cancelledRun.1, a.op = b.op := by
  have hstays : StopStays cancelledRun.1 := by
    unfold StopStays
    decide +kernel
  exact ⟨by decide +kernel, sent_after_stop_le
    (runs_run (fromControl_busyTwice (some ⟨true, false, 0⟩)) sieProgram) hstays⟩

end Busy

end Embedders

end RagParamsFinder
