/-
  The sliding-window rate limiter (`server/core/embedding/rate_limiter.py`) shared by any
  number of threads.

  A thread is in `wait` at one of the points of `WaitPc`; a step is what it does between two
  points at which another thread can run: taking the lock, one round of `_wait_for_rpm` or
  `_wait_for_tpm` (which gives the lock up before it sleeps), waking up, and the final append.
  Time is an exact rational that `tick` moves on. `admitted` is history: every call that was
  let through, with the time and the tokens of its entry. The flag of `tpmTop` is history as
  well: the call has slept for tokens.

  Proved: `quotas_of_requestRoom`: both quotas hold at every moment of every run in which no
  call that has slept for tokens is let through while the request window is full. Without
  that, the request quota is exceeded (`rpm_exceeded`): the window is not looked at again
  after the sleep.
-/
import Mathlib.Algebra.BigOperators.Group.List.Basic
import Mathlib.Algebra.Order.BigOperators.Group.List
import Mathlib.Algebra.Order.Ring.Rat
import Mathlib.Tactic.Linarith
import RagParamsFinder.Lib.StepMachine
import RagParamsFinder.Lib.Window

namespace RagParamsFinder

open SlidingWindow StepMachine

/-! ## The limiter -/

/-- `_WINDOW_S`. -/
def windowS : Rat := 60

structure RateLimiter where
  rpm : Int
  tpm : Int
  requestTimes : List Rat
  tokenLog : List (Rat × Int)
  deriving DecidableEq

/-- `_purge_window`. -/
def RateLimiter.purgeWindow (l : RateLimiter) (now : Rat) : RateLimiter where
  rpm := l.rpm
  tpm := l.tpm
  requestTimes := purge id windowS now l.requestTimes
  tokenLog := purge Prod.fst windowS now l.tokenLog

def tokenSum (log : List (Rat × Int)) : Int := (log.map (·.2)).sum

/-- `_tokens_in_window`. -/
def RateLimiter.tokensInWindow (l : RateLimiter) : Int := tokenSum l.tokenLog

/-- One round of a wait loop: go on, sleep, or raise (`[0]` of an empty deque). -/
inductive Verdict where
  | pass
  | sleep (sleepFor : Rat)
  | raise
  deriving DecidableEq

/-- Sleep until the oldest entry has left the window. -/
def sleepOn (oldest : Option Rat) (now : Rat) : Verdict :=
  match oldest with
  | none => .raise
  | some t => if t + windowS - now + 1 / 10 ≤ 0 then .pass else .sleep (t + windowS - now + 1 / 10)

/-- A round of `_wait_for_rpm`, after the purge. -/
def RateLimiter.rpmVerdict (l : RateLimiter) (now : Rat) : Verdict :=
  if (l.requestTimes.length : Int) < l.rpm then .pass else sleepOn l.requestTimes.head? now

/-- A round of `_wait_for_tpm`, after the purge. -/
def RateLimiter.tpmVerdict (l : RateLimiter) (estimatedTokens : Int) (now : Rat) : Verdict :=
  if l.tokensInWindow + estimatedTokens ≤ l.tpm then .pass
  else if l.tokenLog = [] then .pass
  else sleepOn (l.tokenLog.head?.map (·.1)) now

/-- The appends at the end of `wait`. -/
def RateLimiter.record (l : RateLimiter) (now : Rat) (estimatedTokens : Int) : RateLimiter where
  rpm := l.rpm
  tpm := l.tpm
  requestTimes := l.requestTimes ++ [now]
  tokenLog := if 0 < estimatedTokens then l.tokenLog ++ [(now, estimatedTokens)] else l.tokenLog

/-! ## Threads -/

/-- Where a thread is in `wait`, with the estimated tokens of its call. -/
inductive WaitPc where
  | idle
  | enter (est : Int)
  | rpmTop (est : Int)
  | rpmSleep (est : Int) (wakeAt : Rat)
  | rpmAwake (est : Int)
  | tpmTop (est : Int) (slept : Bool)
  | tpmSleep (est : Int) (wakeAt : Rat)
  | tpmAwake (est : Int)
  | record (est : Int)
  deriving DecidableEq

/-- The thread is between `acquire` and `release`. -/
def WaitPc.holdsLock : WaitPc → Bool
  | .rpmTop _ => true
  | .tpmTop _ _ => true
  | .record _ => true
  | _ => false

structure Limiting (ι : Type) where
  limiter : RateLimiter
  lock : Option ι
  now : Rat
  pcs : ι → WaitPc
  admitted : List (Rat × Int)

inductive LimiterMove (ι : Type) where
  | tick (d : Rat)
  | call (i : ι) (est : Int)
  | go (i : ι)

def Limiting.start (ι : Type) (rpm tpm : Int) : Limiting ι where
  limiter := ⟨rpm, tpm, [], []⟩
  lock := none
  now := 0
  pcs := fun _ => .idle
  admitted := []

section Step

variable {ι : Type} [DecidableEq ι]

def Limiting.goto (s : Limiting ι) (i : ι) (pc : WaitPc) : Limiting ι :=
  { s with pcs := Function.update s.pcs i pc }

/-- `self._lock.acquire()`, when the lock is free. -/
def Limiting.acquire (s : Limiting ι) (i : ι) (pc : WaitPc) : Option (Limiting ι) :=
  if s.lock.isNone then some { s.goto i pc with lock := some i } else none

def Limiting.release (s : Limiting ι) (i : ι) (pc : WaitPc) : Limiting ι :=
  { s.goto i pc with lock := none }

/-- Where a call goes after `_wait_for_rpm`: the token loop returns at once without a ceiling
    or without tokens. -/
def afterRpm (l : RateLimiter) (est : Int) : WaitPc :=
  if l.tpm ≤ 0 ∨ est ≤ 0 then .record est else .tpmTop est false

/-- A round of `_wait_for_rpm`. -/
def Limiting.rpmRound (s : Limiting ι) (i : ι) (est : Int) : Limiting ι :=
  let s' := { s with limiter := s.limiter.purgeWindow s.now }
  match s'.limiter.rpmVerdict s.now with
  | .pass => s'.goto i (afterRpm s'.limiter est)
  | .sleep d => s'.release i (.rpmSleep est (s.now + d))
  | .raise => s'.release i .idle

/-- A round of `_wait_for_tpm`. -/
def Limiting.tpmRound (s : Limiting ι) (i : ι) (est : Int) : Limiting ι :=
  let s' := { s with limiter := s.limiter.purgeWindow s.now }
  match s'.limiter.tpmVerdict est s.now with
  | .pass => s'.goto i (.record est)
  | .sleep d => s'.release i (.tpmSleep est (s.now + d))
  | .raise => s'.release i .idle

/-- The end of `wait`: the entries are made and the lock is given back. -/
def Limiting.finish (s : Limiting ι) (i : ι) (est : Int) : Limiting ι :=
  { s.release i .idle with
    limiter := s.limiter.record s.now est
    admitted := s.admitted ++ [(s.now, est)] }

def Limiting.step (s : Limiting ι) : LimiterMove ι → Option (Limiting ι)
  | .tick d => if 0 ≤ d then some { s with now := s.now + d } else none
  | .call i est => if s.pcs i = .idle then some (s.goto i (.enter est)) else none
  | .go i =>
      match s.pcs i with
      | .idle => none
      | .enter est => s.acquire i (.rpmTop est)
      | .rpmTop est => some (s.rpmRound i est)
      | .rpmSleep est wakeAt => if wakeAt ≤ s.now then some (s.goto i (.rpmAwake est)) else none
      | .rpmAwake est => s.acquire i (.rpmTop est)
      | .tpmTop est _ => some (s.tpmRound i est)
      | .tpmSleep est wakeAt => if wakeAt ≤ s.now then some (s.goto i (.tpmAwake est)) else none
      | .tpmAwake est => s.acquire i (.tpmTop est true)
      | .record est => some (s.finish i est)

end Step

/-! ## Quotas -/

/-- The entries of the last 60 seconds. -/
def lastMinute (now : Rat) (entries : List (Rat × Int)) : List (Rat × Int) :=
  recent Prod.fst windowS now entries

/-- The calls admitted in the last 60 seconds. -/
def Limiting.window {ι : Type} (s : Limiting ι) : List (Rat × Int) := lastMinute s.now s.admitted

/-- Both quotas, at this moment. -/
structure Quotas {ι : Type} (rpm tpm : Int) (s : Limiting ι) : Prop where
  requests : (s.window.length : Int) ≤ rpm
  tokens : tokenSum s.window ≤ tpm

/-- A call that has slept for tokens and now goes on finds room in the request window. -/
def requestRoom {ι : Type} (rpm : Int) (s : Limiting ι) (move : LimiterMove ι)
    (t : Limiting ι) : Bool :=
  match move with
  | .go i =>
      match s.pcs i, t.pcs i with
      | .tpmTop _ true, .record _ => decide ((s.window.length : Int) < rpm)
      | _, _ => true
  | _ => true

/-! ## The books -/

/-- The entries of the window that the token log has: calls without tokens make none. -/
def logged (log : List (Rat × Int)) : List (Rat × Int) := log.filter fun e => 0 < e.2

theorem tokenSum_append (xs ys : List (Rat × Int)) :
    tokenSum (xs ++ ys) = tokenSum xs + tokenSum ys := by
  rw [tokenSum, List.map_append, List.sum_append]
  rfl

/-- Leaving out entries without tokens does not lower the sum. -/
theorem tokenSum_le_logged (log : List (Rat × Int)) : tokenSum log ≤ tokenSum (logged log) := by
  induction log with
  | nil => exact le_rfl
  | cons e log ih =>
      have hcons : tokenSum (e :: log) = e.2 + tokenSum log := List.sum_cons
      rw [logged, List.filter_cons]
      split
      · have hcons' : tokenSum (e :: logged log) = e.2 + tokenSum (logged log) := List.sum_cons
        change _ ≤ tokenSum (e :: logged log)
        omega
      · rename_i hneg
        have hle : e.2 ≤ 0 := by simpa using hneg
        change _ ≤ tokenSum (logged log)
        omega

/-- A smaller window has fewer tokens. -/
theorem tokenSum_logged_mono {xs ys : List (Rat × Int)} (h : xs.Sublist ys) :
    tokenSum (logged xs) ≤ tokenSum (logged ys) := by
  refine List.Sublist.sum_le_sum ((h.filter _).map _) fun n hn => ?_
  obtain ⟨e, he, rfl⟩ := List.mem_map.mp hn
  exact (of_decide_eq_true (List.mem_filter.mp he).2).le

theorem lastMinute_recent {now later : Rat} (hle : now ≤ later) (entries : List (Rat × Int)) :
    lastMinute later (lastMinute now entries) = lastMinute later entries :=
  recent_recent hle entries

theorem lastMinute_append_now (now : Rat) (entries : List (Rat × Int)) (est : Int) :
    lastMinute now (entries ++ [(now, est)]) = lastMinute now entries ++ [(now, est)] :=
  recent_append_now (by decide) entries rfl

/-- The queues show the window of the history. -/
structure Books (l : RateLimiter) (now : Rat) (admitted : List (Rat × Int)) : Prop where
  requestsInOrder : InOrder id now l.requestTimes
  tokensInOrder : InOrder Prod.fst now l.tokenLog
  requests : recent id windowS now l.requestTimes = (lastMinute now admitted).map (·.1)
  tokens : recent Prod.fst windowS now l.tokenLog = logged (lastMinute now admitted)

section Books

variable {l : RateLimiter} {now : Rat} {admitted : List (Rat × Int)} (h : Books l now admitted)

include h

theorem Books.purged_requests :
    (l.purgeWindow now).requestTimes = (lastMinute now admitted).map (·.1) :=
  (purge_eq_recent h.requestsInOrder).trans h.requests

theorem Books.purged_tokens : (l.purgeWindow now).tokenLog = logged (lastMinute now admitted) :=
  (purge_eq_recent h.tokensInOrder).trans h.tokens

theorem Books.purge : Books (l.purgeWindow now) now admitted where
  requestsInOrder := h.requestsInOrder.purge
  tokensInOrder := h.tokensInOrder.purge
  requests := (recent_purge h.requestsInOrder).trans h.requests
  tokens := (recent_purge h.tokensInOrder).trans h.tokens

theorem Books.later {later : Rat} (hle : now ≤ later) : Books l later admitted where
  requestsInOrder := h.requestsInOrder.later hle
  tokensInOrder := h.tokensInOrder.later hle
  requests := by
    rw [← recent_recent hle, h.requests, recent_map]
    exact congrArg _ (lastMinute_recent hle admitted)
  tokens := by
    rw [← recent_recent hle, h.tokens, logged, recent_filter]
    exact congrArg _ (lastMinute_recent hle admitted)

theorem Books.record (est : Int) :
    Books (l.record now est) now (admitted ++ [(now, est)]) where
  requestsInOrder := h.requestsInOrder.append rfl
  tokensInOrder := by
    unfold RateLimiter.record
    dsimp only
    split
    · exact h.tokensInOrder.append rfl
    · exact h.tokensInOrder
  requests := by
    rw [lastMinute_append_now, List.map_append, ← h.requests]
    exact recent_append_now (by decide) l.requestTimes rfl
  tokens := by
    rw [lastMinute_append_now, logged, List.filter_append, ← logged, ← h.tokens]
    unfold RateLimiter.record
    dsimp only
    split
    · rename_i hpos
      rw [List.filter_cons_of_pos (by simpa using hpos)]
      exact recent_append_now (by decide) l.tokenLog rfl
    · rename_i hpos
      rw [List.filter_cons_of_neg (by simpa using hpos), List.filter_nil, List.append_nil]

end Books

/-! ## What a round finds -/

/-- There is room for one more request, and for so many tokens. -/
def RequestsFit (rpm : Int) (window : List (Rat × Int)) : Prop := (window.length : Int) < rpm

def TokensFit (tpm est : Int) (window : List (Rat × Int)) : Prop :=
  tokenSum (logged window) + max est 0 ≤ tpm

/-- The oldest entry of a purged queue has not left the window: the loop sleeps. -/
theorem sleepOn_recent {oldest : Option Rat} {t now : Rat} (ht : oldest = some t)
    (hage : now - t ≤ windowS) : ∃ d, sleepOn oldest now = .sleep d := by
  refine ⟨t + windowS - now + 1 / 10, ?_⟩
  rw [ht]
  refine if_neg fun hle => ?_
  have htenth : (0 : Rat) < 1 / 10 := by decide +kernel
  linarith

section Rounds

variable {l : RateLimiter} {now : Rat} {admitted : List (Rat × Int)} (h : Books l now admitted)

include h

/-- The request loop goes on when there is room, and sleeps otherwise. -/
theorem Books.rpmVerdict (hrpm : 1 ≤ l.rpm) :
    ((l.purgeWindow now).rpmVerdict now = .pass ∧ RequestsFit l.rpm (lastMinute now admitted)) ∨
      ∃ d, (l.purgeWindow now).rpmVerdict now = .sleep d := by
  have hlen : (l.purgeWindow now).requestTimes.length = (lastMinute now admitted).length := by
    rw [h.purged_requests, List.length_map]
  by_cases hroom : RequestsFit l.rpm (lastMinute now admitted)
  · exact Or.inl ⟨if_pos (hlen ▸ hroom), hroom⟩
  · right
    have hfull : ¬((l.purgeWindow now).requestTimes.length : Int) < l.rpm := hlen ▸ hroom
    have hverdict : (l.purgeWindow now).rpmVerdict now =
        sleepOn (l.purgeWindow now).requestTimes.head? now := if_neg hfull
    rw [hverdict]
    cases hq : (l.purgeWindow now).requestTimes with
    | nil =>
        rw [hq] at hfull
        exact absurd (show ((0 : Nat) : Int) < l.rpm by omega) hfull
    | cons t ts =>
        refine sleepOn_recent rfl ?_
        have hmem : t ∈ recent id windowS now l.requestTimes := by
          rw [← purge_eq_recent h.requestsInOrder]
          change t ∈ (l.purgeWindow now).requestTimes
          rw [hq]
          exact List.mem_cons_self ..
        exact of_decide_eq_true (List.mem_filter.mp hmem).2

/-- The token loop goes on when there is room, and sleeps otherwise. -/
theorem Books.tpmVerdict {est : Int} (hest : est ≤ l.tpm)
    (hquota : tokenSum (logged (lastMinute now admitted)) ≤ l.tpm) :
    ((l.purgeWindow now).tpmVerdict est now = .pass ∧
        TokensFit l.tpm est (lastMinute now admitted)) ∨
      ∃ d, (l.purgeWindow now).tpmVerdict est now = .sleep d := by
  have hsum : (l.purgeWindow now).tokensInWindow = tokenSum (logged (lastMinute now admitted)) :=
    congrArg tokenSum h.purged_tokens
  by_cases hroom : tokenSum (logged (lastMinute now admitted)) + est ≤ l.tpm
  · refine Or.inl ⟨if_pos (hsum ▸ hroom), ?_⟩
    unfold TokensFit
    omega
  · right
    have hfull : ¬(l.purgeWindow now).tokensInWindow + est ≤ (l.purgeWindow now).tpm :=
      hsum ▸ hroom
    cases hq : (l.purgeWindow now).tokenLog with
    | nil =>
        rw [RateLimiter.tokensInWindow, hq] at hsum
        rw [← hsum] at hroom
        exact absurd (show tokenSum [] + est ≤ l.tpm by rw [tokenSum]; simpa using hest) hroom
    | cons e es =>
        have hne : ¬(l.purgeWindow now).tokenLog = [] := by rw [hq]; exact List.cons_ne_nil _ _
        have hverdict : (l.purgeWindow now).tpmVerdict est now =
            sleepOn ((l.purgeWindow now).tokenLog.head?.map (·.1)) now :=
          (if_neg hfull).trans (if_neg hne)
        rw [hverdict, hq]
        refine sleepOn_recent rfl ?_
        have hmem : e ∈ recent Prod.fst windowS now l.tokenLog := by
          rw [← purge_eq_recent h.tokensInOrder]
          change e ∈ (l.purgeWindow now).tokenLog
          rw [hq]
          exact List.mem_cons_self ..
        exact of_decide_eq_true (List.mem_filter.mp hmem).2

end Rounds

/-! ## The invariant -/

/-- What is known of a thread at a point of `wait`, by the checks it has passed since it took
    the lock. -/
def PointOk (rpm tpm : Int) (window : List (Rat × Int)) : WaitPc → Prop
  | .idle => True
  | .enter est => est ≤ tpm
  | .rpmTop est => est ≤ tpm
  | .rpmSleep est _ => est ≤ tpm
  | .rpmAwake est => est ≤ tpm
  | .tpmTop est slept => est ≤ tpm ∧ (slept = false → RequestsFit rpm window)
  | .tpmSleep est _ => est ≤ tpm
  | .tpmAwake est => est ≤ tpm
  | .record est => RequestsFit rpm window ∧ TokensFit tpm est window

theorem RequestsFit.mono {rpm : Int} {xs ys : List (Rat × Int)} (h : RequestsFit rpm ys)
    (hsub : xs.Sublist ys) : RequestsFit rpm xs :=
  (Int.ofNat_le.mpr hsub.length_le).trans_lt h

theorem TokensFit.mono {tpm est : Int} {xs ys : List (Rat × Int)} (h : TokensFit tpm est ys)
    (hsub : xs.Sublist ys) : TokensFit tpm est xs :=
  (Int.add_le_add_right (tokenSum_logged_mono hsub) _).trans h

theorem PointOk.mono {rpm tpm : Int} {xs ys : List (Rat × Int)} {pc : WaitPc}
    (h : PointOk rpm tpm ys pc) (hsub : xs.Sublist ys) : PointOk rpm tpm xs pc := by
  cases pc with
  | tpmTop est slept => exact ⟨h.1, fun hs => (h.2 hs).mono hsub⟩
  | record est => exact ⟨h.1.mono hsub, h.2.mono hsub⟩
  | _ => exact h

/-- Without the lock nothing is known of the window. -/
theorem PointOk.of_not_holdsLock {rpm tpm : Int} {xs ys : List (Rat × Int)} {pc : WaitPc}
    (h : PointOk rpm tpm ys pc) (hpc : pc.holdsLock = false) : PointOk rpm tpm xs pc := by
  cases pc with
  | tpmTop est slept => cases hpc
  | record est => cases hpc
  | _ => exact h

structure Safe {ι : Type} (rpm tpm : Int) (s : Limiting ι) : Prop where
  rpm_eq : s.limiter.rpm = rpm
  tpm_eq : s.limiter.tpm = tpm
  books : Books s.limiter s.now s.admitted
  requests : (s.window.length : Int) ≤ rpm
  tokens : tokenSum (logged s.window) ≤ tpm
  owner : ∀ i, (s.pcs i).holdsLock = true → s.lock = some i
  points : ∀ i, PointOk rpm tpm s.window (s.pcs i)

theorem Safe.quotas {ι : Type} {rpm tpm : Int} {s : Limiting ι} (h : Safe rpm tpm s) :
    Quotas rpm tpm s :=
  ⟨h.requests, (tokenSum_le_logged s.window).trans h.tokens⟩

theorem Safe.start {ι : Type} {rpm tpm : Int} (hrpm : 0 ≤ rpm) (htpm : 0 ≤ tpm) :
    Safe rpm tpm (Limiting.start ι rpm tpm) where
  rpm_eq := rfl
  tpm_eq := rfl
  books := ⟨⟨List.Pairwise.nil, fun e he => absurd he List.not_mem_nil⟩,
    ⟨List.Pairwise.nil, fun e he => absurd he List.not_mem_nil⟩, rfl, rfl⟩
  requests := hrpm
  tokens := htpm
  owner i h := by cases h
  points i := trivial

section Steps

variable {ι : Type} {rpm tpm : Int} {s : Limiting ι} (h : Safe rpm tpm s)

include h

theorem Safe.tick {d : Rat} (hd : 0 ≤ d) : Safe rpm tpm { s with now := s.now + d } := by
  have hle : s.now ≤ s.now + d := le_add_of_nonneg_right hd
  have hsub : (lastMinute (s.now + d) s.admitted).Sublist s.window := recent_sublist hle _
  exact {
    rpm_eq := h.rpm_eq
    tpm_eq := h.tpm_eq
    books := h.books.later hle
    requests := (Int.ofNat_le.mpr hsub.length_le).trans h.requests
    tokens := (tokenSum_logged_mono hsub).trans h.tokens
    owner := h.owner
    points := fun i => (h.points i).mono hsub }

theorem Safe.point {i : ι} {pc : WaitPc} (hi : s.pcs i = pc) : PointOk rpm tpm s.window pc :=
  hi ▸ h.points i

/-- While a thread holds the lock no other does. -/
theorem Safe.others_free {i : ι} (hi : (s.pcs i).holdsLock = true) (j : ι) (hj : j ≠ i) :
    (s.pcs j).holdsLock = false := by
  rw [Bool.eq_false_iff]
  intro hjl
  exact hj (Option.some.inj ((h.owner j hjl).symm.trans (h.owner i hi)))

variable [DecidableEq ι]

/-- A thread moves on: the window stays, and the lock is where the points say. -/
theorem Safe.move {l : RateLimiter} {lock : Option ι} {i : ι} {pc : WaitPc}
    (hl : l = s.limiter ∨ l = s.limiter.purgeWindow s.now)
    (hpoint : PointOk rpm tpm s.window pc) (hmine : pc.holdsLock = true → lock = some i)
    (hothers : ∀ j, j ≠ i → (s.pcs j).holdsLock = true → lock = some j) :
    Safe rpm tpm
      { limiter := l
        lock := lock
        now := s.now
        pcs := Function.update s.pcs i pc
        admitted := s.admitted } where
  rpm_eq := by rcases hl with rfl | rfl <;> exact h.rpm_eq
  tpm_eq := by rcases hl with rfl | rfl <;> exact h.tpm_eq
  books := by
    rcases hl with rfl | rfl
    · exact h.books
    · exact h.books.purge
  requests := h.requests
  tokens := h.tokens
  owner j hj := by
    by_cases hji : j = i
    · subst hji
      exact hmine (by simpa using hj)
    · exact hothers j hji (by simpa [hji] using hj)
  points j := by
    by_cases hji : j = i
    · subst hji
      change PointOk rpm tpm s.window (Function.update s.pcs j pc j)
      rwa [Function.update_self]
    · change PointOk rpm tpm s.window (Function.update s.pcs i pc j)
      rw [Function.update_of_ne hji]
      exact h.points j

/-- A step that leaves the lock alone and does not take it. -/
theorem Safe.wander {i : ι} {pc : WaitPc} (hpoint : PointOk rpm tpm s.window pc)
    (hpc : pc.holdsLock = false) : Safe rpm tpm (s.goto i pc) :=
  h.move (Or.inl rfl) hpoint (fun hl => absurd (hpc.symm.trans hl) Bool.false_ne_true)
    fun j _ hj => h.owner j hj

theorem Safe.acquire {i : ι} {pc : WaitPc} {t : Limiting ι} (ht : s.acquire i pc = some t)
    (hpoint : PointOk rpm tpm s.window pc) : Safe rpm tpm t := by
  unfold Limiting.acquire at ht
  split at ht
  · rename_i hfree
    obtain rfl := Option.some.inj ht
    refine h.move (Or.inl rfl) hpoint (fun _ => rfl) fun j _ hj => ?_
    rw [h.owner j hj] at hfree
    cases hfree
  · cases ht

/-- The holder of the lock goes on with it, after a purge. -/
theorem Safe.keep {i : ι} {pc : WaitPc} (hi : (s.pcs i).holdsLock = true)
    (hpoint : PointOk rpm tpm s.window pc) :
    Safe rpm tpm ({ s with limiter := s.limiter.purgeWindow s.now }.goto i pc) :=
  h.move (Or.inr rfl) hpoint (fun _ => h.owner i hi) fun j hj hl =>
    absurd ((h.others_free hi j hj).symm.trans hl) Bool.false_ne_true

/-- The holder of the lock gives it up, after a purge. -/
theorem Safe.giveUp {i : ι} {pc : WaitPc} (hi : (s.pcs i).holdsLock = true)
    (hpoint : PointOk rpm tpm s.window pc) (hpc : pc.holdsLock = false) :
    Safe rpm tpm ({ s with limiter := s.limiter.purgeWindow s.now }.release i pc) :=
  h.move (Or.inr rfl) hpoint (fun hl => absurd (hpc.symm.trans hl) Bool.false_ne_true)
    fun j hj hl => absurd ((h.others_free hi j hj).symm.trans hl) Bool.false_ne_true

theorem Safe.rpmRound (hrpm : 1 ≤ rpm) (htpm : 1 ≤ tpm) {i : ι} {est : Int}
    (hi : s.pcs i = .rpmTop est) : Safe rpm tpm (s.rpmRound i est) := by
  have hlock : (s.pcs i).holdsLock = true := by rw [hi]; rfl
  have hest : est ≤ tpm := h.point hi
  unfold Limiting.rpmRound
  dsimp only
  rcases h.books.rpmVerdict (h.rpm_eq ▸ hrpm) with ⟨hpass, hroom⟩ | ⟨d, hsleep⟩
  · rw [hpass]
    rw [h.rpm_eq] at hroom
    refine h.keep hlock ?_
    unfold afterRpm
    split
    · rename_i hskip
      have htpm' : (s.limiter.purgeWindow s.now).tpm = tpm := h.tpm_eq
      have hnone : est ≤ 0 := hskip.resolve_left (by omega)
      refine ⟨hroom, ?_⟩
      rw [TokensFit, max_eq_right hnone, add_zero]
      exact h.tokens
    · exact ⟨hest, fun _ => hroom⟩
  · rw [hsleep]
    exact h.giveUp hlock hest rfl

/-- After a round of the token loop: the call goes on with room for its tokens, or sleeps. -/
theorem Safe.tpmRound {i : ι} {est : Int} {slept : Bool} (hi : s.pcs i = .tpmTop est slept)
    (hroom : requestRoom rpm s (.go i) (s.tpmRound i est) = true) :
    Safe rpm tpm (s.tpmRound i est) := by
  have hlock : (s.pcs i).holdsLock = true := by rw [hi]; rfl
  have hpoint := h.point hi
  have hverdict := h.books.tpmVerdict (h.tpm_eq.symm ▸ hpoint.1) (h.tpm_eq.symm ▸ h.tokens)
  rw [h.tpm_eq] at hverdict
  unfold Limiting.tpmRound at hroom ⊢
  dsimp only at hroom ⊢
  rcases hverdict with ⟨hpass, htokens⟩ | ⟨d, hsleep⟩
  · rw [hpass] at hroom ⊢
    refine h.keep hlock ⟨?_, htokens⟩
    cases slept with
    | false => exact hpoint.2 rfl
    | true =>
        -- the call has slept: only the condition on the step says that there is room
        simp only [requestRoom, hi, Limiting.goto, Function.update_self] at hroom
        have hfit : (s.window.length : Int) < rpm := of_decide_eq_true hroom
        exact hfit
  · rw [hsleep]
    exact h.giveUp hlock hpoint.1 rfl

theorem Safe.finish {i : ι} {est : Int} (hi : s.pcs i = .record est) :
    Safe rpm tpm (s.finish i est) := by
  have hlock : (s.pcs i).holdsLock = true := by rw [hi]; rfl
  obtain ⟨hroom, htokens⟩ := h.point hi
  have hwindow : (s.finish i est).window = s.window ++ [(s.now, est)] :=
    lastMinute_append_now s.now s.admitted est
  have hfree : ∀ j, ((s.finish i est).pcs j).holdsLock = false := by
    intro j
    change (Function.update s.pcs i .idle j).holdsLock = false
    by_cases hji : j = i
    · subst hji
      rw [Function.update_self]
      rfl
    · rw [Function.update_of_ne hji]
      exact h.others_free hlock j hji
  constructor
  case rpm_eq => exact h.rpm_eq
  case tpm_eq => exact h.tpm_eq
  case books => exact h.books.record est
  case requests =>
    unfold RequestsFit at hroom
    rw [hwindow, List.length_append, List.length_singleton]
    omega
  case tokens =>
    have hnew : tokenSum (logged [(s.now, est)]) ≤ max est 0 := by
      by_cases hpos : 0 < est
      · simp [logged, tokenSum, hpos]
      · simp [logged, tokenSum, hpos]
    unfold TokensFit at htokens
    rw [hwindow, logged, List.filter_append, ← logged, ← logged, tokenSum_append]
    omega
  case owner => exact fun j hj => absurd ((hfree j).symm.trans hj) Bool.false_ne_true
  case points =>
    intro j
    have hpoint : PointOk rpm tpm s.window (Function.update s.pcs i .idle j) := by
      by_cases hji : j = i
      · subst hji
        rw [Function.update_self]
        trivial
      · rw [Function.update_of_ne hji]
        exact h.points j
    exact hpoint.of_not_holdsLock (hfree j)

/-- Every step keeps the invariant, under the condition on the step. -/
theorem Safe.step (hrpm : 1 ≤ rpm) (htpm : 1 ≤ tpm) {move : LimiterMove ι} {t : Limiting ι}
    (ht : s.step move = some t) (hest : ∀ i est, move = .call i est → est ≤ tpm)
    (hroom : requestRoom rpm s move t = true) : Safe rpm tpm t := by
  cases move with
  | tick d =>
      obtain ⟨hd, ht⟩ := Option.ite_none_right_eq_some.mp ht
      exact Option.some.inj ht ▸ h.tick hd
  | call i est =>
      obtain ⟨-, ht⟩ := Option.ite_none_right_eq_some.mp ht
      exact Option.some.inj ht ▸ h.wander (hest i est rfl) rfl
  | go i =>
      unfold Limiting.step at ht
      dsimp only at ht
      split at ht
      case h_1 => cases ht
      case h_2 est hi =>
        have hpoint : est ≤ tpm := h.point hi
        exact h.acquire ht hpoint
      case h_3 est hi => exact Option.some.inj ht ▸ h.rpmRound hrpm htpm hi
      case h_4 est wakeAt hi =>
        have hpoint : est ≤ tpm := h.point hi
        obtain ⟨-, ht⟩ := Option.ite_none_right_eq_some.mp ht
        exact Option.some.inj ht ▸ h.wander hpoint rfl
      case h_5 est hi =>
        have hpoint : est ≤ tpm := h.point hi
        exact h.acquire ht hpoint
      case h_6 est slept hi =>
        obtain rfl := Option.some.inj ht
        exact h.tpmRound hi hroom
      case h_7 est wakeAt hi =>
        have hpoint : est ≤ tpm := h.point hi
        obtain ⟨-, ht⟩ := Option.ite_none_right_eq_some.mp ht
        exact Option.some.inj ht ▸ h.wander hpoint rfl
      case h_8 est hi =>
        have hpoint : est ≤ tpm := h.point hi
        exact h.acquire ht ⟨hpoint, fun hs => absurd hs.symm Bool.false_ne_true⟩
      case h_9 est hi => exact Option.some.inj ht ▸ h.finish hi

/-- Every run keeps it, under the condition on its steps. -/
theorem Safe.run (hrpm : 1 ≤ rpm) (htpm : 1 ≤ tpm) {moves : List (LimiterMove ι)}
    {t : Limiting ι} (ht : exec Limiting.step s moves = some t)
    (hest : ∀ i est, .call i est ∈ moves → est ≤ tpm)
    (hroom : EveryStep Limiting.step (fun s move t => requestRoom rpm s move t = true) s moves) :
    Safe rpm tpm t := by
  induction moves generalizing s with
  | nil => exact Option.some.inj ht ▸ h
  | cons move moves ih =>
      obtain ⟨r, hr, ht⟩ := Option.bind_eq_some_iff.mp ht
      obtain ⟨hfirst, hrest⟩ := hroom r hr
      have hcall : ∀ i est, move = .call i est → est ≤ tpm :=
        fun i est hm => hest i est (hm ▸ List.mem_cons_self ..)
      exact ih (h.step hrpm htpm hr hcall hfirst) ht
        (fun i est hm => hest i est (List.mem_cons_of_mem _ hm)) hrest

end Steps

/-! ## Runs -/

/-- Every run under the condition ends in a state in which both quotas hold; so they hold at
    every moment, since a run may end at any. -/
theorem quotas_of_requestRoom {ι : Type} [DecidableEq ι] {rpm tpm : Int} (hrpm : 1 ≤ rpm)
    (htpm : 1 ≤ tpm) {moves : List (LimiterMove ι)}
    (hest : ∀ i est, .call i est ∈ moves → est ≤ tpm)
    (hroom : EveryStep Limiting.step (fun s move t => requestRoom rpm s move t = true)
      (Limiting.start ι rpm tpm) moves)
    {s : Limiting ι} (hs : exec Limiting.step (Limiting.start ι rpm tpm) moves = some s) :
    Quotas rpm tpm s :=
  ((Safe.start (by omega) (by omega)).run hrpm htpm hs hest hroom).quotas

/-- Two requests and ten tokens a minute: the second call sleeps until the tokens of the first
    have left, and the fourth one for a request. -/
def fourCalls : List (LimiterMove (Fin 4)) :=
  [.call 0 10, .go 0, .go 0, .go 0, .go 0,
   .call 1 4, .go 1, .go 1, .go 1, .tick 61, .go 1, .go 1, .go 1, .go 1,
   .call 2 3, .go 2, .go 2, .go 2, .go 2,
   .call 3 3, .go 3, .go 3, .tick 61, .go 3, .go 3, .go 3, .go 3, .go 3]

theorem quotas_of_fourCalls :
    ∃ s, exec Limiting.step (Limiting.start (Fin 4) 2 10) fourCalls = some s ∧
      s.admitted = [(0, 10), (61, 4), (61, 3), (122, 3)] ∧ Quotas 2 10 s := by
  have hadmitted : (exec Limiting.step (Limiting.start (Fin 4) 2 10) fourCalls).map
      (·.admitted) = some [(0, 10), (61, 4), (61, 3), (122, 3)] := by decide +kernel
  obtain ⟨s, hs, hcalls⟩ := Option.map_eq_some_iff.mp hadmitted
  refine ⟨s, hs, hcalls,
    quotas_of_requestRoom (by decide) (by decide) ?_ (by decide +kernel) hs⟩
  intro i est hm
  simp only [fourCalls, List.mem_cons, LimiterMove.call.injEq, reduceCtorEq, false_or, or_false,
    List.not_mem_nil] at hm
  omega

/-- Two requests and ten tokens a minute: the second call waits for tokens while two calls
    without tokens are let through, and is let through as the third one of its minute. -/
def overtaken : List (LimiterMove (Fin 4)) :=
  [.call 0 10, .go 0, .go 0, .go 0, .go 0,
   .call 1 10, .go 1, .go 1, .go 1,
   .tick 59, .call 2 0, .go 2, .go 2, .go 2,
   .tick (21 / 20), .call 3 0, .go 3, .go 3, .go 3,
   .tick (1 / 20), .go 1, .go 1, .go 1, .go 1]

theorem rpm_exceeded :
    ¬∀ (threads : Nat) (rpm tpm : Int) (moves : List (LimiterMove (Fin threads)))
      (s : Limiting (Fin threads)), 1 ≤ rpm → 1 ≤ tpm →
      (∀ i est, .call i est ∈ moves → est ≤ tpm) →
      exec Limiting.step (Limiting.start (Fin threads) rpm tpm) moves = some s →
        Quotas rpm tpm s := by
  intro h
  have hthree : ((exec Limiting.step (Limiting.start (Fin 4) 2 10) overtaken).map
      fun s => s.window.length) = some 3 := by decide +kernel
  obtain ⟨s, hs, hlen⟩ := Option.map_eq_some_iff.mp hthree
  have hquotas := h 4 2 10 overtaken s (by decide) (by decide) ?_ hs
  · have hle := hquotas.requests
    rw [hlen] at hle
    exact absurd hle (by decide)
  · intro i est hm
    simp only [overtaken, List.mem_cons, LimiterMove.call.injEq, reduceCtorEq, false_or, or_false,
      List.not_mem_nil] at hm
    omega

end RagParamsFinder
