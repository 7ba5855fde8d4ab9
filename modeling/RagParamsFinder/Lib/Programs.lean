/-
  Programs that call a shared service.

  A program is the tree of its calls: what it does next depends on the answers. Other parties
  may use the service between two calls, so a call is answered in a state that the program
  knows nothing of. A trace lists the calls made so far, each with the state that it met and
  its answer.

  `Meets serves ok post tr p`: after the trace `tr` every call of `p` is made where `ok`
  allows it, and if `p` returns, it returns in `post`, whatever the service answers.

  * `meets_bind`: the rule of sequencing.
  * `meets_answered`: a call that is answered leaves a program that still meets its
    specification.

  `Fulfils serves ok post exc tr p`: the same, and if `p` raises, it raises in `exc`.

  * `fulfils_bind`, `fulfils_handle`, `fulfils_foldM`: sequencing, a handler, a loop.
  * `fulfils_lift`: a program that is run as a part of another, among calls of other kinds.
  * `Runs.allowed`: along a run of a program that fulfils its specification every call was
    allowed when it was made, and answered as the service does.
  * `runs_run`: a service that is a function gives a run to the end.
-/

namespace Programs

universe u v w

/-- A program that may call `op`, raise an `ε`, or return an `α`. -/
inductive Program (Op : Type u) (Ans : Op → Type v) (ε α : Type w) where
  | done (a : α)
  | raise (e : ε)
  | call (op : Op) (next : Ans op → Program Op Ans ε α)

/-- A call, the state of the service when it was made, and the answer. -/
structure Event (σ : Type w) (Op : Type u) (Ans : Op → Type v) where
  before : σ
  op : Op
  answer : Ans op

abbrev Trace (σ : Type w) (Op : Type u) (Ans : Op → Type v) := List (Event σ Op Ans)

variable {σ : Type w} {Op : Type u} {Ans : Op → Type v} {ε α β : Type w}

def Program.bind : Program Op Ans ε α → (α → Program Op Ans ε β) → Program Op Ans ε β
  | .done a, f => f a
  | .raise e, _ => .raise e
  | .call op next, f => .call op fun answer => (next answer).bind f

instance : Monad (Program Op Ans ε) where
  pure := .done
  bind := .bind

/-! ## Specifications -/

section Meets

variable (serves : σ → (op : Op) → Ans op → Prop) (ok : Trace σ Op Ans → Op → Prop)
  (post : Trace σ Op Ans → α → Prop)

def Meets : Trace σ Op Ans → Program Op Ans ε α → Prop
  | tr, .done a => post tr a
  | _, .raise _ => True
  | tr, .call op next =>
      ok tr op ∧ ∀ s answer, serves s op answer → Meets (tr ++ [⟨s, op, answer⟩]) (next answer)

end Meets

variable {serves : σ → (op : Op) → Ans op → Prop} {ok : Trace σ Op Ans → Op → Prop}
  {tr : Trace σ Op Ans}

/-- What the first program returns is handed on; what it raises ends the whole. -/
theorem meets_bind {m : Trace σ Op Ans → α → Prop} {post : Trace σ Op Ans → β → Prop}
    {p : Program Op Ans ε α} {f : α → Program Op Ans ε β} (h : Meets serves ok m tr p)
    (hf : ∀ tr a, m tr a → Meets serves ok post tr (f a)) :
    Meets serves ok post tr (p >>= f) := by
  induction p generalizing tr with
  | done a => exact hf _ _ h
  | raise e => trivial
  | call op next ih => exact ⟨h.1, fun s answer ha => ih answer (h.2 s answer ha)⟩

theorem meets_answered {post : Trace σ Op Ans → α → Prop} {op : Op}
    {next : Ans op → Program Op Ans ε α} (h : Meets serves ok post tr (.call op next)) {s : σ}
    {answer : Ans op} (ha : serves s op answer) :
    Meets serves ok post (tr ++ [⟨s, op, answer⟩]) (next answer) :=
  h.2 s answer ha

/-! ## Exceptions -/

/-- `try: p except: f`. -/
def Program.handle {ε' : Type w} :
    Program Op Ans ε α → (ε → Program Op Ans ε' α) → Program Op Ans ε' α
  | .done a, _ => .done a
  | .raise e, f => f e
  | .call op next, f => .call op fun answer => (next answer).handle f

/-- A loop over a list, with an accumulator. -/
def foldM (step : β → α → Program Op Ans ε β) : β → List α → Program Op Ans ε β
  | b, [] => .done b
  | b, a :: as => step b a >>= fun b => foldM step b as

section Fulfils

variable (serves : σ → (op : Op) → Ans op → Prop) (ok : Trace σ Op Ans → Op → Prop)
  (post : Trace σ Op Ans → α → Prop) (exc : Trace σ Op Ans → ε → Prop)

def Fulfils : Trace σ Op Ans → Program Op Ans ε α → Prop
  | tr, .done a => post tr a
  | tr, .raise e => exc tr e
  | tr, .call op next =>
      ok tr op ∧ ∀ s answer, serves s op answer → Fulfils (tr ++ [⟨s, op, answer⟩]) (next answer)

end Fulfils

section Rules

variable {post : Trace σ Op Ans → α → Prop} {exc : Trace σ Op Ans → ε → Prop}

theorem fulfils_bind {m : Trace σ Op Ans → β → Prop} {p : Program Op Ans ε β}
    {f : β → Program Op Ans ε α} (h : Fulfils serves ok m exc tr p)
    (hf : ∀ tr b, m tr b → Fulfils serves ok post exc tr (f b)) :
    Fulfils serves ok post exc tr (p >>= f) := by
  induction p generalizing tr with
  | done b => exact hf _ _ h
  | raise e => exact h
  | call op next ih => exact ⟨h.1, fun s answer ha => ih answer (h.2 s answer ha)⟩

theorem fulfils_handle {ε' : Type w} {exc' : Trace σ Op Ans → ε' → Prop}
    {p : Program Op Ans ε α} {f : ε → Program Op Ans ε' α}
    (h : Fulfils serves ok post exc tr p)
    (hf : ∀ tr e, exc tr e → Fulfils serves ok post exc' tr (f e)) :
    Fulfils serves ok post exc' tr (p.handle f) := by
  induction p generalizing tr with
  | done a => exact h
  | raise e => exact hf _ _ h
  | call op next ih => exact ⟨h.1, fun s answer ha => ih answer (h.2 s answer ha)⟩

theorem Fulfils.mono {post' : Trace σ Op Ans → α → Prop} {exc' : Trace σ Op Ans → ε → Prop}
    {p : Program Op Ans ε α} (h : Fulfils serves ok post exc tr p)
    (hpost : ∀ tr a, post tr a → post' tr a) (hexc : ∀ tr e, exc tr e → exc' tr e) :
    Fulfils serves ok post' exc' tr p := by
  induction p generalizing tr with
  | done a => exact hpost _ _ h
  | raise e => exact hexc _ _ h
  | call op next ih => exact ⟨h.1, fun s answer ha => ih answer (h.2 s answer ha)⟩

theorem Fulfils.and {ok' : Trace σ Op Ans → Op → Prop} {post' : Trace σ Op Ans → α → Prop}
    {exc' : Trace σ Op Ans → ε → Prop} {p : Program Op Ans ε α}
    (h : Fulfils serves ok post exc tr p) (h' : Fulfils serves ok' post' exc' tr p) :
    Fulfils serves (fun tr op => ok tr op ∧ ok' tr op) (fun tr a => post tr a ∧ post' tr a)
      (fun tr e => exc tr e ∧ exc' tr e) tr p := by
  induction p generalizing tr with
  | done a => exact ⟨h, h'⟩
  | raise e => exact ⟨h, h'⟩
  | call op next ih =>
      exact ⟨⟨h.1, h'.1⟩, fun s answer ha => ih answer (h.2 s answer ha) (h'.2 s answer ha)⟩

/-- The rule of loops: `inv` holds of the elements done and the accumulator. -/
theorem fulfils_foldM {γ : Type w} {step : β → γ → Program Op Ans ε β}
    (inv : List γ → Trace σ Op Ans → β → Prop) (todo : List γ)
    (hstep : ∀ done c rest, done ++ c :: rest = todo → ∀ tr b, inv done tr b →
      Fulfils serves ok (inv (done ++ [c])) exc tr (step b c)) :
    ∀ done rest, done ++ rest = todo → ∀ tr b, inv done tr b →
      Fulfils serves ok (inv todo) exc tr (foldM step b rest) := by
  intro done rest
  induction rest generalizing done with
  | nil =>
      intro hdone tr b h
      rw [List.append_nil] at hdone
      exact hdone ▸ h
  | cons c rest ih =>
      intro hdone tr b h
      refine fulfils_bind (hstep done c rest hdone tr b h) fun tr b h => ?_
      exact ih (done ++ [c]) (by rw [List.append_assoc]; exact hdone) tr b h

end Rules

/-! ## Parts -/

section Lift

variable {Op' : Type u} {Ans' : Op' → Type v} {ε' : Type w} (inj : Op → Op')
  (down : (op : Op) → Ans' (inj op) → Ans op) (up : ε → ε')

/-- The program as a part of one with more calls. -/
def Program.lift : Program Op Ans ε α → Program Op' Ans' ε' α
  | .done a => .done a
  | .raise e => .raise (up e)
  | .call op next => .call (inj op) fun answer => (next (down op answer)).lift

variable {inj down up}

/-- `part` shows the events of the part; `inv` is kept by its calls. -/
theorem fulfils_lift {post : Trace σ Op Ans → α → Prop} {exc : Trace σ Op Ans → ε → Prop}
    {serves' : σ → (op : Op') → Ans' op → Prop} {ok' : Trace σ Op' Ans' → Op' → Prop}
    (part : Trace σ Op' Ans' → Trace σ Op Ans) (inv : Trace σ Op' Ans' → Prop)
    (hpart : ∀ tr s op answer, part (tr ++ [⟨s, inj op, answer⟩]) =
      part tr ++ [⟨s, op, down op answer⟩])
    (hserves : ∀ s op answer, serves' s (inj op) answer → serves s op (down op answer))
    (hok : ∀ tr op, inv tr → ok (part tr) op → ok' tr (inj op))
    (hinv : ∀ tr s op answer, inv tr → inv (tr ++ [⟨s, inj op, answer⟩]))
    {tr : Trace σ Op' Ans'} (htr : inv tr) {p : Program Op Ans ε α}
    (h : Fulfils serves ok post exc (part tr) p) :
    Fulfils serves' ok' (fun tr a => inv tr ∧ post (part tr) a)
      (fun tr e' => inv tr ∧ ∃ e, e' = up e ∧ exc (part tr) e) tr (p.lift inj down up) := by
  induction p generalizing tr with
  | done a => exact ⟨htr, h⟩
  | raise e => exact ⟨htr, e, rfl, h⟩
  | call op next ih =>
      refine ⟨hok tr op htr h.1, fun s answer ha => ih _ (hinv tr s op answer htr) ?_⟩
      rw [hpart]
      exact h.2 s _ (hserves s op answer ha)

end Lift

/-! ## Runs -/

/-- The program has made the calls of the trace; the rest of it is `q`. -/
inductive Runs (serves : σ → (op : Op) → Ans op → Prop) (p : Program Op Ans ε α) :
    Trace σ Op Ans → Program Op Ans ε α → Prop
  | start : Runs serves p [] p
  | call {tr : Trace σ Op Ans} {op : Op} {next : Ans op → Program Op Ans ε α} {s : σ}
      {answer : Ans op} (h : Runs serves p tr (.call op next)) (ha : serves s op answer) :
      Runs serves p (tr ++ [⟨s, op, answer⟩]) (next answer)

section Runs

variable {post : Trace σ Op Ans → α → Prop} {exc : Trace σ Op Ans → ε → Prop}
  {p q : Program Op Ans ε α}

theorem Runs.fulfils (h : Runs serves p tr q) (hp : Fulfils serves ok post exc [] p) :
    Fulfils serves ok post exc tr q := by
  induction h with
  | start => exact hp
  | call _ ha ih => exact ih.2 _ _ ha

theorem Runs.allowed (h : Runs serves p tr q) (hp : Fulfils serves ok post exc [] p) :
    ∀ before event after, tr = before ++ event :: after →
      ok before event.op ∧ serves event.before event.op event.answer := by
  induction h with
  | start =>
      intro before event after heq
      exact absurd heq.symm (List.append_ne_nil_of_right_ne_nil _ (List.cons_ne_nil _ _))
  | @call tr op next s answer h ha ih =>
      intro before event after heq
      rcases List.eq_nil_or_concat after with rfl | ⟨after', last, rfl⟩
      · obtain ⟨rfl, hlast⟩ := List.append_inj' heq rfl
        obtain rfl := List.cons.inj hlast |>.1
        exact ⟨(h.fulfils hp).1, ha⟩
      · rw [List.concat_eq_append, ← List.cons_append, ← List.append_assoc] at heq
        exact ih before event after' (List.append_inj' heq rfl).1

end Runs

/-! ## A service that is a function -/

section Service

/-- The trace of a program and what it comes to, where the trace so far decides on the answers. -/
def Program.run (service : Trace σ Op Ans → (op : Op) → σ × Ans op) :
    Trace σ Op Ans → Program Op Ans ε α → Trace σ Op Ans × Except ε α
  | tr, .done a => (tr, .ok a)
  | tr, .raise e => (tr, .error e)
  | tr, .call op next =>
      (next (service tr op).2).run service (tr ++ [⟨(service tr op).1, op, (service tr op).2⟩])

/-- A program that has ended. -/
def Program.ended : Except ε α → Program Op Ans ε α
  | .ok a => .done a
  | .error e => .raise e

variable {service : Trace σ Op Ans → (op : Op) → σ × Ans op} {p q : Program Op Ans ε α}

theorem Runs.run (hserves : ∀ tr op, serves (service tr op).1 op (service tr op).2)
    (h : Runs serves p tr q) :
    Runs serves p (q.run service tr).1 (.ended (q.run service tr).2) := by
  induction q generalizing tr with
  | done a => exact h
  | raise e => exact h
  | call op next ih => exact ih _ (.call h (hserves tr op))

theorem runs_run (hserves : ∀ tr op, serves (service tr op).1 op (service tr op).2)
    (p : Program Op Ans ε α) :
    Runs serves p (p.run service []).1 (.ended (p.run service []).2) :=
  Runs.start.run hserves

end Service

end Programs
