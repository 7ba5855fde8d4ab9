/-
  Greedy packing: items go one by one into the open bin, which is closed before an item that
  it has no room for. A bin has a seed besides its items, handed on by the bin closed before.

  * `Packed`: the bins hold the items in order, at least one each, and each seed is the one
    that the bin before hands on.
  * `packed_packFrom`: the greedy bins are such a packing.
  * `forall_packFrom_iff`: what holds of one item alone holds of all bins if and only if every
    item that finds room in the open bin keeps it.
  * `Packed.eq_of_map_eq`: bins that render alike are alike, when no bin renders like a longer
    one of its seed.
  * `finish_foldl`: a loop that simulates the placing of each item returns the greedy bins.
-/
import Mathlib.Data.List.Basic

namespace Packing

universe u v w x

/-- A bin: what it was opened with, and the items put in. -/
structure Bin (σ : Type u) (α : Type v) where
  seed : σ
  items : List α
  deriving DecidableEq

variable {σ : Type u} {α : Type v} {γ : Type w} {S : Type x}

def Bin.put (b : Bin σ α) (a : α) : Bin σ α := ⟨b.seed, b.items ++ [a]⟩

def Bin.map {τ : Type w} {β : Type x} (g : σ → τ) (f : α → β) (b : Bin σ α) : Bin τ β :=
  ⟨g b.seed, b.items.map f⟩

/-- The next bin, opened for an item. -/
def Bin.open (reseed : Bin σ α → σ) (b : Bin σ α) (a : α) : Bin σ α := ⟨reseed b, [a]⟩

section Greedy

variable (full : Bin σ α → α → Prop) [∀ b a, Decidable (full b a)] (reseed : Bin σ α → σ)

/-- The bin is closed before the item. -/
abbrev Closes (b : Bin σ α) (a : α) : Prop := b.items ≠ [] ∧ full b a

/-- The open bin after an item. -/
def place (b : Bin σ α) (a : α) : Bin σ α :=
  if Closes full b a then b.open reseed a else b.put a

/-- The bins that an item closes: the open one or none. -/
def closed (b : Bin σ α) (a : α) : List (Bin σ α) := if Closes full b a then [b] else []

/-- The bins from the open one on. -/
def packFrom : Bin σ α → List α → List (Bin σ α)
  | b, [] => if b.items ≠ [] then [b] else []
  | b, a :: as => closed full b a ++ packFrom (place full reseed b a) as

end Greedy

/-! ## Packings -/

/-- The bins hold the items in order, at least one each, each opened with what the bin before
    hands on. -/
inductive Packed (reseed : Bin σ α → σ) : σ → List α → List (Bin σ α) → Prop
  | nil (seed : σ) : Packed reseed seed [] []
  | cons {seed : σ} {items rest : List α} {b : Bin σ α} {bins : List (Bin σ α)}
      (hseed : b.seed = seed) (hne : b.items ≠ []) (hitems : items = b.items ++ rest)
      (h : Packed reseed (reseed b) rest bins) : Packed reseed seed items (b :: bins)

section Packed

variable {reseed : Bin σ α → σ} {seed : σ} {items : List α} {bins : List (Bin σ α)}

theorem Packed.flatten (h : Packed reseed seed items bins) :
    (bins.map Bin.items).flatten = items := by
  induction h with
  | nil => rfl
  | cons _ _ hitems _ ih => rw [List.map_cons, List.flatten_cons, ih, hitems]

theorem Packed.ne_nil (h : Packed reseed seed items bins) : ∀ b ∈ bins, b.items ≠ [] := by
  induction h with
  | nil => exact fun b hb => absurd hb List.not_mem_nil
  | cons _ hne _ _ ih => exact List.forall_mem_cons.mpr ⟨hne, ih⟩

theorem Packed.map {τ : Type w} {β : Type x} {reseed' : Bin τ β → τ} (g : σ → τ) (f : α → β)
    (hreseed : ∀ b, reseed' (b.map g f) = g (reseed b)) (h : Packed reseed seed items bins) :
    Packed reseed' (g seed) (items.map f) (bins.map (Bin.map g f)) := by
  induction h with
  | nil => exact .nil _
  | @cons seed items rest b bins hseed hne hitems _ ih =>
      refine .cons (congrArg g hseed) ?_ ?_ (hreseed b ▸ ih)
      · exact fun hnil => hne (List.map_eq_nil_iff.mp hnil)
      · rw [hitems, List.map_append]
        rfl

/-- Two packings that render alike are one, when no bin renders like a longer one. -/
theorem Packed.eq_of_map_eq {render : Bin σ α → γ}
    (hrender : ∀ b c : Bin σ α, b.seed = c.seed → b.items ≠ [] → b.items <+: c.items →
      render b = render c → b = c)
    {bins' : List (Bin σ α)} (h : Packed reseed seed items bins)
    (h' : Packed reseed seed items bins') (heq : bins.map render = bins'.map render) :
    bins = bins' := by
  induction h generalizing bins' with
  | nil => exact (List.map_eq_nil_iff.mp heq.symm).symm
  | @cons seed items rest b bins hseed hne hitems _ ih =>
      cases h' with
      | nil => exact absurd heq (by simp)
      | @cons _ _ rest' c bins' hseed' hne' hitems' h' =>
          obtain ⟨hbc, htail⟩ := List.cons.inj heq
          have hb : b.items <+: items := ⟨rest, hitems.symm⟩
          have hc : c.items <+: items := ⟨rest', hitems'.symm⟩
          have hone : b = c := by
            rcases List.prefix_or_prefix_of_prefix hb hc with hpre | hpre
            · exact hrender b c (hseed.trans hseed'.symm) hne hpre hbc
            · exact (hrender c b (hseed'.trans hseed.symm) hne' hpre hbc.symm).symm
          subst hone
          have hrest : rest' = rest := List.append_cancel_left (hitems'.symm.trans hitems)
          exact congrArg (b :: ·) (ih (hrest ▸ h') htail)

end Packed

/-! ## The greedy bins -/

section Greedy

variable {full : Bin σ α → α → Prop} [∀ b a, Decidable (full b a)] {reseed : Bin σ α → σ}

theorem place_of_closes {b : Bin σ α} {a : α} (h : Closes full b a) :
    place full reseed b a = b.open reseed a := if_pos h

theorem place_of_room {b : Bin σ α} {a : α} (h : ¬Closes full b a) :
    place full reseed b a = b.put a := if_neg h

theorem closed_of_closes {b : Bin σ α} {a : α} (h : Closes full b a) : closed full b a = [b] :=
  if_pos h

theorem closed_of_room {b : Bin σ α} {a : α} (h : ¬Closes full b a) : closed full b a = [] :=
  if_neg h

theorem packFrom_nil {b : Bin σ α} (h : b.items = []) : packFrom full reseed b [] = [] :=
  if_neg fun hne => hne h

theorem packFrom_open {b : Bin σ α} (h : b.items ≠ []) : packFrom full reseed b [] = [b] :=
  if_pos h

/-- What a loop returns that closes the open bin at the end, unless it is empty. -/
theorem append_packFrom_nil (done : List γ) (render : Bin σ α → γ) (b : Bin σ α) :
    done ++ (packFrom full reseed b []).map render =
      if b.items ≠ [] then done ++ [render b] else done := by
  by_cases h : b.items = []
  · rw [packFrom_nil h, if_neg (not_not.mpr h), List.map_nil, List.append_nil]
  · rw [packFrom_open h, if_pos h, List.map_singleton]

theorem place_ne_nil (b : Bin σ α) (a : α) : (place full reseed b a).items ≠ [] := by
  by_cases h : Closes full b a
  · simp [place_of_closes h, Bin.open]
  · simp [place_of_room h, Bin.put]

theorem foldl_place_ne_nil {b : Bin σ α} (h : b.items ≠ []) (as : List α) :
    (as.foldl (place full reseed) b).items ≠ [] := by
  induction as generalizing b with
  | nil => exact h
  | cons a as ih => exact ih (place_ne_nil b a)

theorem packed_packFrom (b : Bin σ α) (as : List α) :
    Packed reseed b.seed (b.items ++ as) (packFrom full reseed b as) := by
  induction as generalizing b with
  | nil =>
      by_cases h : b.items = []
      · rw [packFrom_nil h, h]
        exact .nil _
      · rw [packFrom_open h]
        exact .cons rfl h rfl (.nil _)
  | cons a as ih =>
      rw [packFrom]
      by_cases h : Closes full b a
      · rw [closed_of_closes h, place_of_closes h]
        exact .cons rfl h.1 rfl (ih (b.open reseed a))
      · rw [closed_of_room h, place_of_room h]
        have hput := ih (b.put a)
        rw [Bin.put, List.append_assoc] at hput
        exact hput

/-- Every bin has what one item alone has if and only if each item that joins the open bin
    keeps it. -/
theorem forall_packFrom_iff {P : Bin σ α → Prop} {keeps : Bin σ α → α → Prop}
    (single : ∀ (seed : σ) (a : α), P ⟨seed, [a]⟩)
    (join : ∀ (b : Bin σ α) (a : α), b.items ≠ [] → ¬full b a →
      (P (b.put a) ↔ P b ∧ keeps b a))
    {b : Bin σ α} (as : List α) :
    (∀ c ∈ packFrom full reseed b as, P c) ↔
      (b.items ≠ [] → P b) ∧
        ∀ pre a post, as = pre ++ a :: post →
          let o := pre.foldl (place full reseed) b
          o.items ≠ [] → ¬full o a → keeps o a := by
  induction as generalizing b with
  | nil =>
      by_cases h : b.items = []
      · simp [packFrom_nil h, h]
      · simp [packFrom_open h, h]
  | cons a as ih =>
      have hpres : (∀ pre a' post, a :: as = pre ++ a' :: post →
          let o := pre.foldl (place full reseed) b
          o.items ≠ [] → ¬full o a' → keeps o a') ↔
          (b.items ≠ [] → ¬full b a → keeps b a) ∧
          ∀ pre a' post, as = pre ++ a' :: post →
            let o := pre.foldl (place full reseed) (place full reseed b a)
            o.items ≠ [] → ¬full o a' → keeps o a' := by
        constructor
        · intro h
          exact ⟨h [] a as rfl, fun pre a' post has => h (a :: pre) a' post (by rw [has]; rfl)⟩
        · rintro ⟨hhead, htail⟩ pre a' post has
          cases pre with
          | nil =>
              obtain ⟨rfl, rfl⟩ := List.cons.inj has
              exact hhead
          | cons c pre =>
              obtain ⟨rfl, rfl⟩ := List.cons.inj has
              exact htail pre a' post rfl
      rw [packFrom, List.forall_mem_append, ih, hpres]
      by_cases hb : b.items = []
      · have hroom : ¬Closes full b a := fun h => h.1 hb
        have hput : P (b.put a) := by
          have hone : b.put a = ⟨b.seed, [a]⟩ := by rw [Bin.put, hb, List.nil_append]
          exact hone ▸ single b.seed a
        simp [closed_of_room hroom, place_of_room hroom, hb, hput]
      · by_cases hfull : full b a
        · have hc : Closes full b a := ⟨hb, hfull⟩
          simp [closed_of_closes hc, place_of_closes hc, Bin.open, hb, hfull, single]
        · have hroom : ¬Closes full b a := fun h => hfull h.2
          have hne : (b.put a).items ≠ [] := by simp [Bin.put]
          simp only [closed_of_room hroom, place_of_room hroom, join b a hb hfull, hne, hb, hfull,
            List.not_mem_nil, false_implies, implies_true, true_and, ne_eq, not_false_eq_true,
            true_implies, and_assoc]

/-- What one item alone has and every item that joins the open bin keeps, every bin has. -/
theorem forall_packFrom {P : Bin σ α → Prop} {b : Bin σ α} {as : List α}
    (hopen : b.items ≠ [] → P b) (single : ∀ (seed : σ), ∀ a ∈ as, P ⟨seed, [a]⟩)
    (join : ∀ b a, b.items ≠ [] → P b → ¬full b a → P (b.put a)) :
    ∀ c ∈ packFrom full reseed b as, P c := by
  induction as generalizing b with
  | nil =>
      by_cases h : b.items = []
      · simp [packFrom_nil h]
      · simpa [packFrom_open h] using hopen h
  | cons a as ih =>
      obtain ⟨hone, hrest⟩ := List.forall_mem_cons.mp fun a' ha' seed => single seed a' ha'
      rw [packFrom, List.forall_mem_append]
      by_cases h : Closes full b a
      · rw [closed_of_closes h, place_of_closes h]
        exact ⟨List.forall_mem_singleton.mpr (hopen h.1),
          ih (fun _ => hone _) fun seed a' ha' => hrest a' ha' seed⟩
      · rw [closed_of_room h, place_of_room h]
        refine ⟨fun c hc => absurd hc List.not_mem_nil,
          ih (fun _ => ?_) fun seed a' ha' => hrest a' ha' seed⟩
        by_cases hb : b.items = []
        · rw [Bin.put, hb]
          exact hone b.seed
        · exact join b a hb (hopen hb) fun hfull => h ⟨hb, hfull⟩

/-! ## Loops -/

/-- The state of a loop after some items: what it has closed, and its open bin. -/
theorem sim_foldl (next : S → α → S) (Sim : S → List γ → Bin σ α → Prop) {render : Bin σ α → γ}
    (hnext : ∀ s done b a, Sim s done b →
      Sim (next s a) (done ++ (closed full b a).map render) (place full reseed b a))
    {s : S} {done : List γ} {b : Bin σ α} (h : Sim s done b) (as : List α) :
    ∃ done', Sim (as.foldl next s) done' (as.foldl (place full reseed) b) ∧
      ∀ as', done' ++ (packFrom full reseed (as.foldl (place full reseed) b) as').map render =
        done ++ (packFrom full reseed b (as ++ as')).map render := by
  induction as generalizing s done b with
  | nil => exact ⟨done, h, fun _ => rfl⟩
  | cons a as ih =>
      obtain ⟨done', hsim, heq⟩ := ih (hnext s done b a h)
      refine ⟨done', hsim, fun as' => (heq as').trans ?_⟩
      rw [List.cons_append, packFrom, List.map_append, List.append_assoc]

/-- A loop that simulates the placing of each item returns the greedy bins. -/
theorem finish_foldl (next : S → α → S) (finish : S → List γ)
    (Sim : S → List γ → Bin σ α → Prop) {render : Bin σ α → γ}
    (hnext : ∀ s done b a, Sim s done b →
      Sim (next s a) (done ++ (closed full b a).map render) (place full reseed b a))
    (hfinish : ∀ s done b, Sim s done b →
      finish s = done ++ (packFrom full reseed b []).map render)
    {s : S} {done : List γ} {b : Bin σ α} (h : Sim s done b) (as : List α) :
    finish (as.foldl next s) = done ++ (packFrom full reseed b as).map render := by
  obtain ⟨done', hsim, heq⟩ := sim_foldl next Sim hnext h as
  have hend := heq []
  rw [List.append_nil] at hend
  rw [hfinish _ _ _ hsim, hend]

end Greedy

end Packing
