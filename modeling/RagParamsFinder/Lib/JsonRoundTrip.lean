/-
  What `render` writes, `loads` reads back.

  * `loads_render`: a written value is read back, escaped or not, spaced or not.
  * `allPrinted_render`: a text has no control characters, so it fills one line; escaped, it is
    printable ASCII.
-/
import Mathlib.Data.List.TakeWhile
import RagParamsFinder.Lib.Json

namespace Json

/-! ## Characters -/

theorem hexVal_digitChar : ∀ d < 16, hexVal (Nat.digitChar d) = some d := by decide

theorem readHex4_hex4 {n : Nat} (h : n < 65536) (rest : List Char) :
    readHex4 (hex4 n ++ rest) = some (n, rest) := by
  have hd : ∀ k, hexVal (Nat.digitChar (k % 16)) = some (k % 16) := fun k =>
    hexVal_digitChar _ (Nat.mod_lt _ (by decide))
  have hsum : 4096 * (n / 4096 % 16) + 256 * (n / 256 % 16) + 16 * (n / 16 % 16) + n % 16 = n := by
    omega
  show readHex4 (_ :: _ :: _ :: _ :: rest) = _
  simp only [readHex4, hd, Option.bind_eq_bind, Option.bind_some, hsum, Option.pure_def]

theorem readUnicode_unit {c : Char} (h : c.toNat < 0x10000) (rest : List Char) :
    readUnicode (hex4 c.toNat ++ rest) = some (c, rest) := by
  have hvalid : c.toNat < 0xD800 ∨ 0xDFFF < c.toNat ∧ c.toNat < 0x110000 := c.valid
  simp only [readUnicode, readHex4_hex4 h, Option.bind_eq_bind, Option.bind_some]
  rw [if_neg (by omega), if_neg (by omega), Char.ofNat_toNat]
  rfl

theorem readUnicode_pair {c : Char} {high low : Nat} (hhigh : 0xD800 ≤ high ∧ high ≤ 0xDBFF)
    (hlow : 0xDC00 ≤ low ∧ low ≤ 0xDFFF)
    (hc : 0x10000 + (high - 0xD800) * 0x400 + (low - 0xDC00) = c.toNat) (rest : List Char) :
    readUnicode (hex4 high ++ '\\' :: 'u' :: (hex4 low ++ rest)) = some (c, rest) := by
  simp only [readUnicode, readHex4_hex4 (show high < 65536 by omega), Option.bind_eq_bind,
    Option.bind_some]
  rw [if_pos hhigh]
  simp only [readLow, readHex4_hex4 (show low < 65536 by omega), Option.bind_eq_bind,
    Option.bind_some]
  rw [if_pos hlow, hc, Char.ofNat_toNat]
  rfl

theorem short_read {c e : Char} (h : shortEscapes.lookup c = some e) :
    e ≠ 'u' ∧ readEscapes.lookup e = some c := by
  have hall : ∀ p ∈ shortEscapes, p.2 ≠ 'u' ∧ readEscapes.lookup p.2 = some p.1 := by decide
  obtain ⟨before, after, hlist, -⟩ := List.lookup_eq_some_iff.mp h
  exact hall (c, e) (hlist ▸ List.mem_append_right before (List.mem_cons_self ..))

/-- An escaped character is read back. -/
theorem readChar_escapeChar (ascii : Bool) (c : Char) (rest : List Char) :
    readChar (escapeChar ascii c ++ rest) = some (c, rest) := by
  unfold escapeChar
  split
  · rename_i e he
    obtain ⟨hu, hread⟩ := short_read he
    show readChar ('\\' :: e :: rest) = _
    rw [readChar, if_pos rfl, if_neg hu, hread]
    rfl
  · rename_i hnone
    split
    · unfold unicodeEscape
      split
      · rename_i hsmall
        show readChar ('\\' :: 'u' :: (hex4 c.toNat ++ rest)) = _
        rw [readChar, if_pos rfl, if_pos rfl, readUnicode_unit hsmall]
      · rename_i hlarge
        rw [List.cons_append, List.cons_append, List.append_assoc, List.cons_append,
          List.cons_append, readChar, if_pos rfl, if_pos rfl]
        have hvalid : c.toNat < 0xD800 ∨ 0xDFFF < c.toNat ∧ c.toNat < 0x110000 := c.valid
        exact readUnicode_pair (by omega) (by omega) (by omega) rest
    · rename_i hplain
      have hbackslash : c ≠ '\\' := by
        rintro rfl
        exact absurd hnone (by decide)
      have hcontrol : ¬c.toNat < 0x20 := fun h => hplain (Or.inl h)
      cases rest with
      | nil => exact if_neg (not_or.mpr ⟨hbackslash, hcontrol⟩)
      | cons d rest =>
          show readChar (c :: d :: rest) = _
          rw [readChar, if_neg hbackslash, if_neg hcontrol]

/-! ## Strings -/

theorem escapeChar_head (ascii : Bool) (c : Char) :
    ∃ d ds, escapeChar ascii c = d :: ds ∧ d ≠ '"' := by
  unfold escapeChar
  split
  · exact ⟨_, _, rfl, by decide⟩
  · rename_i hnone
    split
    · unfold unicodeEscape
      split <;> exact ⟨_, _, rfl, by decide⟩
    · refine ⟨c, [], rfl, ?_⟩
      rintro rfl
      exact absurd hnone (by decide)

/-- A quoted string is read back. -/
theorem readString_quoted (ascii : Bool) (s rest : List Char) {steps : Nat}
    (hsteps : s.length < steps) :
    readString steps (s.flatMap (escapeChar ascii) ++ '"' :: rest) = some (s, rest) := by
  induction s generalizing steps with
  | nil =>
      obtain ⟨steps, rfl⟩ := Nat.exists_eq_add_of_lt hsteps
      rfl
  | cons c s ih =>
      cases steps with
      | zero => exact absurd hsteps (Nat.not_lt_zero _)
      | succ steps =>
          obtain ⟨d, ds, hhead, hquote⟩ := escapeChar_head ascii c
          have hread := readChar_escapeChar ascii c (s.flatMap (escapeChar ascii) ++ '"' :: rest)
          rw [List.flatMap_cons, List.append_assoc]
          rw [hhead, List.cons_append] at hread ⊢
          rw [readString, if_neg hquote, hread]
          simp only [Option.bind_eq_bind, Option.bind_some, ih (Nat.lt_of_succ_lt_succ hsteps)]
          rfl

theorem length_le_escaped (ascii : Bool) (s : List Char) :
    s.length ≤ (s.flatMap (escapeChar ascii)).length := by
  induction s with
  | nil => exact Nat.le_refl _
  | cons c s ih =>
      obtain ⟨d, ds, hhead, -⟩ := escapeChar_head ascii c
      rw [List.flatMap_cons, List.length_append, hhead, List.length_cons, List.length_cons]
      omega

/-- What comes after the opening quote is read with the steps that the text allows. -/
theorem readString_of_quote (ascii : Bool) (s rest : List Char) :
    readString ((s.flatMap (escapeChar ascii) ++ '"' :: rest).length + 1)
      (s.flatMap (escapeChar ascii) ++ '"' :: rest) = some (s, rest) := by
  refine readString_quoted ascii s rest ?_
  have hle := length_le_escaped ascii s
  rw [List.length_append]
  omega

theorem quote_append (ascii : Bool) (s rest : List Char) :
    quote ascii s ++ rest = '"' :: (s.flatMap (escapeChar ascii) ++ '"' :: rest) := by
  rw [quote, List.cons_append, List.append_assoc, List.singleton_append]

/-! ## Numbers -/

/-- What follows a number does not go on with it. -/
def NumberEnds (rest : List Char) : Prop :=
  ∀ c ∈ rest.head?, c.isDigit = false ∧ c ≠ '.' ∧ c ≠ 'e' ∧ c ≠ 'E'

theorem takeWhile_digits {ds rest : List Char} (hds : ∀ c ∈ ds, c.isDigit = true)
    (hrest : NumberEnds rest) :
    (ds ++ rest).takeWhile Char.isDigit = ds ∧ (ds ++ rest).dropWhile Char.isDigit = rest := by
  rw [List.takeWhile_append_of_pos hds, List.dropWhile_append_of_pos hds]
  cases rest with
  | nil => exact ⟨List.append_nil ds, rfl⟩
  | cons c rest =>
      obtain ⟨hc, -⟩ := hrest c rfl
      rw [List.takeWhile_cons_of_neg (by rw [hc]; decide),
        List.dropWhile_cons_of_neg (by rw [hc]; decide)]
      exact ⟨List.append_nil ds, rfl⟩

theorem readTail_of_ends (negative : Bool) (whole : List Char) {rest : List Char}
    (hrest : NumberEnds rest) : readTail negative whole rest =
      (.int (if negative then -(Nat.ofDigitChars 10 whole 0 : Int)
        else (Nat.ofDigitChars 10 whole 0 : Int)), rest) := by
  have hfraction : readFraction rest = ([], rest) := by
    unfold readFraction
    split
    · exact absurd rfl (hrest '.' rfl).2.1
    · rfl
  have hexponent : readExponent rest = ([], rest) := by
    unfold readExponent
    split
    · rename_i e ds
      obtain ⟨-, -, he, hE⟩ := hrest e rfl
      exact if_neg fun h => h.1.elim he hE
    · rfl
  rw [readTail, hfraction]
  dsimp only
  rw [hexponent]
  exact if_pos ⟨rfl, rfl⟩

/-- No number but zero starts with the digit zero. -/
theorem head?_toDigits_ne_zero {n : Nat} (hn : 0 < n) : (Nat.toDigits 10 n).head? ≠ some '0' := by
  induction n using Nat.strongRecOn with
  | ind n ih =>
      rw [Nat.toDigits_eq_if (by decide)]
      split
      · intro h
        have hzero := Nat.digitChar_eq_zero.mp (Option.some.inj h)
        omega
      · intro h
        rw [List.head?_append_of_ne_nil _ Nat.toDigits_ne_nil] at h
        exact ih (n / 10) (by omega) (by omega) h

/-- The digits of a number, read without a sign. -/
theorem readUnsigned_toDigits (negative : Bool) (n : Nat) {rest : List Char}
    (hrest : NumberEnds rest) : readUnsigned negative (Nat.toDigits 10 n ++ rest) =
      some (.int (if negative then -(n : Int) else n), rest) := by
  have hback : Nat.ofDigitChars 10 (Nat.toDigits 10 n) 0 = n := Nat.ofDigitChars_ten_toDigits
  rcases Nat.eq_zero_or_pos n with rfl | hn
  · rw [Nat.toDigits_zero, List.singleton_append, readUnsigned, if_pos rfl,
      readTail_of_ends negative ['0'] hrest]
    rfl
  · have hdigits : ∀ c ∈ Nat.toDigits 10 n, c.isDigit = true := fun c hc =>
      Nat.isDigit_of_mem_toDigits (by decide) (by decide) hc
    have hhead := head?_toDigits_ne_zero hn
    cases hds : Nat.toDigits 10 n with
    | nil => exact absurd hds Nat.toDigits_ne_nil
    | cons d ds =>
        rw [hds] at hdigits hhead hback
        obtain ⟨hd, htail⟩ := List.forall_mem_cons.mp hdigits
        have hzero : d ≠ '0' := fun h => hhead (congrArg some h)
        obtain ⟨htake, hdrop⟩ := takeWhile_digits htail hrest
        rw [List.cons_append, readUnsigned, if_neg hzero, if_pos hd, htake, hdrop,
          readTail_of_ends negative (d :: ds) hrest, hback]

/-- How the text of an integer starts. -/
theorem intText_head (n : Int) : ∃ c cs, intText n = c :: cs ∧
    (c.isDigit = true ∨ c = '-' ∧ ∃ d ds, cs = d :: ds ∧ d.isDigit = true) := by
  have hdigits : ∃ d ds, Nat.toDigits 10 n.natAbs = d :: ds ∧ d.isDigit = true := by
    cases hds : Nat.toDigits 10 n.natAbs with
    | nil => exact absurd hds Nat.toDigits_ne_nil
    | cons d ds =>
        refine ⟨d, ds, rfl, ?_⟩
        exact Nat.isDigit_of_mem_toDigits (by decide) (by decide) (hds ▸ List.mem_cons_self ..)
  obtain ⟨d, ds, hds, hd⟩ := hdigits
  unfold intText
  split
  · exact ⟨'-', _, rfl, Or.inr ⟨rfl, d, ds, hds, hd⟩⟩
  · exact ⟨d, ds, hds, Or.inl hd⟩

theorem readNumber_intText (n : Int) {rest : List Char} (hrest : NumberEnds rest) :
    readNumber (intText n ++ rest) = some (.int n, rest) := by
  unfold intText
  split
  · rename_i hneg
    have habs : -(n.natAbs : Int) = n := by omega
    rw [List.cons_append, readNumber, if_pos rfl, readUnsigned_toDigits true _ hrest, if_pos rfl,
      habs]
  · rename_i hpos
    have habs : (n.natAbs : Int) = n := by omega
    have hread := readUnsigned_toDigits false n.natAbs hrest
    cases hds : Nat.toDigits 10 n.natAbs with
    | nil => exact absurd hds Nat.toDigits_ne_nil
    | cons d ds =>
        have hd : d.isDigit = true := Nat.isDigit_of_mem_toDigits (by decide) (by decide)
          (hds ▸ List.mem_cons_self ..)
        have hminus : d ≠ '-' := by
          rintro rfl
          exact absurd hd (by decide)
        rw [hds, List.cons_append] at hread
        rw [List.cons_append, readNumber, if_neg hminus, hread, if_neg Bool.false_ne_true, habs]

/-- No word starts like an integer. -/
theorem readWord_intText (n : Int) (rest : List Char) : readWord (intText n ++ rest) = none := by
  obtain ⟨c, cs, htext, hstart⟩ := intText_head n
  rw [htext, readWord, List.findSome?_eq_none_iff]
  intro w hw
  refine if_neg ?_
  rintro ⟨tail, htail⟩
  simp only [words, List.mem_cons, List.not_mem_nil, or_false] at hw
  rcases hstart with hc | ⟨rfl, d, ds, rfl, hd⟩
  · rcases hw with rfl | rfl | rfl | rfl | rfl | rfl
    all_goals
      obtain ⟨rfl, -⟩ := List.cons.inj htail
      exact absurd hc (by decide)
  · rcases hw with rfl | rfl | rfl | rfl | rfl | rfl
    all_goals
      obtain ⟨hc, htail⟩ := List.cons.inj htail
      first
      | exact absurd hc (by decide)
      | obtain ⟨rfl, -⟩ := List.cons.inj htail
        exact absurd hd (by decide)

/-! ## Values -/

/-- The literals of a value are read as they are, wherever a number may end. -/
inductive Writable : Json → Prop
  | null : Writable .null
  | bool (b : Bool) : Writable (.bool b)
  | int (n : Int) : Writable (.int n)
  | real {literal : List Char} (h : ∀ steps rest, NumberEnds rest →
      readValue (steps + 1) (literal ++ rest) = some (.real literal, rest)) :
      Writable (.real literal)
  | str (s : List Char) : Writable (.str s)
  | arr {items : List Json} (h : ∀ x ∈ items, Writable x) : Writable (.arr items)
  | obj {entries : List (List Char × Json)} (h : ∀ e ∈ entries, Writable e.2) :
      Writable (.obj entries)

mutual

/-- No number with a fraction or an exponent. -/
def plain : Json → Bool
  | .null => true
  | .bool _ => true
  | .int _ => true
  | .real _ => false
  | .str _ => true
  | .arr items => plainItems items
  | .obj entries => plainEntries entries

def plainItems : List Json → Bool
  | [] => true
  | x :: xs => plain x && plainItems xs

def plainEntries : List (List Char × Json) → Bool
  | [] => true
  | (_, x) :: es => plain x && plainEntries es

end

mutual

theorem writable_of_plain : ∀ v, plain v = true → Writable v
  | .null, _ => .null
  | .bool b, _ => .bool b
  | .int n, _ => .int n
  | .real _, h => absurd h Bool.false_ne_true
  | .str s, _ => .str s
  | .arr items, h => .arr (writable_of_plainItems items h)
  | .obj entries, h => .obj (writable_of_plainEntries entries h)

theorem writable_of_plainItems : ∀ xs, plainItems xs = true → ∀ x ∈ xs, Writable x
  | [], _ => nofun
  | x :: xs, h => List.forall_mem_cons.mpr
      ⟨writable_of_plain x (Bool.and_eq_true_iff.mp h).1,
        writable_of_plainItems xs (Bool.and_eq_true_iff.mp h).2⟩

theorem writable_of_plainEntries : ∀ es, plainEntries es = true → ∀ e ∈ es, Writable e.2
  | [], _ => nofun
  | (_, x) :: es, h => List.forall_mem_cons.mpr
      ⟨writable_of_plain x (Bool.and_eq_true_iff.mp h).1,
        writable_of_plainEntries es (Bool.and_eq_true_iff.mp h).2⟩

end

theorem numberEnds_nil : NumberEnds [] := nofun

/-- What may stand behind a value inside another one. -/
def isCloser (c : Char) : Prop := c = ',' ∨ c = ']' ∨ c = '}'

theorem numberEnds_of_closer {c : Char} (h : isCloser c) (rest : List Char) :
    NumberEnds (c :: rest) := by
  intro d hd
  obtain rfl := Option.some.inj hd
  rcases h with rfl | rfl | rfl <;> decide

theorem skip_of_closer {c : Char} (h : isCloser c) (rest : List Char) :
    skip (c :: rest) = c :: rest := by
  refine List.dropWhile_cons_of_neg ?_
  rcases h with rfl | rfl | rfl <;> decide

/-- Nothing is read from a space or a bracket that closes. -/
theorem readValue_eq_none {c : Char} (h : isSpace c = true ∨ c = ']') (steps : Nat)
    (cs : List Char) : readValue (steps + 1) (c :: cs) = none := by
  have hc : c = ' ' ∨ c = '\t' ∨ c = '\n' ∨ c = '\r' ∨ c = ']' := by
    simpa only [isSpace, Bool.or_eq_true, decide_eq_true_eq, or_assoc] using h
  rcases hc with rfl | rfl | rfl | rfl | rfl <;> rfl

theorem render_head (f : Format) {v : Json} (hv : Writable v) :
    ∃ c cs, render f v = c :: cs ∧ isSpace c = false ∧ c ≠ ']' := by
  cases hv with
  | null => exact ⟨_, _, rfl, by decide, by decide⟩
  | bool b => cases b <;> exact ⟨_, _, rfl, by decide, by decide⟩
  | int n =>
      obtain ⟨c, cs, htext, hstart⟩ := intText_head n
      refine ⟨c, cs, htext, ?_⟩
      have hdigit : ∀ d : Char, d.isDigit = true → isSpace d = false ∧ d ≠ ']' := by
        intro d hd
        constructor
        · rw [Bool.eq_false_iff]
          intro hspace
          simp only [isSpace, Bool.or_eq_true, decide_eq_true_eq] at hspace
          rcases hspace with ((rfl | rfl) | rfl) | rfl <;> exact absurd hd (by decide)
        · rintro rfl
          exact absurd hd (by decide)
      rcases hstart with hc | ⟨rfl, -⟩
      · exact hdigit c hc
      · decide
  | @real literal h =>
      have hread := h 0 [] numberEnds_nil
      rw [List.append_nil] at hread
      cases literal with
      | nil => cases hread
      | cons c cs =>
          refine ⟨c, cs, rfl, ?_⟩
          by_contra hc
          rw [not_and_or, Bool.not_eq_false, not_not] at hc
          rw [readValue_eq_none hc] at hread
          cases hread
  | str s => exact ⟨_, _, rfl, by decide, by decide⟩
  | @arr items h => cases items <;> exact ⟨_, _, rfl, by decide, by decide⟩
  | @obj entries h =>
      cases entries with
      | nil => exact ⟨_, _, rfl, by decide, by decide⟩
      | cons e es => exact ⟨_, _, rfl, by decide, by decide⟩

theorem skip_render (f : Format) {v : Json} (hv : Writable v) (rest : List Char) :
    skip (render f v ++ rest) = render f v ++ rest := by
  obtain ⟨c, cs, htext, hspace, -⟩ := render_head f hv
  rw [htext, List.cons_append]
  exact List.dropWhile_cons_of_neg (by rw [hspace]; decide)

theorem comma_append (f : Format) (cs : List Char) :
    ∃ space, f.comma ++ cs = ',' :: (space ++ cs) ∧ ∀ ds, skip (space ++ ds) = skip ds := by
  rw [Format.comma]
  split
  · exact ⟨[' '], rfl, fun _ => rfl⟩
  · exact ⟨[], rfl, fun _ => rfl⟩

theorem colon_append (f : Format) (cs : List Char) :
    ∃ space, f.colon ++ cs = ':' :: (space ++ cs) ∧ ∀ ds, skip (space ++ ds) = skip ds := by
  rw [Format.colon]
  split
  · exact ⟨[' '], rfl, fun _ => rfl⟩
  · exact ⟨[], rfl, fun _ => rfl⟩

/-- The value is read with a step for each of its characters, whatever may end it. -/
def ReadsBack (f : Format) (v : Json) : Prop :=
  ∀ steps rest, (render f v).length ≤ steps → NumberEnds rest →
    readValue steps (render f v ++ rest) = some (v, rest)

theorem length_render_pos (f : Format) {v : Json} (hv : Writable v) :
    0 < (render f v).length := by
  obtain ⟨c, cs, htext, -⟩ := render_head f hv
  rw [htext]
  exact Nat.succ_pos _

/-! ### One round of the loops -/

section Rounds

variable {steps : Nat} {cs cs' cs'' rest rest' k : List Char} {x : Json}

theorem readItems_last (hx : readValue steps cs = some (x, rest))
    (hrest : skip rest = ']' :: rest') :
    readItems (steps + 1) cs = some ([x], rest') := by
  simp only [readItems, hx, hrest, Option.bind_eq_bind, Option.bind_some, Option.pure_def]

theorem readItems_more (hx : readValue steps cs = some (x, rest)) (hrest : skip rest = ',' :: rest')
    {xs : List Json} (hxs : readItems steps (skip rest') = some (xs, cs')) :
    readItems (steps + 1) cs = some (x :: xs, cs') := by
  simp only [readItems, hx, hrest, hxs, Option.bind_eq_bind, Option.bind_some, Option.pure_def]

theorem readEntries_last (hk : readKey cs = some (k, cs'))
    (hx : readValue steps cs' = some (x, rest))
    (hrest : skip rest = '}' :: rest') :
    readEntries (steps + 1) cs = some ([(k, x)], rest') := by
  simp only [readEntries, hk, hx, hrest, Option.bind_eq_bind, Option.bind_some, Option.pure_def]

theorem readEntries_more (hk : readKey cs = some (k, cs'))
    (hx : readValue steps cs' = some (x, rest))
    (hrest : skip rest = ',' :: rest') {es : List (List Char × Json)}
    (hes : readEntries steps (skip rest') = some (es, cs'')) :
    readEntries (steps + 1) cs = some ((k, x) :: es, cs'') := by
  simp only [readEntries, hk, hx, hrest, hes, Option.bind_eq_bind, Option.bind_some,
    Option.pure_def]

end Rounds

/-- A key is read up to its value. -/
theorem readKey_render (f : Format) (k : List Char) {v : Json} (hv : Writable v)
    (rest : List Char) :
    readKey (quote f.ascii k ++ (f.colon ++ (render f v ++ rest))) =
      some (k, render f v ++ rest) := by
  obtain ⟨space, hcolon, hskip⟩ := colon_append f (render f v ++ rest)
  have hstop : skip (':' :: (space ++ (render f v ++ rest))) =
      ':' :: (space ++ (render f v ++ rest)) := rfl
  rw [quote_append, hcolon, readKey, if_pos rfl]
  simp only [readString_of_quote, Option.bind_eq_bind, Option.bind_some, hstop, Option.pure_def]
  rw [hskip, skip_render f hv]

/-- Items are read back. -/
theorem readItems_render (f : Format) {x : Json} {xs : List Json}
    (hall : ∀ y ∈ x :: xs, Writable y ∧ ReadsBack f y) {steps : Nat} (rest : List Char)
    (hsteps : (render f x).length + (renderItems f xs).length ≤ steps) :
    readItems steps (render f x ++ (renderItems f xs ++ rest)) = some (x :: xs, rest) := by
  induction xs generalizing x steps with
  | nil =>
      obtain ⟨hx, hread⟩ := hall x (List.mem_cons_self ..)
      have hpos := length_render_pos f hx
      rw [renderItems, List.length_singleton] at hsteps
      cases steps with
      | zero => omega
      | succ steps =>
          have hcloser : isCloser ']' := Or.inr (Or.inl rfl)
          exact readItems_last (hread steps _ (by omega) (numberEnds_of_closer hcloser rest))
            (skip_of_closer hcloser rest)
  | cons y ys ih =>
      obtain ⟨hx, hread⟩ := hall x (List.mem_cons_self ..)
      obtain ⟨hy, -⟩ := hall y (List.mem_cons_of_mem _ (List.mem_cons_self ..))
      obtain ⟨space, hcomma, hskip⟩ := comma_append f (render f y ++ (renderItems f ys ++ rest))
      have htext : renderItems f (y :: ys) ++ rest =
          ',' :: (space ++ (render f y ++ (renderItems f ys ++ rest))) := by
        rw [renderItems, List.append_assoc, List.append_assoc, hcomma]
      have hlength : (renderItems f (y :: ys)).length =
          f.comma.length + ((render f y).length + (renderItems f ys).length) := by
        rw [renderItems, List.length_append, List.length_append]
      have hpos := length_render_pos f hx
      have hcommaPos : 0 < f.comma.length := by
        rw [Format.comma]
        split <;> decide
      cases steps with
      | zero => omega
      | succ steps =>
          have hcloser : isCloser ',' := Or.inl rfl
          rw [htext]
          refine readItems_more (hread steps _ (by omega) (numberEnds_of_closer hcloser _))
            (skip_of_closer hcloser _) ?_
          rw [hskip, skip_render f hy]
          exact ih (fun z hz => hall z (List.mem_cons_of_mem _ hz)) (by omega)

/-- Entries are read back. -/
theorem readEntries_render (f : Format) {e : List Char × Json} {es : List (List Char × Json)}
    (hall : ∀ e' ∈ e :: es, Writable e'.2 ∧ ReadsBack f e'.2) {steps : Nat} (rest : List Char)
    (hsteps : (quote f.ascii e.1).length + (render f e.2).length + (renderEntries f es).length ≤
      steps) :
    readEntries steps (quote f.ascii e.1 ++
      (f.colon ++ (render f e.2 ++ (renderEntries f es ++ rest)))) = some (e :: es, rest) := by
  induction es generalizing e steps with
  | nil =>
      obtain ⟨hx, hread⟩ := hall e (List.mem_cons_self ..)
      have hpos := length_render_pos f hx
      rw [renderEntries, List.length_singleton] at hsteps
      cases steps with
      | zero => omega
      | succ steps =>
          have hcloser : isCloser '}' := Or.inr (Or.inr rfl)
          exact readEntries_last (readKey_render f e.1 hx _)
            (hread steps _ (by omega) (numberEnds_of_closer hcloser rest))
            (skip_of_closer hcloser rest)
  | cons e' es ih =>
      obtain ⟨hx, hread⟩ := hall e (List.mem_cons_self ..)
      obtain ⟨space, hcomma, hskip⟩ := comma_append f (quote f.ascii e'.1 ++
        (f.colon ++ (render f e'.2 ++ (renderEntries f es ++ rest))))
      have htext : renderEntries f (e' :: es) ++ rest = ',' :: (space ++ (quote f.ascii e'.1 ++
          (f.colon ++ (render f e'.2 ++ (renderEntries f es ++ rest))))) := by
        rw [renderEntries, List.append_assoc, List.append_assoc, List.append_assoc,
          List.append_assoc, hcomma]
      have hlength : (renderEntries f (e' :: es)).length = f.comma.length +
          ((quote f.ascii e'.1).length + (f.colon.length +
            ((render f e'.2).length + (renderEntries f es).length))) := by
        rw [renderEntries, List.length_append, List.length_append, List.length_append,
          List.length_append]
      have hpos := length_render_pos f hx
      have hcommaPos : 0 < f.comma.length := by
        rw [Format.comma]
        split <;> decide
      cases steps with
      | zero => omega
      | succ steps =>
          have hcloser : isCloser ',' := Or.inl rfl
          rw [htext]
          refine readEntries_more (readKey_render f e.1 hx _)
            (hread steps _ (by omega) (numberEnds_of_closer hcloser _))
            (skip_of_closer hcloser _) ?_
          rw [hskip]
          exact ih (fun z hz => hall z (List.mem_cons_of_mem _ hz)) (by omega)

theorem readValue_intText (n : Int) (steps : Nat) {rest : List Char} (hrest : NumberEnds rest) :
    readValue (steps + 1) (intText n ++ rest) = some (.int n, rest) := by
  have hword := readWord_intText n rest
  have hnumber := readNumber_intText n hrest
  obtain ⟨c, cs, htext, hstart⟩ := intText_head n
  rw [htext, List.cons_append] at hword hnumber ⊢
  have hc : c ≠ '"' ∧ c ≠ '[' ∧ c ≠ '{' := by
    rcases hstart with hc | ⟨rfl, -⟩
    · refine ⟨?_, ?_, ?_⟩
      all_goals
        rintro rfl
        exact absurd hc (by decide)
    · decide
  rw [readValue, if_neg hc.1, if_neg hc.2.1, if_neg hc.2.2, hword, hnumber]
  rfl

/-- What was written is read back. -/
theorem readsBack (f : Format) {v : Json} (hv : Writable v) : ReadsBack f v := by
  induction hv with
  | null =>
      intro steps rest hsteps hrest
      cases steps with
      | zero => cases hsteps
      | succ steps => rfl
  | bool b =>
      intro steps rest hsteps hrest
      cases steps with
      | zero => cases b <;> cases hsteps
      | succ steps => cases b <;> rfl
  | int n =>
      intro steps rest hsteps hrest
      have hpos := length_render_pos f (.int n)
      cases steps with
      | zero => omega
      | succ steps => exact readValue_intText n steps hrest
  | real h =>
      intro steps rest hsteps hrest
      have hpos := length_render_pos f (.real h)
      cases steps with
      | zero => omega
      | succ steps => exact h steps rest hrest
  | str s =>
      intro steps rest hsteps hrest
      cases steps with
      | zero => cases hsteps
      | succ steps =>
          rw [render, quote_append, readValue, if_pos rfl, readString_of_quote]
          rfl
  | @arr items h ih =>
      intro steps rest hsteps hrest
      cases items with
      | nil =>
          cases steps with
          | zero => cases hsteps
          | succ steps => rfl
      | cons x xs =>
          obtain ⟨c, cs, htext, -, hclose⟩ := render_head f (h x (List.mem_cons_self ..))
          have hlength : (render f (.arr (x :: xs))).length =
              (render f x).length + (renderItems f xs).length + 1 := by
            rw [render, List.length_cons, List.length_append]
          cases steps with
          | zero => omega
          | succ steps =>
              have hitems : readItems steps (render f x ++ (renderItems f xs ++ rest)) =
                  some (x :: xs, rest) :=
                readItems_render f (fun y hy => ⟨h y hy, ih y hy⟩) rest (by omega)
              have hskip := skip_render f (h x (List.mem_cons_self ..)) (renderItems f xs ++ rest)
              have hopen : (render f x ++ (renderItems f xs ++ rest)).head? ≠ some ']' := by
                rw [htext]
                exact fun heq => hclose (Option.some.inj heq)
              rw [render, List.cons_append, List.append_assoc, readValue, if_neg (by decide),
                if_pos rfl, hskip, if_neg hopen, hitems]
              rfl
  | @obj entries h ih =>
      intro steps rest hsteps hrest
      cases entries with
      | nil =>
          cases steps with
          | zero => cases hsteps
          | succ steps => rfl
      | cons e es =>
          have hlength : (render f (.obj (e :: es))).length = (quote f.ascii e.1).length +
              (f.colon.length + ((render f e.2).length + (renderEntries f es).length)) + 1 := by
            rw [render, List.length_cons, List.length_append, List.length_append,
              List.length_append]
          cases steps with
          | zero => omega
          | succ steps =>
              have hentries : readEntries steps (quote f.ascii e.1 ++
                  (f.colon ++ (render f e.2 ++ (renderEntries f es ++ rest)))) =
                    some (e :: es, rest) :=
                readEntries_render f (fun e' he' => ⟨h e' he', ih e' he'⟩) rest (by omega)
              rw [render, List.cons_append, List.append_assoc, List.append_assoc,
                List.append_assoc, readValue, if_neg (by decide), if_neg (by decide), if_pos rfl]
              rw [quote_append] at hentries ⊢
              have hskip : ∀ cs, skip ('"' :: cs) = '"' :: cs := fun _ => rfl
              have hopen : ∀ cs, ('"' :: cs).head? ≠ some '}' := fun _ heq =>
                absurd (Option.some.inj heq) (by decide)
              rw [hskip, if_neg (hopen _), hentries]
              rfl

/-- **Round trip.** -/
theorem loads_render (f : Format) {v : Json} (hv : Writable v) : loads (render f v) = some v := by
  have hskip := skip_render f hv []
  have hread := readsBack f hv ((render f v).length + 1) [] (Nat.le_succ _) numberEnds_nil
  rw [List.append_nil] at hskip hread
  simp only [loads, hskip, hread, Option.bind_eq_bind, Option.bind_some]
  rfl

/-! ## One line -/

/-- No control character, and nothing but ASCII where that is asked for. -/
def Printed (ascii : Bool) (c : Char) : Prop :=
  0x20 ≤ c.toNat ∧ (ascii = true → c.toNat ≤ 0x7E)

instance (ascii : Bool) (c : Char) : Decidable (Printed ascii c) :=
  inferInstanceAs (Decidable (_ ∧ _))

def AllPrinted (ascii : Bool) (cs : List Char) : Prop := ∀ c ∈ cs, Printed ascii c

instance (ascii : Bool) (cs : List Char) : Decidable (AllPrinted ascii cs) :=
  List.decidableBAll _ cs

theorem allPrinted_append {ascii : Bool} {cs ds : List Char} :
    AllPrinted ascii (cs ++ ds) ↔ AllPrinted ascii cs ∧ AllPrinted ascii ds :=
  List.forall_mem_append

theorem allPrinted_cons {ascii : Bool} {c : Char} {cs : List Char} :
    AllPrinted ascii (c :: cs) ↔ Printed ascii c ∧ AllPrinted ascii cs :=
  List.forall_mem_cons

theorem allPrinted_nil (ascii : Bool) : AllPrinted ascii [] := nofun

theorem printed_digit {c : Char} (h : c.isDigit = true) (ascii : Bool) : Printed ascii c := by
  rw [Char.isDigit, Bool.and_eq_true, decide_eq_true_eq, decide_eq_true_eq] at h
  have hlow : 48 ≤ c.toNat := h.1
  have hhigh : c.toNat ≤ 57 := h.2
  exact ⟨by omega, fun _ => by omega⟩

theorem allPrinted_digits {cs : List Char} (h : ∀ c ∈ cs, c.isDigit = true) (ascii : Bool) :
    AllPrinted ascii cs := fun c hc => printed_digit (h c hc) ascii

theorem allPrinted_takeWhile (cs : List Char) (ascii : Bool) :
    AllPrinted ascii (cs.takeWhile Char.isDigit) :=
  allPrinted_digits (fun _ hc => List.mem_takeWhile_imp hc) ascii

theorem allPrinted_hex4 (n : Nat) (ascii : Bool) : AllPrinted ascii (hex4 n) := by
  have hdigit : ∀ d < 16, ∀ ascii, Printed ascii (Nat.digitChar d) := by decide
  have hmod : ∀ k, Printed ascii (Nat.digitChar (k % 16)) := fun k =>
    hdigit _ (Nat.mod_lt _ (by decide)) ascii
  intro c hc
  simp only [hex4, List.mem_cons, List.not_mem_nil, or_false] at hc
  rcases hc with rfl | rfl | rfl | rfl <;> exact hmod _

theorem allPrinted_unicodeEscape (n : Nat) (ascii : Bool) :
    AllPrinted ascii (unicodeEscape n) := by
  have hu : AllPrinted ascii ['\\', 'u'] := by
    cases ascii <;> decide
  unfold unicodeEscape
  split
  · exact allPrinted_append.mpr ⟨hu, allPrinted_hex4 n ascii⟩
  · exact allPrinted_append.mpr ⟨hu, allPrinted_append.mpr
      ⟨allPrinted_hex4 _ ascii, allPrinted_append.mpr ⟨hu, allPrinted_hex4 _ ascii⟩⟩⟩

theorem allPrinted_escapeChar (ascii : Bool) (c : Char) :
    AllPrinted ascii (escapeChar ascii c) := by
  unfold escapeChar
  split
  · rename_i e he
    have hall : shortEscapes.all (fun p => ∀ ascii, AllPrinted ascii ['\\', p.2]) = true := by
      decide
    obtain ⟨before, after, hlist, -⟩ := List.lookup_eq_some_iff.mp he
    have hmem : (c, e) ∈ shortEscapes :=
      hlist ▸ List.mem_append_right before (List.mem_cons_self ..)
    exact of_decide_eq_true (List.all_eq_true.mp hall (c, e) hmem) ascii
  · split
    · exact allPrinted_unicodeEscape c.toNat ascii
    · rename_i hplain
      refine allPrinted_cons.mpr ⟨⟨?_, fun hascii => ?_⟩, allPrinted_nil ascii⟩
      · exact Nat.not_lt.mp fun h => hplain (Or.inl h)
      · exact Nat.not_lt.mp fun h => hplain (Or.inr ⟨hascii, h⟩)

theorem allPrinted_quote (ascii : Bool) (s : List Char) : AllPrinted ascii (quote ascii s) := by
  have hquote : Printed ascii '"' := by
    cases ascii <;> decide
  refine allPrinted_cons.mpr ⟨hquote, allPrinted_append.mpr ⟨?_, ?_⟩⟩
  · intro c hc
    obtain ⟨d, -, hd⟩ := List.mem_flatMap.mp hc
    exact allPrinted_escapeChar ascii d c hd
  · exact allPrinted_cons.mpr ⟨hquote, allPrinted_nil ascii⟩

theorem allPrinted_intText (n : Int) (ascii : Bool) : AllPrinted ascii (intText n) := by
  have hdigits : AllPrinted ascii (Nat.toDigits 10 n.natAbs) :=
    allPrinted_digits (fun c hc => Nat.isDigit_of_mem_toDigits (by decide) (by decide) hc) ascii
  unfold intText
  split
  · exact allPrinted_cons.mpr ⟨by cases ascii <;> decide, hdigits⟩
  · exact hdigits

theorem allPrinted_fraction (cs : List Char) (ascii : Bool) :
    AllPrinted ascii (readFraction cs).1 := by
  unfold readFraction
  split
  · split
    · exact allPrinted_nil ascii
    · exact allPrinted_cons.mpr ⟨by cases ascii <;> decide, allPrinted_takeWhile _ ascii⟩
  · exact allPrinted_nil ascii

theorem allPrinted_exponent (cs : List Char) (ascii : Bool) :
    AllPrinted ascii (readExponent cs).1 := by
  unfold readExponent
  split
  · rename_i e ds
    dsimp only
    split
    · rename_i h
      refine allPrinted_cons.mpr ⟨?_, allPrinted_append.mpr ⟨?_, allPrinted_takeWhile _ ascii⟩⟩
      · rcases h.1 with rfl | rfl <;> cases ascii <;> decide
      · intro c hc
        have hsign := (List.mem_filter.mp hc).2
        simp only [isSign, Bool.or_eq_true, decide_eq_true_eq] at hsign
        rcases hsign with rfl | rfl <;> cases ascii <;> decide
    · exact allPrinted_nil ascii
  · exact allPrinted_nil ascii

theorem allPrinted_readTail {negative : Bool} {whole cs l rest : List Char} {ascii : Bool}
    (hwhole : AllPrinted ascii whole) (h : readTail negative whole cs = (.real l, rest)) :
    AllPrinted ascii l := by
  rw [readTail] at h
  dsimp only at h
  split at h
  · cases h
  · cases h
    refine allPrinted_append.mpr ⟨allPrinted_append.mpr ⟨allPrinted_append.mpr ⟨?_, hwhole⟩,
      allPrinted_fraction cs ascii⟩, allPrinted_exponent _ ascii⟩
    cases negative <;> cases ascii <;> decide

theorem allPrinted_readUnsigned {negative : Bool} {cs l rest : List Char} (ascii : Bool)
    (h : readUnsigned negative cs = some (.real l, rest)) : AllPrinted ascii l := by
  cases cs with
  | nil => cases h
  | cons c cs =>
      rw [readUnsigned] at h
      split at h
      · exact allPrinted_readTail (by cases ascii <;> decide) (Option.some.inj h)
      · split at h
        · rename_i hdigit
          refine allPrinted_readTail (allPrinted_cons.mpr ⟨?_, ?_⟩) (Option.some.inj h)
          · exact printed_digit hdigit ascii
          · exact allPrinted_takeWhile cs ascii
        · cases h

theorem allPrinted_readNumber {cs l rest : List Char} (ascii : Bool)
    (h : readNumber cs = some (.real l, rest)) : AllPrinted ascii l := by
  cases cs with
  | nil => cases h
  | cons c cs =>
      rw [readNumber] at h
      split at h <;> exact allPrinted_readUnsigned ascii h

theorem allPrinted_readWord {cs l rest : List Char} (ascii : Bool)
    (h : readWord cs = some (.real l, rest)) : AllPrinted ascii l := by
  obtain ⟨w, hw, hread⟩ := List.exists_of_findSome?_eq_some h
  split at hread
  · obtain ⟨hv, -⟩ := Prod.mk.inj (Option.some.inj hread)
    simp only [words, List.mem_cons, List.not_mem_nil, or_false] at hw
    rcases hw with rfl | rfl | rfl | rfl | rfl | rfl
    all_goals
      cases hv
    all_goals
      cases ascii <;> decide
  · cases hread

theorem allPrinted_comma (f : Format) : AllPrinted f.ascii f.comma := by
  rw [Format.comma]
  split <;> cases f.ascii <;> decide

theorem allPrinted_colon (f : Format) : AllPrinted f.ascii f.colon := by
  rw [Format.colon]
  split <;> cases f.ascii <;> decide

/-- The literal of a number that was read. -/
theorem allPrinted_readValue {steps : Nat} {cs l rest : List Char} (ascii : Bool)
    (h : readValue steps cs = some (.real l, rest)) : AllPrinted ascii l := by
  cases steps with
  | zero => cases h
  | succ steps =>
      cases cs with
      | nil => cases h
      | cons c cs =>
          rw [readValue] at h
          split at h
          · obtain ⟨_, -, hstr⟩ := Option.map_eq_some_iff.mp h
            cases hstr
          · split at h
            · split at h
              · cases h
              · obtain ⟨_, -, harr⟩ := Option.map_eq_some_iff.mp h
                cases harr
            · split at h
              · split at h
                · cases h
                · obtain ⟨_, -, hobj⟩ := Option.map_eq_some_iff.mp h
                  cases hobj
              · cases hword : readWord (c :: cs) with
                | some r =>
                    rw [hword] at h
                    exact allPrinted_readWord ascii (hword.trans h)
                | none =>
                    rw [hword] at h
                    exact allPrinted_readNumber ascii (show readNumber (c :: cs) = _ from h)

theorem allPrinted_renderItems {f : Format} {xs : List Json}
    (h : ∀ x ∈ xs, AllPrinted f.ascii (render f x)) : AllPrinted f.ascii (renderItems f xs) := by
  induction xs with
  | nil => exact allPrinted_cons.mpr ⟨by cases f.ascii <;> decide, allPrinted_nil _⟩
  | cons x xs ih =>
      obtain ⟨hx, hxs⟩ := List.forall_mem_cons.mp h
      exact allPrinted_append.mpr ⟨allPrinted_comma f, allPrinted_append.mpr ⟨hx, ih hxs⟩⟩

theorem allPrinted_renderEntries {f : Format} {es : List (List Char × Json)}
    (h : ∀ e ∈ es, AllPrinted f.ascii (render f e.2)) :
    AllPrinted f.ascii (renderEntries f es) := by
  induction es with
  | nil => exact allPrinted_cons.mpr ⟨by cases f.ascii <;> decide, allPrinted_nil _⟩
  | cons e es ih =>
      obtain ⟨he, hes⟩ := List.forall_mem_cons.mp h
      exact allPrinted_append.mpr ⟨allPrinted_comma f, allPrinted_append.mpr
        ⟨allPrinted_quote _ _, allPrinted_append.mpr
          ⟨allPrinted_colon f, allPrinted_append.mpr ⟨he, ih hes⟩⟩⟩⟩

/-- A text has no control characters; escaped, it is printable ASCII. -/
theorem allPrinted_render (f : Format) {v : Json} (hv : Writable v) :
    AllPrinted f.ascii (render f v) := by
  have hmark : ∀ ascii, AllPrinted ascii ['[', ']', '{', '}'] := by decide
  induction hv with
  | null =>
      show AllPrinted f.ascii ['n', 'u', 'l', 'l']
      cases f.ascii <;> decide
  | bool b =>
      cases b
      · show AllPrinted f.ascii ['f', 'a', 'l', 's', 'e']
        cases f.ascii <;> decide
      · show AllPrinted f.ascii ['t', 'r', 'u', 'e']
        cases f.ascii <;> decide
  | int n => exact allPrinted_intText n f.ascii
  | real h => exact allPrinted_readValue f.ascii (h 0 [] numberEnds_nil)
  | str s => exact allPrinted_quote f.ascii s
  | @arr items h ih =>
      have hopen := hmark f.ascii '[' (by decide)
      cases items with
      | nil =>
          have hclose := hmark f.ascii ']' (by decide)
          exact allPrinted_cons.mpr ⟨hopen, allPrinted_cons.mpr ⟨hclose, allPrinted_nil _⟩⟩
      | cons x xs =>
          obtain ⟨hx, hxs⟩ := List.forall_mem_cons.mp ih
          rw [render]
          exact allPrinted_cons.mpr ⟨hopen, allPrinted_append.mpr ⟨hx, allPrinted_renderItems hxs⟩⟩
  | @obj entries h ih =>
      have hopen := hmark f.ascii '{' (by decide)
      cases entries with
      | nil =>
          have hclose := hmark f.ascii '}' (by decide)
          exact allPrinted_cons.mpr ⟨hopen, allPrinted_cons.mpr ⟨hclose, allPrinted_nil _⟩⟩
      | cons e es =>
          obtain ⟨he, hes⟩ := List.forall_mem_cons.mp ih
          rw [render]
          exact allPrinted_cons.mpr ⟨hopen, allPrinted_append.mpr ⟨allPrinted_quote _ _,
            allPrinted_append.mpr ⟨allPrinted_colon f, allPrinted_append.mpr
              ⟨he, allPrinted_renderEntries hes⟩⟩⟩⟩

theorem newline_not_mem_render (f : Format) {v : Json} (hv : Writable v) :
    '\n' ∉ render f v := fun h => absurd (allPrinted_render f hv _ h).1 (by decide)

end Json
