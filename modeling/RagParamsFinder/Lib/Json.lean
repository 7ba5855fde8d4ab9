/-
  JSON texts, as Python's `json` module writes and reads them.

  A text is a list of characters. Numbers with a fraction or an exponent, and `NaN` and the
  infinities, keep the literal they are written as. An object keeps its entries in the order they
  come in; of two entries of one key the last one counts.

  `render` writes a value; `loads` reads a text. The reader goes down with a bound on its steps,
  and the length of the text is always enough (`loads_eq_some_iff`). What it reads out of
  surrogates that are not a pair is no text here, so it refuses them.
-/
import Mathlib.Data.List.Basic

inductive Json where
  | null
  | bool (b : Bool)
  | int (n : Int)
  | real (literal : List Char)
  | str (s : List Char)
  | arr (items : List Json)
  | obj (entries : List (List Char × Json))

namespace Json

/-! ## Writing -/

/-- `ensure_ascii`, and whether a space follows each comma and colon. -/
structure Format where
  ascii : Bool
  spaced : Bool
  deriving DecidableEq, Repr

def Format.comma (f : Format) : List Char := if f.spaced then [',', ' '] else [',']

def Format.colon (f : Format) : List Char := if f.spaced then [':', ' '] else [':']

/-- The characters with an escape of their own. -/
def shortEscapes : List (Char × Char) :=
  [('"', '"'), ('\\', '\\'), ('\n', 'n'), ('\r', 'r'), ('\t', 't'), ('\x08', 'b'), ('\x0c', 'f')]

def hex4 (n : Nat) : List Char :=
  [Nat.digitChar (n / 4096 % 16), Nat.digitChar (n / 256 % 16), Nat.digitChar (n / 16 % 16),
    Nat.digitChar (n % 16)]

/-- A code point by its UTF-16 units. -/
def unicodeEscape (n : Nat) : List Char :=
  if n < 0x10000 then '\\' :: 'u' :: hex4 n
  else
    '\\' :: 'u' :: (hex4 (0xD800 + (n - 0x10000) / 0x400) ++
      '\\' :: 'u' :: hex4 (0xDC00 + (n - 0x10000) % 0x400))

def escapeChar (ascii : Bool) (c : Char) : List Char :=
  match shortEscapes.lookup c with
  | some e => ['\\', e]
  | none =>
      if c.toNat < 0x20 ∨ (ascii = true ∧ 0x7E < c.toNat) then unicodeEscape c.toNat else [c]

def quote (ascii : Bool) (s : List Char) : List Char :=
  '"' :: (s.flatMap (escapeChar ascii) ++ ['"'])

def intText (n : Int) : List Char :=
  if n < 0 then '-' :: Nat.toDigits 10 n.natAbs else Nat.toDigits 10 n.natAbs

mutual

def render (f : Format) : Json → List Char
  | .null => ['n', 'u', 'l', 'l']
  | .bool true => ['t', 'r', 'u', 'e']
  | .bool false => ['f', 'a', 'l', 's', 'e']
  | .int n => intText n
  | .real literal => literal
  | .str s => quote f.ascii s
  | .arr [] => ['[', ']']
  | .arr (x :: xs) => '[' :: (render f x ++ renderItems f xs)
  | .obj [] => ['{', '}']
  | .obj ((k, x) :: es) =>
      '{' :: (quote f.ascii k ++ (f.colon ++ (render f x ++ renderEntries f es)))

/-- The items after the first one, and the bracket. -/
def renderItems (f : Format) : List Json → List Char
  | [] => [']']
  | x :: xs => f.comma ++ (render f x ++ renderItems f xs)

def renderEntries (f : Format) : List (List Char × Json) → List Char
  | [] => ['}']
  | (k, x) :: es =>
      f.comma ++ (quote f.ascii k ++ (f.colon ++ (render f x ++ renderEntries f es)))

end

/-! ## Reading -/

def isSpace (c : Char) : Bool := c = ' ' || c = '\t' || c = '\n' || c = '\r'

def skip (cs : List Char) : List Char := cs.dropWhile isSpace

def hexVal (c : Char) : Option Nat :=
  if '0' ≤ c ∧ c ≤ '9' then some (c.toNat - 48)
  else if 'a' ≤ c ∧ c ≤ 'f' then some (c.toNat - 87)
  else if 'A' ≤ c ∧ c ≤ 'F' then some (c.toNat - 55)
  else none

/-- The four digits after `\u`. -/
def readHex4 : List Char → Option (Nat × List Char)
  | a :: b :: c :: d :: cs => do
      let a ← hexVal a
      let b ← hexVal b
      let c ← hexVal c
      let d ← hexVal d
      return (4096 * a + 256 * b + 16 * c + d, cs)
  | _ => none

/-- The low half of a surrogate pair. -/
def readLow (high : Nat) : List Char → Option (Char × List Char)
  | '\\' :: 'u' :: cs => do
      let (low, cs) ← readHex4 cs
      if 0xDC00 ≤ low ∧ low ≤ 0xDFFF then
        return (Char.ofNat (0x10000 + (high - 0xD800) * 0x400 + (low - 0xDC00)), cs)
      else none
  | _ => none

def readUnicode (cs : List Char) : Option (Char × List Char) := do
  let (n, cs) ← readHex4 cs
  if 0xD800 ≤ n ∧ n ≤ 0xDBFF then readLow n cs
  else if 0xDC00 ≤ n ∧ n ≤ 0xDFFF then none
  else return (Char.ofNat n, cs)

def readEscapes : List (Char × Char) :=
  [('"', '"'), ('\\', '\\'), ('/', '/'), ('b', '\x08'), ('f', '\x0c'), ('n', '\n'), ('r', '\r'),
    ('t', '\t')]

/-- One character of a string. -/
def readChar : List Char → Option (Char × List Char)
  | [] => none
  | [c] => if c = '\\' ∨ c.toNat < 0x20 then none else some (c, [])
  | c :: d :: cs =>
      if c = '\\' then
        if d = 'u' then readUnicode cs else (readEscapes.lookup d).map fun c => (c, cs)
      else if c.toNat < 0x20 then none
      else some (c, d :: cs)

/-- The rest of a string after its opening quote; every character takes a step. -/
def readString : Nat → List Char → Option (List Char × List Char)
  | 0, _ => none
  | _, [] => none
  | steps + 1, c :: cs =>
      if c = '"' then some ([], cs)
      else do
        let (d, rest) ← readChar (c :: cs)
        let (s, rest) ← readString steps rest
        return (d :: s, rest)

/-- `\.\d+`, if it is there. -/
def readFraction (cs : List Char) : List Char × List Char :=
  match cs with
  | '.' :: ds =>
      if ds.takeWhile Char.isDigit = [] then ([], cs)
      else ('.' :: ds.takeWhile Char.isDigit, ds.dropWhile Char.isDigit)
  | _ => ([], cs)

def isSign (c : Char) : Bool := c = '+' || c = '-'

/-- `[eE][-+]?\d+`, if it is there. -/
def readExponent (cs : List Char) : List Char × List Char :=
  match cs with
  | e :: ds =>
      let sign := (ds.take 1).filter isSign
      let digits := (ds.drop sign.length).takeWhile Char.isDigit
      if (e = 'e' ∨ e = 'E') ∧ digits ≠ [] then
        (e :: (sign ++ digits), (ds.drop sign.length).dropWhile Char.isDigit)
      else ([], cs)
  | [] => ([], [])

/-- What follows the whole digits decides whether it is an int. -/
def readTail (negative : Bool) (whole cs : List Char) : Json × List Char :=
  let fraction := readFraction cs
  let exponent := readExponent fraction.2
  if fraction.1 = [] ∧ exponent.1 = [] then
    let n : Int := Nat.ofDigitChars 10 whole 0
    (.int (if negative then -n else n), cs)
  else ((.real ((if negative then ['-'] else []) ++ whole ++ fraction.1 ++ exponent.1)), exponent.2)

/-- `0|[1-9]\d*`, and what follows. -/
def readUnsigned (negative : Bool) : List Char → Option (Json × List Char)
  | [] => none
  | c :: cs =>
      if c = '0' then some (readTail negative ['0'] cs)
      else if c.isDigit then
        some (readTail negative (c :: cs.takeWhile Char.isDigit) (cs.dropWhile Char.isDigit))
      else none

def readNumber : List Char → Option (Json × List Char)
  | [] => none
  | c :: cs => if c = '-' then readUnsigned true cs else readUnsigned false (c :: cs)

def words : List (List Char × Json) :=
  [("null".toList, .null), ("true".toList, .bool true), ("false".toList, .bool false),
    ("NaN".toList, .real "NaN".toList), ("Infinity".toList, .real "Infinity".toList),
    ("-Infinity".toList, .real "-Infinity".toList)]

def readWord (cs : List Char) : Option (Json × List Char) :=
  words.findSome? fun w => if w.1 <+: cs then some (w.2, cs.drop w.1.length) else none

/-- A key and its colon, up to the value. -/
def readKey : List Char → Option (List Char × List Char)
  | [] => none
  | c :: cs =>
      if c = '"' then do
        let (k, rest) ← readString (cs.length + 1) cs
        match skip rest with
        | ':' :: rest => return (k, skip rest)
        | _ => none
      else none

mutual

/-- A value; every step down takes one of `steps`. -/
def readValue : Nat → List Char → Option (Json × List Char)
  | 0, _ => none
  | _, [] => none
  | steps + 1, c :: cs =>
      if c = '"' then (readString (cs.length + 1) cs).map fun r => (.str r.1, r.2)
      else if c = '[' then
        if (skip cs).head? = some ']' then some (.arr [], (skip cs).tail)
        else (readItems steps (skip cs)).map fun r => (.arr r.1, r.2)
      else if c = '{' then
        if (skip cs).head? = some '}' then some (.obj [], (skip cs).tail)
        else (readEntries steps (skip cs)).map fun r => (.obj r.1, r.2)
      else (readWord (c :: cs)).orElse fun _ => readNumber (c :: cs)

def readItems : Nat → List Char → Option (List Json × List Char)
  | 0, _ => none
  | steps + 1, cs => do
      let (x, rest) ← readValue steps cs
      match skip rest with
      | ',' :: rest =>
          let (xs, rest) ← readItems steps (skip rest)
          return (x :: xs, rest)
      | ']' :: rest => return ([x], rest)
      | _ => none

def readEntries : Nat → List Char → Option (List (List Char × Json) × List Char)
  | 0, _ => none
  | steps + 1, cs => do
      let (k, rest) ← readKey cs
      let (x, rest) ← readValue steps rest
      match skip rest with
      | ',' :: rest =>
          let (es, rest) ← readEntries steps (skip rest)
          return ((k, x) :: es, rest)
      | '}' :: rest => return ([(k, x)], rest)
      | _ => none

end

/-- `json.loads`. -/
def loads (cs : List Char) : Option Json := do
  let (x, rest) ← readValue (cs.length + 1) (skip cs)
  if skip rest = [] then return x else none

/-! ## The steps of the reader -/

theorem length_skip_le (cs : List Char) : (skip cs).length ≤ cs.length :=
  (List.dropWhile_sublist _).length_le

theorem length_dropDigits_le (cs : List Char) : (cs.dropWhile Char.isDigit).length ≤ cs.length :=
  (List.dropWhile_sublist _).length_le

theorem readHex4_length {cs rest : List Char} {n : Nat} (h : readHex4 cs = some (n, rest)) :
    rest.length < cs.length := by
  unfold readHex4 at h
  split at h
  · rename_i a b c d cs
    simp only [Option.bind_eq_bind, Option.bind_eq_some_iff, Option.pure_def] at h
    obtain ⟨_, -, _, -, _, -, _, -, h⟩ := h
    obtain ⟨-, rfl⟩ := Prod.mk.inj (Option.some.inj h)
    simp only [List.length_cons]
    omega
  · cases h

theorem readLow_length {high : Nat} {cs rest : List Char} {c : Char}
    (h : readLow high cs = some (c, rest)) : rest.length < cs.length := by
  unfold readLow at h
  split at h
  · obtain ⟨⟨low, cs'⟩, hlow, h⟩ := Option.bind_eq_some_iff.mp h
    have hlt := readHex4_length hlow
    dsimp only at h
    split at h
    · obtain ⟨-, rfl⟩ := Prod.mk.inj (Option.some.inj h)
      simp only [List.length_cons]
      omega
    · cases h
  · cases h

theorem readUnicode_length {cs rest : List Char} {c : Char}
    (h : readUnicode cs = some (c, rest)) : rest.length < cs.length := by
  obtain ⟨⟨n, cs'⟩, hn, h⟩ := Option.bind_eq_some_iff.mp h
  have hlt := readHex4_length hn
  dsimp only at h
  split at h
  · exact Nat.lt_trans (readLow_length h) hlt
  · split at h
    · cases h
    · obtain ⟨-, rfl⟩ := Prod.mk.inj (Option.some.inj h)
      exact hlt

theorem readChar_length {cs rest : List Char} {c : Char} (h : readChar cs = some (c, rest)) :
    rest.length < cs.length := by
  unfold readChar at h
  split at h
  · cases h
  · split at h
    · cases h
    · cases h
      exact Nat.one_pos
  · rename_i d ds
    simp only [List.length_cons]
    split at h
    · split at h
      · have hlt := readUnicode_length h
        omega
      · obtain ⟨e, -, he⟩ := Option.map_eq_some_iff.mp h
        cases he
        omega
    · split at h
      · cases h
      · cases h
        simp only [List.length_cons]
        omega

theorem readString_length {steps : Nat} {cs s rest : List Char}
    (h : readString steps cs = some (s, rest)) : rest.length < cs.length := by
  induction steps generalizing cs s with
  | zero => cases h
  | succ steps ih =>
      cases cs with
      | nil => cases h
      | cons c cs =>
          rw [readString] at h
          split at h
          · cases h
            exact Nat.lt_succ_self _
          · obtain ⟨⟨d, cs'⟩, hd, h⟩ := Option.bind_eq_some_iff.mp h
            obtain ⟨⟨t, cs''⟩, ht, h⟩ := Option.bind_eq_some_iff.mp h
            cases h
            exact Nat.lt_trans (ih ht) (readChar_length hd)

theorem readKey_length {cs k rest : List Char} (h : readKey cs = some (k, rest)) :
    rest.length < cs.length := by
  cases cs with
  | nil => cases h
  | cons c cs =>
      rw [readKey] at h
      split at h
      · obtain ⟨⟨s, cs'⟩, hs, h⟩ := Option.bind_eq_some_iff.mp h
        have hlt := readString_length hs
        dsimp only at h
        split at h
        · rename_i cs'' hcolon
          have hskip := length_skip_le cs'
          have hskip' := length_skip_le cs''
          rw [hcolon, List.length_cons] at hskip
          cases h
          simp only [List.length_cons] at hskip ⊢
          omega
        · cases h
      · cases h

theorem readTail_length (negative : Bool) (whole cs : List Char) :
    (readTail negative whole cs).2.length ≤ cs.length := by
  have hfraction : ∀ cs : List Char, (readFraction cs).2.length ≤ cs.length := by
    intro cs
    unfold readFraction
    split
    · split
      · exact Nat.le_refl _
      · exact Nat.le_succ_of_le (length_dropDigits_le _)
    · exact Nat.le_refl _
  have hexponent : ∀ cs : List Char, (readExponent cs).2.length ≤ cs.length := by
    intro cs
    unfold readExponent
    split
    · rename_i e ds
      dsimp only
      split
      · have hdrop := length_dropDigits_le (ds.drop ((ds.take 1).filter isSign).length)
        exact Nat.le_succ_of_le (Nat.le_trans hdrop (List.drop_sublist _ ds).length_le)
      · exact Nat.le_refl _
    · exact Nat.le_refl _
  rw [readTail]
  dsimp only
  split
  · exact Nat.le_refl _
  · exact Nat.le_trans (hexponent _) (hfraction cs)

theorem readUnsigned_length {negative : Bool} {cs rest : List Char} {v : Json}
    (h : readUnsigned negative cs = some (v, rest)) : rest.length < cs.length := by
  cases cs with
  | nil => cases h
  | cons c cs =>
      rw [readUnsigned] at h
      rw [List.length_cons, Nat.lt_succ_iff]
      split at h
      · have hle := readTail_length negative ['0'] cs
        rwa [Option.some.inj h] at hle
      · split at h
        · have hle := readTail_length negative (c :: cs.takeWhile Char.isDigit)
            (cs.dropWhile Char.isDigit)
          rw [Option.some.inj h] at hle
          exact Nat.le_trans hle (length_dropDigits_le cs)
        · cases h

theorem readNumber_length {cs rest : List Char} {v : Json}
    (h : readNumber cs = some (v, rest)) : rest.length < cs.length := by
  cases cs with
  | nil => cases h
  | cons c cs =>
      rw [readNumber] at h
      split at h
      · exact Nat.lt_succ_of_lt (readUnsigned_length h)
      · exact readUnsigned_length h

theorem readWord_length {cs rest : List Char} {v : Json} (h : readWord cs = some (v, rest)) :
    rest.length < cs.length := by
  obtain ⟨w, hw, hread⟩ := List.exists_of_findSome?_eq_some h
  have hpos : ∀ w ∈ words, 0 < w.1.length := by
    intro w hw
    simp only [words, List.mem_cons, List.not_mem_nil, or_false] at hw
    rcases hw with rfl | rfl | rfl | rfl | rfl | rfl <;> decide
  split at hread
  · rename_i hprefix
    have hle := hprefix.length_le
    have hlen := hpos w hw
    rw [← (Prod.mk.inj (Option.some.inj hread)).2, List.length_drop]
    omega
  · cases hread

/-- What is read consumes characters, and is read with a step for each of them. -/
def Consumes {α : Type} (read : Nat → List Char → Option (α × List Char)) (n : Nat) : Prop :=
  ∀ cs a rest, read n cs = some (a, rest) → rest.length < cs.length ∧
    ∀ m, cs.length ≤ m + rest.length → read m cs = some (a, rest)

theorem consumes_readItems {n : Nat} (hv : Consumes readValue n) (hi : Consumes readItems n) :
    Consumes readItems (n + 1) := by
  intro cs a rest h
  obtain ⟨⟨x, cs'⟩, hx, h⟩ := Option.bind_eq_some_iff.mp h
  obtain ⟨hlt, hsteps⟩ := hv cs x cs' hx
  have hskip := length_skip_le cs'
  dsimp only at h
  split at h
  · rename_i cs'' hcomma
    obtain ⟨⟨xs, cs3⟩, hxs, h⟩ := Option.bind_eq_some_iff.mp h
    dsimp only [Option.pure_def] at h
    obtain ⟨rfl, rfl⟩ := Prod.mk.inj (Option.some.inj h)
    obtain ⟨hlt', hsteps'⟩ := hi _ _ _ hxs
    have hskip' := length_skip_le cs''
    rw [hcomma, List.length_cons] at hskip
    refine ⟨by omega, fun m hm => ?_⟩
    cases m with
    | zero => omega
    | succ m =>
        rw [readItems, hsteps m (by omega)]
        simp only [Option.bind_eq_bind, Option.bind_some, hcomma, hsteps' m (by omega),
          Option.pure_def]
  · rename_i cs'' hclose
    cases h
    rw [hclose, List.length_cons] at hskip
    refine ⟨by omega, fun m hm => ?_⟩
    cases m with
    | zero => omega
    | succ m =>
        rw [readItems, hsteps m (by omega)]
        simp only [Option.bind_eq_bind, Option.bind_some, hclose, Option.pure_def]
  · cases h

theorem consumes_readEntries {n : Nat} (hv : Consumes readValue n)
    (he : Consumes readEntries n) : Consumes readEntries (n + 1) := by
  intro cs a rest h
  obtain ⟨⟨k, ks⟩, hk, h⟩ := Option.bind_eq_some_iff.mp h
  obtain ⟨⟨x, cs'⟩, hx, h⟩ := Option.bind_eq_some_iff.mp h
  have hkey := readKey_length hk
  obtain ⟨hlt, hsteps⟩ := hv ks x cs' hx
  have hskip := length_skip_le cs'
  dsimp only at h
  split at h
  · rename_i cs'' hcomma
    obtain ⟨⟨es, cs3⟩, hes, h⟩ := Option.bind_eq_some_iff.mp h
    dsimp only [Option.pure_def] at h
    obtain ⟨rfl, rfl⟩ := Prod.mk.inj (Option.some.inj h)
    obtain ⟨hlt', hsteps'⟩ := he _ _ _ hes
    have hskip' := length_skip_le cs''
    rw [hcomma, List.length_cons] at hskip
    refine ⟨by omega, fun m hm => ?_⟩
    cases m with
    | zero => omega
    | succ m =>
        rw [readEntries, hk]
        simp only [Option.bind_eq_bind, Option.bind_some, hsteps m (by omega), hcomma,
          hsteps' m (by omega), Option.pure_def]
  · rename_i cs'' hclose
    cases h
    rw [hclose, List.length_cons] at hskip
    refine ⟨by omega, fun m hm => ?_⟩
    cases m with
    | zero => omega
    | succ m =>
        rw [readEntries, hk]
        simp only [Option.bind_eq_bind, Option.bind_some, hsteps m (by omega), hclose,
          Option.pure_def]
  · cases h

theorem consumes_readValue {n : Nat} (hi : Consumes readItems n) (he : Consumes readEntries n) :
    Consumes readValue (n + 1) := by
  intro cs a rest h
  cases cs with
  | nil => cases h
  | cons c cs =>
      have hskip := length_skip_le cs
      have htail : (skip cs).tail.length ≤ cs.length :=
        Nat.le_trans (List.tail_sublist _).length_le hskip
      -- A step is there in any case, since a character was read.
      have hmore : rest.length < (c :: cs).length →
          (∀ m, (c :: cs).length ≤ m + 1 + rest.length →
            readValue (m + 1) (c :: cs) = some (a, rest)) →
          rest.length < (c :: cs).length ∧
            ∀ m, (c :: cs).length ≤ m + rest.length → readValue m (c :: cs) = some (a, rest) := by
        intro hlt hread
        refine ⟨hlt, fun m hm => ?_⟩
        cases m with
        | zero => omega
        | succ m => exact hread m hm
      rw [readValue] at h
      rw [List.length_cons] at hmore
      split at h
      · rename_i hquote
        obtain ⟨⟨s, cs'⟩, hs, heq⟩ := Option.map_eq_some_iff.mp h
        dsimp only at heq
        obtain ⟨rfl, rfl⟩ := Prod.mk.inj heq
        refine hmore (Nat.lt_succ_of_lt (readString_length hs)) fun m _ => ?_
        rw [readValue, if_pos hquote, hs]
        rfl
      · rename_i hquote
        split at h
        · rename_i hbracket
          split at h
          · rename_i hclose
            cases h
            refine hmore (by omega) fun m _ => ?_
            rw [readValue, if_neg hquote, if_pos hbracket, if_pos hclose]
          · rename_i hopen
            obtain ⟨⟨xs, cs'⟩, hxs, heq⟩ := Option.map_eq_some_iff.mp h
            dsimp only at heq
            obtain ⟨rfl, rfl⟩ := Prod.mk.inj heq
            obtain ⟨hlt, hsteps⟩ := hi _ _ _ hxs
            refine hmore (by omega) fun m hm => ?_
            rw [readValue, if_neg hquote, if_pos hbracket, if_neg hopen, hsteps m (by omega)]
            rfl
        · rename_i hbracket
          split at h
          · rename_i hbrace
            split at h
            · rename_i hclose
              cases h
              refine hmore (by omega) fun m _ => ?_
              rw [readValue, if_neg hquote, if_neg hbracket, if_pos hbrace, if_pos hclose]
            · rename_i hopen
              obtain ⟨⟨es, cs'⟩, hes, heq⟩ := Option.map_eq_some_iff.mp h
              dsimp only at heq
              obtain ⟨rfl, rfl⟩ := Prod.mk.inj heq
              obtain ⟨hlt, hsteps⟩ := he _ _ _ hes
              refine hmore (by omega) fun m hm => ?_
              rw [readValue, if_neg hquote, if_neg hbracket, if_pos hbrace, if_neg hopen,
                hsteps m (by omega)]
              rfl
          · rename_i hbrace
            have hlt : rest.length < (c :: cs).length := by
              cases hword : readWord (c :: cs) with
              | some r =>
                  rw [hword] at h
                  exact readWord_length (hword.trans h)
              | none =>
                  rw [hword] at h
                  exact readNumber_length (show readNumber (c :: cs) = _ from h)
            refine hmore hlt fun m _ => ?_
            rw [readValue, if_neg hquote, if_neg hbracket, if_neg hbrace, h]

theorem consumes (n : Nat) :
    Consumes readValue n ∧ Consumes readItems n ∧ Consumes readEntries n := by
  induction n with
  | zero => exact ⟨nofun, nofun, nofun⟩
  | succ n ih =>
      obtain ⟨hv, hi, he⟩ := ih
      exact ⟨consumes_readValue hi he, consumes_readItems hv hi, consumes_readEntries hv he⟩

/-- `loads` reads what the reader reads with any number of steps. -/
theorem loads_eq_some_iff {cs : List Char} {v : Json} : loads cs = some v ↔
    ∃ n rest, readValue n (skip cs) = some (v, rest) ∧ skip rest = [] := by
  constructor
  · intro h
    obtain ⟨⟨x, rest⟩, hread, h⟩ := Option.bind_eq_some_iff.mp h
    dsimp only at h
    split at h
    · rename_i hend
      cases h
      exact ⟨_, rest, hread, hend⟩
    · cases h
  · rintro ⟨n, rest, hread, hend⟩
    obtain ⟨hlt, hsteps⟩ := (consumes n).1 _ _ _ hread
    have hskip := length_skip_le cs
    have hlong := hsteps (cs.length + 1) (by omega)
    simp only [loads, hlong, Option.bind_eq_bind, Option.bind_some]
    exact if_pos hend

end Json
