/-
  What Python's `int`, `float`, `round` and dictionaries make of a JSON-like value.

  A text is read as the documentation of `int` and `float` has it: between spaces, with a sign,
  in digits of any script, which may have single underscores between them. A number is the
  exact one that is written; from `doubleLimit` on it is infinite as a double.

  * `intOf`, `floatOf`: the conversions, with the exception that each raises.
  * `roundHalfEven`: `round` of an exact number.
  * `hashed`: a value as the key of a dictionary, where `1`, `1.0` and `True` are one key and a
    list or a dictionary is none.
-/
import Mathlib.Algebra.Group.Nat.Defs
import RagParamsFinder.Lib.Documents

namespace Documents

/-- The exceptions of the built-in operations. -/
inductive Raised where
  | typeError
  | valueError
  | overflowError
  | attributeError
  | keyError
  | indexError
  deriving DecidableEq, Repr

def raising {α : Type} (e : Raised) : Option α → Except Raised α
  | some a => .ok a
  | none => .error e

theorem raising_eq_ok {α : Type} {e : Raised} {x : Option α} {a : α} :
    raising e x = .ok a ↔ x = some a := by
  cases x <;> simp [raising]

/-- `str.isspace`, for one character. -/
def isSpaceChar (c : Char) : Bool :=
  let n := c.toNat
  (9 ≤ n && n ≤ 13) || (28 ≤ n && n ≤ 32) || n == 133 || n == 160 || n == 5760 ||
    (8192 ≤ n && n ≤ 8202) || n == 8232 || n == 8233 || n == 8239 || n == 8287 || n == 12288

/-- `str.strip`. -/
def stripped (cs : List Char) : List Char :=
  ((cs.dropWhile isSpaceChar).reverse.dropWhile isSpaceChar).reverse

/-! ## Numerals -/

/-- The zeros of the scripts; the other nine digits of each follow in order. -/
def zeros : List Nat :=
  [0x30, 0x660, 0x6F0, 0x7C0, 0x966, 0x9E6, 0xA66, 0xAE6, 0xB66, 0xBE6, 0xC66, 0xCE6, 0xD66,
   0xDE6, 0xE50, 0xED0, 0xF20, 0x1040, 0x1090, 0x17E0, 0x1810, 0x1946, 0x19D0, 0x1A80, 0x1A90,
   0x1B50, 0x1BB0, 0x1C40, 0x1C50, 0xA620, 0xA8D0, 0xA900, 0xA9D0, 0xA9F0, 0xAA50, 0xABF0,
   0xFF10, 0x104A0, 0x10D30, 0x11066, 0x110F0, 0x11136, 0x111D0, 0x112F0, 0x11450, 0x114D0,
   0x11650, 0x116C0, 0x11730, 0x118E0, 0x11950, 0x11C50, 0x11D50, 0x11DA0, 0x11F50, 0x16A60,
   0x16AC0, 0x16B50, 0x1D7CE, 0x1D7D8, 0x1D7E2, 0x1D7EC, 0x1D7F6, 0x1E140, 0x1E2F0, 0x1E4F0,
   0x1E950, 0x1FBF0]

/-- The decimal digit that a character is. -/
def digitOf (c : Char) : Option Nat :=
  (zeros.find? fun z => z ≤ c.toNat && c.toNat < z + 10).map (c.toNat - ·)

/-- Digits, with at most an underscore between two of them. -/
def digitsOf : List Char → Option (List Nat)
  | [] => none
  | [c] => (digitOf c).map ([·])
  | c :: '_' :: cs => do return (← digitOf c) :: (← digitsOf cs)
  | c :: cs => do return (← digitOf c) :: (← digitsOf cs)

/-- The number of some digits, the first one leading. -/
def numeral (digits : List Nat) : Nat := digits.foldl (fun n d => 10 * n + d) 0

/-- A sign and what follows it. -/
def signOf : List Char → Int × List Char
  | '-' :: cs => (-1, cs)
  | '+' :: cs => (1, cs)
  | cs => (1, cs)

/-- `sys.get_int_max_str_digits()`. -/
def maxStrDigits : Nat := 4300

/-- `int(text)`; `none` is `ValueError`. -/
def intOfText (text : List Char) : Option Int := do
  let (sign, body) := signOf (stripped text)
  let digits ← digitsOf body
  if digits.length ≤ maxStrDigits then return sign * numeral digits else none

example : intOfText " -1_024\n".toList = some (-1024) := by decide

/-! ## Floats -/

/-- Python's `round(x)`: to the nearest integer, a half to the even one. -/
def roundHalfEven (x : Rat) : Int :=
  let down := x.floor
  let rest := x - down
  if rest < 1 / 2 then down
  else if 1 / 2 < rest then down + 1
  else if down % 2 = 0 then down else down + 1

/-- Half a unit in the last place above the largest double. -/
@[irreducible] def doubleLimit : Nat := 2 ^ 1024 - 2 ^ 970

/-- A number as a double; `none` is infinite. -/
def finite (q : Rat) : Option Rat :=
  if q.num.natAbs < doubleLimit * q.den then some q else none

/-- `float(text)`: `none` is `ValueError`, and an infinite number or no number is `some none`. -/
def floatOfText (text : List Char) : Option (Option Rat) := do
  let (sign, body) := signOf (stripped text)
  if body.map Char.toLower ∈ ["inf".toList, "infinity".toList, "nan".toList] then
    return none
  let isExponent := fun c : Char => c = 'e' ∨ c = 'E'
  let mantissa := body.takeWhile fun c => ¬isExponent c
  let exponent ← match body.dropWhile fun c => ¬isExponent c with
    | [] => some 0
    | _ :: cs => (digitsOf (signOf cs).2).map fun digits => (signOf cs).1 * numeral digits
  let part := fun cs : List Char => if cs = [] then some [] else digitsOf cs
  let whole ← part (mantissa.takeWhile (· ≠ '.'))
  let fraction ← part ((mantissa.dropWhile (· ≠ '.')).drop 1)
  if whole ++ fraction = [] then none
  else return finite (sign * numeral (whole ++ fraction) * 10 ^ (exponent - fraction.length))

example : floatOfText "-12.5e-1".toList = some (some (-5 / 4)) := by decide +kernel

namespace Value

/-- `int(value)`. -/
def intOf : Value → Except Raised Int
  | .bool b => .ok b.toNat
  | .int i => .ok i
  | .float q => raising .overflowError ((finite q).map fun q => q.num.tdiv q.den)
  | .str s => raising .valueError (intOfText s.toList)
  | .timeText _ _ => .error .valueError
  | _ => .error .typeError

/-- `float(value)`; what is not finite is `none`. -/
def floatOf : Value → Except Raised (Option Rat)
  | .bool b => .ok (some b.toNat)
  | .int i => raising .overflowError ((finite i).map some)
  | .float q => .ok (finite q)
  | .str s => raising .valueError (floatOfText s.toList)
  | .timeText _ _ => .error .valueError
  | _ => .error .typeError

/-! ## Keys -/

/-- A key of a dictionary. -/
inductive Key where
  | null
  | number (q : Rat)
  | infinite (positive : Bool)
  | text (s : String)
  | time (t : DateTime)
  | timeText (sep : Char) (t : DateTime)
  deriving DecidableEq, Repr

instance : Coe String Key := ⟨.text⟩

/-- The value as a key; `none` is the `TypeError` of a list or a dictionary. -/
def hashed : Value → Option Key
  | .null => some .null
  | .bool b => some (.number b.toNat)
  | .int i => some (.number i)
  | .float q => some ((finite q).elim (.infinite (decide (0 < q.num))) .number)
  | .str s => some (.text s)
  | .time t => some (.time t)
  | .timeText sep t => some (.timeText sep t)
  | .list _ => none
  | .dict _ => none

end Value

end Documents
