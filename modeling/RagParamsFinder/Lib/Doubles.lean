/-
  The numbers that Python reads out of JSON: unbounded integers and doubles.

  A double is the number that it stands for; zero has no sign here. A literal is read as the
  nearest double, and a sum is the double nearest to the exact sum, ties to even.

  * `Double.pack`, `Double.unpack`: a double in four bytes, rounded once more.
  * `Number.add`: `+`, which raises where an integer is too large for a double.
  * `Json.key`: a value as the key of a dictionary. `1`, `1.0` and `true` are one key, and so are
    two `NaN`, for which the decoder has one object.
-/
import Mathlib.Algebra.Order.Field.Rat
import RagParamsFinder.Lib.Conversions
import RagParamsFinder.Lib.Json

open Documents

inductive Double where
  | finite (q : Rat)
  | infinite (positive : Bool)
  | nan
  deriving DecidableEq, Repr

namespace Double

/-- The exponent of the leading bit. -/
def leadingBit (q : Rat) : Int :=
  let n : Int := (q.num.natAbs.log2 : Int) - q.den.log2
  if |q| < (2 : Rat) ^ n then n - 1 else n

/-- 53 bits, or fewer of a number that is very small. -/
def nearest (q : Rat) : Rat :=
  let unit : Rat := 2 ^ max (leadingBit q - 52) (-1074)
  roundHalfEven (q / unit) * unit

example : nearest (1 / 10) = 3602879701896397 / 36028797018963968 := by decide +kernel

/-- The double nearest to a number. -/
def ofRat (q : Rat) : Double :=
  match Documents.finite q with
  | some q => .finite (nearest q)
  | none => .infinite (0 < q)

/-- A literal of JSON, or one of the three names. -/
def ofLiteral (literal : List Char) : Double :=
  match floatOfText literal with
  | some (some q) => ofRat q
  | _ => if literal = "NaN".toList then .nan else .infinite (literal.head? ≠ some '-')

def add : Double → Double → Double
  | .finite a, .finite b => ofRat (a + b)
  | .infinite p, .infinite q => if p = q then .infinite p else .nan
  | .nan, _ => .nan
  | _, .nan => .nan
  | .infinite p, .finite _ => .infinite p
  | .finite _, .infinite p => .infinite p

/-! ## In four bytes -/

/-- The bits of the single that is nearest to a number, without its sign: the exponent of the unit
    in the last place and the number in units, whose leading bit adds one to the exponent. -/
def singleBits (q : Rat) : Nat :=
  let exponent := max (leadingBit q - 23) (-149)
  (exponent + 149).toNat * 2 ^ 23 + (roundHalfEven (q / 2 ^ exponent)).natAbs

/-- The least first, as `struct` has it on the usual machines. -/
def bytesOf (bits : Nat) : List UInt8 :=
  [UInt8.ofNat bits, UInt8.ofNat (bits / 2 ^ 8), UInt8.ofNat (bits / 2 ^ 16),
    UInt8.ofNat (bits / 2 ^ 24)]

/-- The bits of the nearest single, with its sign; `none` is `OverflowError`. -/
def single : Double → Option Nat
  | .finite q =>
      let bits := singleBits q
      if bits < 255 * 2 ^ 23 then some ((if q < 0 then 2 ^ 31 else 0) + bits) else none
  | .infinite positive => some ((if positive then 0 else 2 ^ 31) + 255 * 2 ^ 23)
  | .nan => some (255 * 2 ^ 23 + 2 ^ 22)

/-- `struct.pack("f", x)`. -/
def pack (x : Double) : Option (List UInt8) := x.single.map bytesOf

/-- `struct.unpack("f", bytes)`. -/
def unpack (bytes : List UInt8) : Double :=
  let bits := bytes.foldr (fun b n => b.toNat + 2 ^ 8 * n) 0
  let sign : Rat := if bits / 2 ^ 31 = 0 then 1 else -1
  let field : Nat := bits / 2 ^ 23 % 2 ^ 8
  let fraction : Nat := bits % 2 ^ 23
  if field = 255 then if fraction = 0 then .infinite (bits / 2 ^ 31 = 0) else .nan
  else if field = 0 then .finite (sign * fraction * 2 ^ (-149 : Int))
  else .finite (sign * (2 ^ 23 + fraction : Nat) * 2 ^ ((field : Int) - 150))

example : (pack (.finite (1 / 10))).map unpack = some (.finite (13421773 / 134217728)) := by
  decide +kernel

theorem length_pack {x : Double} {bytes : List UInt8} (h : pack x = some bytes) :
    bytes.length = 4 := by
  obtain ⟨bits, -, rfl⟩ := Option.map_eq_some_iff.mp h
  rfl

end Double

inductive Number where
  | int (n : Int)
  | double (x : Double)
  deriving DecidableEq, Repr

namespace Number

/-- `float(x)`; `none` is `OverflowError`. -/
def toDouble : Number → Option Double
  | .int n => (Documents.finite n).map fun q => .finite (Double.nearest q)
  | .double x => some x

/-- `x + y`. -/
def add : Number → Number → Option Number
  | .int m, .int n => some (.int (m + n))
  | x, y => do return .double ((← x.toDouble).add (← y.toDouble))

end Number

namespace Json

/-- What arithmetic takes a value for; `none` is `TypeError`. -/
def number : Json → Option Number
  | .bool b => some (.int b.toNat)
  | .int n => some (.int n)
  | .real literal => some (.double (.ofLiteral literal))
  | _ => none

inductive Key where
  | null
  | number (q : Rat)
  | infinite (positive : Bool)
  | nan
  | text (s : List Char)
  deriving DecidableEq, Repr

/-- The value as a key; `none` is the `TypeError` of a list or an object. -/
def key : Json → Option Key
  | .null => some .null
  | .bool b => some (.number b.toNat)
  | .int n => some (.number n)
  | .real literal =>
      match Double.ofLiteral literal with
      | .finite q => some (.number q)
      | .infinite positive => some (.infinite positive)
      | .nan => some .nan
  | .str s => some (.text s)
  | .arr _ => none
  | .obj _ => none

end Json
