import Mathlib.Algebra.Order.Archimedean.Basic
import Mathlib.Algebra.Order.Field.Power
import Mathlib.Data.Int.Log
import Mathlib.Data.Rat.Floor
import Mathlib.Tactic.Linarith
import Mathlib.Tactic.Positivity
import PriceScout.Library.JsonDocuments
import PriceScout.Library.JsStrings

/-!
JavaScript's numbers: binary floating point with a significand of 53 bits,
rounded to the nearest and to the even one of two. A finite number is the
rational that it is.
-/

namespace PriceScout.Library.Numbers

open PriceScout.Library.JsonDocuments
open PriceScout.Library.JsStrings

/-- The nearest integer, the even one of two. -/
def roundHalfEven (q : ℚ) : ℤ :=
  if q - ⌊q⌋ < 1 / 2 then ⌊q⌋
  else if 1 / 2 < q - ⌊q⌋ then ⌊q⌋ + 1
  else if ⌊q⌋ % 2 = 0 then ⌊q⌋ else ⌊q⌋ + 1

/-- The exponent of the last bit that is kept of a number. -/
def unitExponent (q : ℚ) : ℤ :=
  max (Int.log 2 q - 52) (-1074)

/-- The nearest number to a rational that is not negative, without regard to
the largest one. -/
def nearest (q : ℚ) : ℚ :=
  roundHalfEven (q / 2 ^ unitExponent q) * 2 ^ unitExponent q

/-- The numbers that are not negative. -/
inductive Number where
  | nan
  | infinity
  | finite (value : ℚ)
deriving DecidableEq

namespace Number

/-- Round a rational that is not negative. -/
def ofRat (q : ℚ) : Number :=
  if nearest q < 2 ^ 1024 then finite (nearest q) else infinity

/-- `x * y` for a positive integer `y`. -/
def scale (x : Number) (y : Nat) : Number :=
  match x with
  | nan => nan
  | infinity => infinity
  | finite value => ofRat (value * y)

/-- `Math.round(x)`. -/
def round : Number → Number
  | nan => nan
  | infinity => infinity
  | finite value => finite ⌊value + 1 / 2⌋

end Number

def digitValue (c : Char) : Nat :=
  c.toNat - '0'.toNat

def digitsValue (digits : List Char) : Nat :=
  digits.foldl (fun n c => 10 * n + digitValue c) 0

/-- The value of decimal digits with or without a point, when they are such. -/
def decimalValue (chars : List Char) : Option ℚ :=
  let integer := chars.takeWhile isAsciiDigit
  match chars.dropWhile isAsciiDigit with
  | [] => if integer = [] then none else some (digitsValue integer)
  | point :: fraction =>
      if point = '.' ∧ fraction.all isAsciiDigit ∧ integer ++ fraction ≠ [] then
        some (digitsValue (integer ++ fraction) / 10 ^ fraction.length)
      else none

/-- `Number(text)` of a text without signs, exponents and white space. -/
def numberOfText (text : String) : Number :=
  match decimalValue text.toList with
  | some value => .ofRat value
  | none => .nan

/-- The value of a number literal of a JSON document. -/
def literalValue (unscaled : Int) (scale : Nat) (exponent : Option Int) : ℚ :=
  unscaled * 10 ^ (exponent.getD 0 - scale : ℤ)

/-- The decimals `digits * 10 ^ exponent`. -/
structure Decimal where
  digits : Nat
  exponent : Int
deriving DecidableEq

def Decimal.value (d : Decimal) : ℚ :=
  d.digits * 10 ^ d.exponent

/-- The nearer one of the two decimals around a number whose last digit has the
given exponent, if it reads back as the number. -/
def spell (v : ℚ) (exponent : Int) : Option Decimal :=
  let digits := ⌊v / 10 ^ exponent⌋.toNat
  let below : Decimal := { digits, exponent }
  let above : Decimal := { digits := digits + 1, exponent }
  match decide (nearest below.value = v), decide (nearest above.value = v) with
  | true, true => some (if above.value - v < v - below.value then above else below)
  | true, false => some below
  | false, true => some above
  | false, false => none

/-- The digits before the decimal point, negative for zeros after it. -/
def pointPosition (v : ℚ) : Int :=
  Int.log 10 v + 1

/-- Give the last digits that are zero over to the exponent. -/
def Decimal.stripZeros : Nat → Decimal → Decimal
  | 0, d => d
  | n + 1, d =>
      if d.digits % 10 = 0 then Decimal.stripZeros n ⟨d.digits / 10, d.exponent + 1⟩ else d

/-- The shortest decimal that reads back as a positive number. Seventeen digits
are always enough; twenty-two always spell the integers below `10 ^ 21` out. -/
def shortest (v : ℚ) : Decimal :=
  ((List.range 22).findSome? fun k => spell v (pointPosition v - (k + 1))).getD
    { digits := ⌊v⌋.toNat, exponent := 0 }

/-- A decimal in the notation that JavaScript prints it in. -/
def Decimal.literal (d : Decimal) : Json :=
  let count := (Nat.toDigits 10 d.digits).length
  let position : Int := count + d.exponent
  if 0 ≤ d.exponent ∧ position ≤ 21 then .num (d.digits * 10 ^ d.exponent.toNat) 0 none
  else if d.exponent < 0 ∧ -6 < position ∧ position ≤ 21 then
    .num d.digits (-d.exponent).toNat none
  else .num d.digits (count - 1) (some (position - 1))

/-- What `JSON.stringify` makes of a number. -/
def Number.json : Number → Json
  | .nan => .null
  | .infinity => .null
  | .finite value => if value = 0 then .int 0 else ((shortest value).stripZeros 22).literal

example : (Number.ofRat (49999 / 100)).json.stringify = "499.99".toList := by decide +kernel

example : ((numberOfText "100000000000000003").scale 100).json.stringify =
    "10000000000000000000".toList := by decide +kernel

example : (Number.ofRat (10 ^ 23)).json.stringify = "1e+23".toList := by decide +kernel

end PriceScout.Library.Numbers
