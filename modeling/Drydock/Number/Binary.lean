/-
  Binary floating point in exact arithmetic: a finite float is a mantissa times a power of two, and
  the float nearest to a quotient of natural numbers is found by one division.
-/
namespace Drydock.Number

/-- Two to a power. -/
def twoTo (exponent : Nat) : Nat := Nat.pow 2 exponent

/-- Ten to a power. -/
def tenTo (exponent : Nat) : Nat := Nat.pow 10 exponent

/-- What a float stands for. -/
inductive Parts where
  | finite (negative : Bool) (mantissa : Nat) (exponent : Int)
  | infinite (negative : Bool)
  | nan
deriving DecidableEq, Repr

/-- The exponent of the smallest positive float. -/
def minExponent : Int := -1074

/-- Mantissas lie below this bound, and at half of it or above but for the smallest floats. -/
def mantissaBound : Nat := twoTo 53

/-- Takes the bits of a float apart: sign, eleven bits of exponent, fifty-two of mantissa. -/
def Parts.ofBits (bits : Nat) : Parts :=
  let negative := twoTo 63 ≤ bits
  let magnitude := bits % twoTo 63
  let exponent : Nat := magnitude / twoTo 52
  let fraction := magnitude % twoTo 52
  if exponent = 2047 then if fraction = 0 then .infinite negative else .nan
  else if exponent = 0 then .finite negative fraction minExponent
  else .finite negative (twoTo 52 + fraction) (minExponent + exponent - 1)

/-- What a float stands for. -/
def parts (x : Float) : Parts := Parts.ofBits x.toBits.toNat

/-! ## Rounding -/

/-- The natural number nearest to a quotient, of two the even one. -/
def roundDiv (num den : Nat) : Nat :=
  let quotient := num / den
  let remainder := num % den
  if 2 * remainder < den || (2 * remainder = den && quotient % 2 = 0) then quotient
  else quotient + 1

/-- A quotient divided by a power of two, as a pair of numerator and denominator. -/
def scaled (num den : Nat) (exponent : Int) : Nat × Nat :=
  match exponent with
  | .ofNat e => (num, den * twoTo e)
  | .negSucc e => (num * twoTo (e + 1), den)

/-- The exponent of the float nearest to a positive quotient. -/
def exponentFor (num den : Nat) : Int :=
  let low : Int := max ((num.log2 : Int) - den.log2 - 53) minExponent
  let (n, d) := scaled num den low
  if mantissaBound ≤ n / d then low + 1 else low

/--
The bits of the float nearest to a quotient, of two the one with even mantissa; nothing when the
quotient rounds to a value above the largest float.
-/
def nearestBits? (num den : Nat) : Option Nat :=
  if num = 0 then some 0
  else
    let exponent := exponentFor num den
    let (n, d) := scaled num den exponent
    let bits := (exponent - minExponent).toNat * twoTo 52 + roundDiv n d
    if bits < 2047 * twoTo 52 then some bits else none

/-- The float with a sign and the bits of a magnitude. -/
def ofSignedBits (negative : Bool) (bits : Nat) : Float :=
  Float.ofBits (UInt64.ofNat (if negative then twoTo 63 + bits else bits))

/-- Positive infinity, or negative infinity. -/
def infinity (negative : Bool) : Float := ofSignedBits negative (2047 * twoTo 52)

/-- The value that is no number. -/
def notANumber : Float := ofSignedBits false (2047 * twoTo 52 + twoTo 51)

/-- The float nearest to a quotient, infinite above the largest. -/
def ofRatio (negative : Bool) (num den : Nat) : Float :=
  match nearestBits? num den with
  | some bits => ofSignedBits negative bits
  | none => infinity negative

/-- The float nearest to an integer, unless it lies beyond the largest. -/
def ofInt? (n : Int) : Option Float :=
  (nearestBits? n.natAbs 1).map (ofSignedBits (n < 0))

/-- Beyond this many places before or behind the point a decimal is infinite or zero. -/
def decimalReach : Int := 400

/-- The float nearest to a decimal, whose digits are followed by a power of ten. -/
def ofDecimal (negative : Bool) (digits : List Nat) (exponent : Int) : Float :=
  let digits := digits.dropWhile (· = 0)
  let value := digits.foldl (fun value digit => 10 * value + digit) 0
  let magnitude := exponent + digits.length
  if value = 0 || magnitude < -decimalReach then ofSignedBits negative 0
  else if decimalReach < magnitude then infinity negative
  else match exponent with
    | .ofNat e => ofRatio negative (value * tenTo e) 1
    | .negSucc e => ofRatio negative value (tenTo (e + 1))

end Drydock.Number
