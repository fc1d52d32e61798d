/-
  The fewest decimal digits that read back as the same float. The reals that round to a float form
  an interval; grids of decimals are tried from coarse to fine, and on each the float's two
  neighbours decide whether the interval holds a point of the grid.
-/
import Drydock.Number.Binary

namespace Drydock.Number

/-- Decimal digits, of which the first stands at the power of ten `exponent`. -/
structure Digits where
  digits : List Nat
  exponent : Int
deriving DecidableEq, Repr

/-- The reals that round to a float, as numerators over one denominator. -/
structure Interval where
  low : Nat
  value : Nat
  high : Nat
  den : Nat
  closed : Bool
deriving DecidableEq, Repr

/-- The interval of a positive float; just below a power of two the floats lie twice as close. -/
def Interval.ofFloat (mantissa : Nat) (exponent : Int) : Interval :=
  let below := if mantissa = twoTo 52 && minExponent < exponent then 1 else 2
  let (unit, den) := match exponent with
    | .ofNat e => (twoTo e, 4)
    | .negSucc e => (1, 4 * twoTo (e + 1))
  ⟨(4 * mantissa - below) * unit, 4 * mantissa * unit, (4 * mantissa + 2) * unit, den,
    mantissa % 2 = 0⟩

/-- A quotient's numerator and denominator when it is counted in units of a power of ten. -/
def inUnits (num den : Nat) (unit : Int) : Nat × Nat :=
  match unit with
  | .ofNat e => (num, den * tenTo e)
  | .negSucc e => (num * tenTo (e + 1), den)

/-- Whether so many units of a power of ten lie in the interval. -/
def Interval.holds (i : Interval) (count : Nat) (unit : Int) : Bool :=
  let (low, den) := inUnits i.low i.den unit
  let (high, _) := inUnits i.high i.den unit
  let point := count * den
  if i.closed then low ≤ point && point ≤ high else low < point && point < high

/-- The decimal digits of a natural number, most significant first. -/
def decimalDigits (n : Nat) : List Nat := (Nat.toDigits 10 n).map fun c => c.toNat - 48

/-- The place of the first digit of a positive quotient. -/
def leadingPlace (num den : Nat) : Int :=
  if den ≤ num then (decimalDigits (num / den)).length - 1
  else
    match (List.range 400).find? fun j => den ≤ num * tenTo (j + 1) with
    | some j => -(j + 1 : Int)
    | none => 0

/-- Units of a power of ten as digits, without zeros at the end. -/
def Digits.ofUnits (count : Nat) (unit : Int) : Digits :=
  let digits := decimalDigits count
  ⟨(digits.reverse.dropWhile (· = 0)).reverse, unit + digits.length - 1⟩

/-- The point of the grid with `size` digits that lies in the interval and nearest to its float. -/
def Interval.onGrid? (i : Interval) (place : Int) (size : Nat) : Option Digits :=
  let unit := place + 1 - size
  let (num, den) := inUnits i.value i.den unit
  let count := num / den
  let nearest := roundDiv num den
  let other := if nearest = count then count + 1 else count
  if i.holds nearest unit then some (.ofUnits nearest unit)
  else if i.holds other unit then some (.ofUnits other unit)
  else none

/-- The shortest digits that read back as a positive float. -/
def shortest (mantissa : Nat) (exponent : Int) : Digits :=
  let i := Interval.ofFloat mantissa exponent
  let place := leadingPlace i.value i.den
  ((List.range 17).findSome? fun n => i.onGrid? place (n + 1)).getD ⟨[0], 0⟩

end Drydock.Number
