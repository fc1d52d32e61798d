/-
  The text of a float, and of a ratio in percent.
-/
import Drydock.Number.Shortest
import Drydock.Text.Basic

namespace Drydock.Number

/-- How the digits of a float are laid out. -/
structure Layout where
  /-- The least exponent that is written with a point among the digits. -/
  positionalFrom : Int
  /-- The least exponent that is too large for that. -/
  positionalBelow : Int
  /-- The least number of digits in an exponent. -/
  exponentWidth : Nat
deriving DecidableEq, Repr

/-- A point stands among the digits from ten thousandths to below ten to the sixteenth. -/
def layout : Layout := ⟨-4, 16, 2⟩

/-- Digits as characters. -/
def digitsText (digits : List Nat) : Text := digits.map fun d => Char.ofNat (48 + d)

/-- Digits with a point among them, at least one of them on either side. -/
def positional (d : Digits) : Text :=
  if d.exponent < 0 then
    "0." ++ List.replicate (-d.exponent - 1).toNat '0' ++ digitsText d.digits
  else
    let whole := d.exponent.toNat + 1
    let front := d.digits.take whole
    let back := d.digits.drop whole
    digitsText front ++ List.replicate (whole - front.length) '0' ++ '.' ::
      (if back.isEmpty then ['0'] else digitsText back)

/-- Digits with an exponent, and a point behind the first if others follow. -/
def scientific (d : Digits) : Text :=
  let front := digitsText (d.digits.take 1)
  let back := digitsText (d.digits.drop 1)
  let power := Text.ofNat d.exponent.natAbs
  front ++ (if back.isEmpty then [] else '.' :: back) ++
    ['e', if d.exponent < 0 then '-' else '+'] ++
    List.replicate (layout.exponentWidth - power.length) '0' ++ power

/-- Digits in the form that their exponent asks for. -/
def Digits.text (d : Digits) : Text :=
  if layout.positionalFrom ≤ d.exponent && d.exponent < layout.positionalBelow then positional d
  else scientific d

/-- A sign before a text. -/
def withSign (negative : Bool) (t : Text) : Text := if negative then '-' :: t else t

/-- The text of what a float stands for. -/
def Parts.text : Parts → Text
  | .nan => "nan"
  | .infinite negative => withSign negative "inf"
  | .finite negative mantissa exponent =>
    withSign negative (if mantissa = 0 then "0.0" else (shortest mantissa exponent).text)

/-- A float with the fewest digits that read back. -/
def floatText (x : Float) : Text := (parts x).text

/-- A float rounded to a whole number, a half to the even neighbour. -/
def Parts.wholeText : Parts → Text
  | .nan => "nan"
  | .infinite negative => withSign negative "inf"
  | .finite negative mantissa exponent =>
    let (num, den) := scaled mantissa 1 (-exponent)
    withSign negative (Text.ofNat (roundDiv num den))

/-- A ratio in whole percent. -/
def percentText (ratio : Float) : Text := (parts (ratio * 100)).wholeText ++ ['%']

end Drydock.Number
