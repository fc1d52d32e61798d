/-
  Numbers that a person types: blanks may stand around them, digits of any script count, and single
  low lines may stand between digits.
-/
import Drydock.Number.Binary
import Drydock.Number.Limit
import Drydock.Text.Blank

namespace Drydock.Number

/-- A sign at the front of a text: whether it is a minus, and the text behind it. -/
def readSign (t : Text) : Bool × Text :=
  match t with
  | '-' :: rest => (true, rest)
  | '+' :: rest => (false, rest)
  | _ => (false, t)

/-- The digits at the front of a text, before each of which a low line may stand. -/
def moreDigits : Text → List Nat × Text
  | [] => ([], [])
  | '_' :: c :: t =>
    match Text.digitValue? c with
    | some d =>
      let (digits, rest) := moreDigits t
      (d :: digits, rest)
    | none => ([], '_' :: c :: t)
  | c :: t =>
    match Text.digitValue? c with
    | some d =>
      let (digits, rest) := moreDigits t
      (d :: digits, rest)
    | none => ([], c :: t)

/-- The digits at the front of a text, with low lines between them, and the text behind them. -/
def readDigits (t : Text) : List Nat × Text :=
  if t.head?.any fun c => (Text.digitValue? c).isSome then moreDigits t else ([], t)

/-- Reads an integer, which may not have too many digits. -/
def readInt? (t : Text) : Option Int :=
  let (negative, t) := readSign (Text.strip t)
  match readDigits t with
  | ([], _) => none
  | (digits, []) =>
    (ofDigits (some mostDigits) digits).toOption.map fun n => if negative then -(n : Int) else n
  | _ => none

/-- The digits behind a point, if there is one. -/
def readFraction (t : Text) : List Nat × Text :=
  match t with
  | '.' :: rest => readDigits rest
  | _ => ([], t)

/-- A power of ten, zero if there is none. -/
def readPower (t : Text) : Option (Int × Text) :=
  match t with
  | c :: rest =>
    if c = 'e' || c = 'E' then
      let (negative, rest) := readSign rest
      match readDigits rest with
      | ([], _) => none
      | (digits, rest) =>
        let n : Int := Text.digitsToNat 10 digits
        some (if negative then -n else n, rest)
    else some (0, t)
  | [] => some (0, [])

/-- Reads a float that is written with digits. -/
def readDecimal? (negative : Bool) (t : Text) : Option Float :=
  let (whole, t) := readDigits t
  let (places, t) := readFraction t
  match readPower t with
  | some (power, []) =>
    if whole.isEmpty && places.isEmpty then none
    else some (ofDecimal negative (whole ++ places) (power - places.length))
  | _ => none

/-- Reads a float, which may be infinite or no number. -/
def readFloat? (t : Text) : Option Float :=
  let (negative, t) := readSign (Text.strip t)
  let word := t.map Char.toLower
  if word = "inf" || word = "infinity" then some (infinity negative)
  else if word = "nan" then some notANumber
  else readDecimal? negative t

end Drydock.Number
