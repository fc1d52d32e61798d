/-
  How long a number may be. A row of decimal digits is converted into an integer only up to a number
  of digits, and a reader that meets a longer row gives up with an error of its own. Nor is an
  integer written that has more digits than that.
-/
import Drydock.Text.Digit

namespace Drydock

/-- Why a document is not read: it has not the form that is asked for, or a reader has met a row of
decimal digits that is too long to be converted. -/
inductive ReadError where
  | malformed
  | tooManyDigits (count : Nat)
deriving DecidableEq, Repr

/-- What has been read, if it had the form that is asked for. -/
def expected {α : Type} : Option α → Except ReadError α
  | some a => .ok a
  | none => .error .malformed

namespace Number

/-- The most decimal digits that are converted into an integer. -/
def mostDigits : Nat := 4300

/-- What is said about a row of digits that is too long. -/
def tooManyDigitsMessage (count : Nat) : Text :=
  Text.concat
    ["Exceeds the limit (", Text.ofNat mostDigits, " digits) for integer string conversion: ",
      "value has ", Text.ofNat count,
      " digits; use sys.set_int_max_str_digits() to increase the limit"]

/-- Whether an integer has few enough digits to be written. -/
def isWritable (n : Int) : Bool := n.natAbs < Nat.pow 10 mostDigits

/-- What is said about an integer that is too long to be written. -/
def unwritableMessage : Text :=
  Text.concat
    ["Exceeds the limit (", Text.ofNat mostDigits, " digits) for integer string conversion",
      "; use sys.set_int_max_str_digits() to increase the limit"]

/-- The number that a row of decimal digits denotes, if there are no more than `most` of them. -/
def ofDigits (most : Option Nat) (digits : List Nat) : Except ReadError Nat :=
  if most.any fun most => most < digits.length then .error (.tooManyDigits digits.length)
  else .ok (Text.digitsToNat 10 digits)

theorem ofDigits_of_le {most : Option Nat} {digits : List Nat}
    (h : ∀ bound ∈ most, digits.length ≤ bound) :
    ofDigits most digits = .ok (Text.digitsToNat 10 digits) := by
  cases most with
  | none => rfl
  | some bound => simp [ofDigits, Nat.not_lt.mpr (h bound rfl)]

theorem ofDigits_of_lt {most : Option Nat} {digits : List Nat} {bound : Nat} (h : bound ∈ most)
    (hlong : bound < digits.length) : ofDigits most digits = .error (.tooManyDigits digits.length) := by
  obtain rfl := Option.mem_def.mp h
  simp [ofDigits, hlong]

end Number

end Drydock
