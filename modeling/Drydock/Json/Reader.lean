/-
  Reading JSON documents. A reader takes what it can off the front of a text and hands on the rest;
  control characters are refused inside strings, and a key given twice keeps its last value. How many
  digits an integer may have is a parameter of the grammar: the linter itself reads with a bound
  (`load`), and stops at a longer integer if no fault stands before it.
-/
import Drydock.Number.Binary
import Drydock.Number.Limit
import Drydock.Text.Alphabetic
import Drydock.Text.Digit
import Drydock.Value

namespace Drydock.Json

open Text (baseDigit? digitsToNat isAsciiDigit)

/-- The blanks between the parts of a document. -/
def isBlank (c : Char) : Bool := c = ' ' || c = '\t' || c = '\n' || c = '\r'

/-- The text behind the blanks at its front. -/
def skipBlanks (t : Text) : Text := t.dropWhile isBlank

/-! ## Strings -/

/-- The 16-bit unit that four hexadecimal digits spell. -/
def unit? (a b c d : Char) : Option Nat :=
  ([a, b, c, d].mapM (baseDigit? 16)).map (digitsToNat 16)

/-- Whether a unit is the first half of a character. -/
def isHigh (unit : Nat) : Bool := 0xD800 ≤ unit && unit < 0xDC00

/-- Whether a unit is the second half of a character. -/
def isLow (unit : Nat) : Bool := 0xDC00 ≤ unit && unit < 0xE000

/-- The character of two halves. -/
def paired (high low : Nat) : Char :=
  Char.ofNat (0x10000 + (high - 0xD800) * 0x400 + (low - 0xDC00))

/--
The character of a unit. Texts hold whole characters only, so half a character alone counts as the
replacement character.
-/
def unpaired (unit : Nat) : Char :=
  if isHigh unit || isLow unit then Char.ofNat 0xFFFD else Char.ofNat unit

/-- The character behind a backslash that is no unit. -/
def simpleEscape? (c : Char) : Option Char :=
  if c = '"' || c = '\\' || c = '/' then some c
  else if c = 'n' then some '\n'
  else if c = 't' then some '\t'
  else if c = 'r' then some '\r'
  else if c = 'b' then some (Char.ofNat 8)
  else if c = 'f' then some (Char.ofNat 12)
  else none

/-- What stands inside a string: a character, or one 16-bit unit. -/
inductive Piece where
  | char (c : Char)
  | unit (n : Nat)
deriving DecidableEq, Repr

/-- The text of pieces, where two halves make up one character. -/
def joinPieces : List Piece → Text
  | [] => []
  | .unit high :: .unit low :: rest =>
    if isHigh high && isLow low then paired high low :: joinPieces rest
    else unpaired high :: joinPieces (.unit low :: rest)
  | .unit n :: rest => unpaired n :: joinPieces rest
  | .char c :: rest => c :: joinPieces rest

/-- Reads the pieces of a string whose opening quote has been read, and its closing quote. -/
def readPieces : Text → Option (List Piece × Text)
  | [] => none
  | '"' :: t => some ([], t)
  | '\\' :: 'u' :: a :: b :: c :: d :: t =>
    match unit? a b c d, readPieces t with
    | some n, some (pieces, rest) => some (.unit n :: pieces, rest)
    | _, _ => none
  | '\\' :: c :: t =>
    match simpleEscape? c, readPieces t with
    | some e, some (pieces, rest) => some (.char e :: pieces, rest)
    | _, _ => none
  | c :: t =>
    if c.toNat < 0x20 then none
    else match readPieces t with
      | some (pieces, rest) => some (.char c :: pieces, rest)
      | none => none

/-- Reads a string whose opening quote has been read. -/
def readString (t : Text) : Option (Text × Text) :=
  (readPieces t).map fun (pieces, rest) => (joinPieces pieces, rest)

/-! ## Numbers -/

/-- The digits at the front of a text. -/
def readDigits (t : Text) : List Nat × Text :=
  ((t.takeWhile isAsciiDigit).map fun c => c.toNat - 48, t.dropWhile isAsciiDigit)

/-- Reads the whole part of a number, which has no needless zero in front. -/
def readWhole (t : Text) : Option (List Nat × Text) :=
  match t with
  | '0' :: rest => some ([0], rest)
  | _ =>
    let (digits, rest) := readDigits t
    if digits.isEmpty then none else some (digits, rest)

/-- Reads the digits behind a point, if there are any. -/
def readFraction (t : Text) : Option (List Nat × Text) :=
  match t with
  | '.' :: rest =>
    let (digits, rest) := readDigits rest
    if digits.isEmpty then none else some (digits, rest)
  | _ => none

/-- Reads a power of ten, if there is one. -/
def readExponent (t : Text) : Option (Int × Text) :=
  match t with
  | c :: rest =>
    if c = 'e' || c = 'E' then
      let (negative, rest) := match rest with
        | '-' :: rest => (true, rest)
        | '+' :: rest => (false, rest)
        | _ => (false, rest)
      let (digits, rest) := readDigits rest
      let size : Int := digitsToNat 10 digits
      if digits.isEmpty then none else some (if negative then -size else size, rest)
    else none
  | [] => none

/-- Reads a number without its sign; a fraction or a power of ten makes it a float. -/
def readUnsigned (most : Option Nat) (negative : Bool) (t : Text) :
    Except ReadError (Value × Text) :=
  match readWhole t with
  | none => .error .malformed
  | some (whole, rest) =>
    let fraction := readFraction rest
    let rest := fraction.elim rest Prod.snd
    let exponent := readExponent rest
    let rest := exponent.elim rest Prod.snd
    if fraction.isNone && exponent.isNone then
      (Number.ofDigits most whole).map fun n =>
        (.integer (if negative then -(n : Int) else n), rest)
    else
      let places := fraction.elim [] Prod.fst
      let power := exponent.elim 0 Prod.fst
      .ok (.float (Number.ofDecimal negative (whole ++ places) (power - places.length)), rest)

/-! ## Values -/

/-- Names that stand for values. -/
def names : List (Text × Value) :=
  [("null", .null), ("true", .bool true), ("false", .bool false),
    ("NaN", .float Number.notANumber), ("Infinity", .float (Number.infinity false)),
    ("-Infinity", .float (Number.infinity true))]

/-- Reads a name or a number. -/
def readScalar (most : Option Nat) (t : Text) : Except ReadError (Value × Text) :=
  match names.findSome? fun (name, value) => (Text.dropFront? name t).map (value, ·) with
  | some result => .ok result
  | none =>
    match t with
    | '-' :: rest => readUnsigned most true rest
    | _ => readUnsigned most false t

mutual

/-- Reads a value at the very front of a text. -/
def readValue (most : Option Nat) : (fuel : Nat) → Text → Except ReadError (Value × Text)
  | 0, _ => .error .malformed
  | fuel + 1, t =>
    match t with
    | '"' :: t => (expected (readString t)).map fun (s, rest) => (.text s, rest)
    | '[' :: t =>
      match skipBlanks t with
      | ']' :: rest => .ok (.array [], rest)
      | t => (readItems most fuel t).map fun (items, rest) => (.array items, rest)
    | '\x7b' :: t =>
      match skipBlanks t with
      | '\x7d' :: rest => .ok (.table [], rest)
      | t => (readMembers most fuel [] t).map fun (entries, rest) => (.table entries, rest)
    | t => readScalar most t

/-- Reads the items of an array up to its closing bracket. -/
def readItems (most : Option Nat) : (fuel : Nat) → Text → Except ReadError (List Value × Text)
  | 0, _ => .error .malformed
  | fuel + 1, t =>
    match readValue most fuel t with
    | .error e => .error e
    | .ok (item, t) =>
      match skipBlanks t with
      | ']' :: rest => .ok ([item], rest)
      | ',' :: t =>
        (readItems most fuel (skipBlanks t)).map fun (items, rest) => (item :: items, rest)
      | _ => .error .malformed

/-- Reads the members of an object, behind those of `table`, up to its closing brace. -/
def readMembers (most : Option Nat) :
    (fuel : Nat) → (table : Table) → Text → Except ReadError (Table × Text)
  | 0, _, _ => .error .malformed
  | fuel + 1, table, t =>
    match t with
    | '"' :: t =>
      match readString t with
      | none => .error .malformed
      | some (key, t) =>
        match skipBlanks t with
        | ':' :: t =>
          match readValue most fuel (skipBlanks t) with
          | .error e => .error e
          | .ok (value, t) =>
            match skipBlanks t with
            | '\x7d' :: rest => .ok (table.put key value, rest)
            | ',' :: t => readMembers most fuel (table.put key value) (skipBlanks t)
            | _ => .error .malformed
        | _ => .error .malformed
    | _ => .error .malformed

end

/--
Reads a document, which holds one value and blanks around it, with `most` digits at most in its
integers.
-/
def read (most : Option Nat) (t : Text) : Except ReadError Value :=
  match readValue most (2 * t.length + 1) (skipBlanks t) with
  | .error e => .error e
  | .ok (value, rest) => if (skipBlanks rest).isEmpty then .ok value else .error .malformed

/-- The value in a document by the grammar alone, which bounds no integer. -/
def read? (t : Text) : Option Value := (read none t).toOption

/-- Reads a document as the linter does. -/
def load (t : Text) : Except ReadError Value := read (some Number.mostDigits) t

/-- Reads a document that holds an array of strings. -/
def loadTexts (t : Text) : Except ReadError (List Text) :=
  match load t with
  | .ok (.array items) => expected (items.mapM Value.text?)
  | .ok _ => .error .malformed
  | .error e => .error e

end Drydock.Json
