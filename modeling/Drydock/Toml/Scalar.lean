/-
  The scalars of TOML: strings in four spellings, numbers, and dates and times. A reader takes what
  it can off the front of a text and hands on the rest.
-/
import Drydock.Number.Binary
import Drydock.Number.Limit
import Drydock.Text.Alphabetic
import Drydock.Text.Digit
import Drydock.Value

namespace Drydock.Toml

open Text (baseDigit? digitsToNat isAsciiDigit)

/-! ## Characters -/

/-- The blanks inside a line. -/
def isBlank (c : Char) : Bool := c = ' ' || c = '\t'

/-- The text behind the blanks at its front. -/
def skipBlanks (t : Text) : Text := t.dropWhile isBlank

/-- Control characters other than the tab, which may not stand in comments and strings. -/
def isControl (c : Char) : Bool := (c.toNat < 0x20 && c != '\t') || c.toNat = 0x7F

/-- What may not stand in a string; one of several lines may hold line ends. -/
def isForbidden (multiline : Bool) (c : Char) : Bool := isControl c && !(multiline && c = '\n')

/-! ## Strings -/

/-- The character that a letter behind a backslash stands for. -/
def escape? (c : Char) : Option Char :=
  if c = 'b' then some (Char.ofNat 8)
  else if c = 't' then some '\t'
  else if c = 'n' then some '\n'
  else if c = 'f' then some (Char.ofNat 12)
  else if c = 'r' then some '\r'
  else if c = '"' then some '"'
  else if c = '\\' then some '\\'
  else none

/-- Reads the character that some hexadecimal digits number. -/
def readCodePoint (width : Nat) (t : Text) : Option (Char × Text) := do
  let digits ← (t.take width).mapM (baseDigit? 16)
  let n := digitsToNat 16 digits
  if digits.length = width && n.isValidChar then some (Char.ofNat n, t.drop width) else none

/-- Reads the end of a line behind a backslash, with all blanks and line ends that follow. -/
def readLineEnd (t : Text) : Option Text :=
  match t with
  | '\n' :: rest => some (rest.dropWhile fun c => isBlank c || c = '\n')
  | c :: _ =>
    if isBlank c then
      match skipBlanks t with
      | [] => some []
      | '\n' :: rest => some (rest.dropWhile fun c => isBlank c || c = '\n')
      | _ => none
    else none
  | [] => none

/-- Reads what follows a backslash; the end of a line stands for nothing. -/
def readEscape (multiline : Bool) (t : Text) : Option (Text × Text) :=
  match if multiline then readLineEnd t else none with
  | some rest => some ([], rest)
  | none =>
    match t with
    | 'u' :: rest => (readCodePoint 4 rest).map fun (c, rest) => ([c], rest)
    | 'U' :: rest => (readCodePoint 8 rest).map fun (c, rest) => ([c], rest)
    | c :: rest => (escape? c).map fun e => ([e], rest)
    | [] => none

/-- The text behind the quotes that end a string. -/
def closing? (multiline : Bool) (quote : Char) (t : Text) : Option Text :=
  Text.dropFront? (List.replicate (if multiline then 3 else 1) quote) t

/-- Reads a string with escapes up to the quotes that end it. -/
def readBasic (multiline : Bool) : (fuel : Nat) → Text → Option (Text × Text)
  | 0, _ => none
  | fuel + 1, t =>
    match closing? multiline '"' t with
    | some rest => some ([], rest)
    | none =>
      match t with
      | [] => none
      | '\\' :: t => do
        let (e, t) ← readEscape multiline t
        let (s, rest) ← readBasic multiline fuel t
        some (e ++ s, rest)
      | c :: t =>
        if isForbidden multiline c then none
        else (readBasic multiline fuel t).map fun (s, rest) => (c :: s, rest)

/-- Reads a string without escapes up to the quotes that end it. -/
def readLiteral (multiline : Bool) : Text → Option (Text × Text)
  | [] => none
  | c :: t =>
    match closing? multiline '\'' (c :: t) with
    | some rest => some ([], rest)
    | none =>
      if isForbidden multiline c then none
      else (readLiteral multiline t).map fun (s, rest) => (c :: s, rest)

/-- Adds the one or two quotes that may stand right before the three that end a string. -/
def withExtraQuotes (quote : Char) (s t : Text) : Text × Text :=
  let extra := (t.take 2).takeWhile (· = quote)
  (s ++ extra, t.drop extra.length)

/-- The text behind a line end at its front, if there is one. -/
def skipLineEnd (t : Text) : Text := (Text.dropFront? ['\n'] t).getD t

/-- Reads a string of several lines whose opening quotes have been read. -/
def readMultiline (quote : Char) (t : Text) : Option (Text × Text) :=
  let t := skipLineEnd t
  let body := if quote = '"' then readBasic true (t.length + 1) t else readLiteral true t
  body.map fun (s, rest) => withExtraQuotes quote s rest

/-- Reads a string on one line whose opening quote has been read. -/
def readSingleLine (quote : Char) (t : Text) : Option (Text × Text) :=
  if quote = '"' then readBasic false (t.length + 1) t else readLiteral false t

/-- Reads a string whose first quote has been read. -/
def readString (quote : Char) (t : Text) : Option (Text × Text) :=
  match Text.dropFront? [quote, quote] t with
  | some rest => readMultiline quote rest
  | none => readSingleLine quote t

/-! ## Dates and times -/

/-- Reads digits, as many as are asked for, as a number. -/
def readCount (size : Nat) (t : Text) : Option (Nat × Text) :=
  let front := t.take size
  if front.length = size && front.all isAsciiDigit then
    some (digitsToNat 10 (front.map fun c => c.toNat - 48), t.drop size)
  else none

/-- Reads two digits of a number up to a bound. -/
def readPair (first last : Nat) (t : Text) : Option (Nat × Text) :=
  (readCount 2 t).filter fun (n, _) => first ≤ n && n ≤ last

/-- Reads a time of day, with the fraction of a second if there is one, as the text behind it. -/
def skipTime (t : Text) : Option Text := do
  let (_, t) ← readPair 0 23 t
  let t ← Text.dropFront? [':'] t
  let (_, t) ← readPair 0 59 t
  let t ← Text.dropFront? [':'] t
  let (_, t) ← readPair 0 59 t
  match t with
  | '.' :: rest =>
    some (if rest.head?.any isAsciiDigit then rest.dropWhile isAsciiDigit else t)
  | _ => some t

/-- The text behind an offset from universal time, if there is one. -/
def skipOffset (t : Text) : Text :=
  match t with
  | 'Z' :: rest | 'z' :: rest => rest
  | c :: rest =>
    if c = '+' || c = '-' then
      (do
        let (_, rest) ← readPair 0 23 rest
        let rest ← Text.dropFront? [':'] rest
        let (_, rest) ← readPair 0 59 rest
        some rest).getD t
    else t
  | [] => t

/-- The text behind a time of day that follows a date, if there is one. -/
def skipTimeOfDate (t : Text) : Text :=
  match t with
  | c :: rest =>
    if c = 'T' || c = 't' || c = ' ' then (skipTime rest).elim t skipOffset else t
  | [] => t

/-- How many days a month has. -/
def daysIn (year month : Nat) : Nat :=
  if month = 2 then
    if year % 4 = 0 && (year % 100 != 0 || year % 400 = 0) then 29 else 28
  else if month = 4 || month = 6 || month = 9 || month = 11 then 30
  else 31

/-- What stands at the front of a text that looks like a date or a time. -/
inductive Moment where
  /-- nothing of the kind -/
  | absent
  /-- a date that no calendar has -/
  | impossible
  | read (written rest : Text)

/-- The characters of a text before its rest. -/
def before (t rest : Text) : Text := t.take (t.length - rest.length)

/-- Reads the three numbers of a date. -/
def readDate (t : Text) : Option (Nat × Nat × Nat × Text) := do
  let (year, t) ← readCount 4 t
  let t ← Text.dropFront? ['-'] t
  let (month, t) ← readPair 1 12 t
  let t ← Text.dropFront? ['-'] t
  let (day, t) ← readPair 1 31 t
  some (year, month, day, t)

/-- Reads a date, a time of day, or both. -/
def readMoment (t : Text) : Moment :=
  match readDate t with
  | some (year, month, day, rest) =>
    if 1 ≤ year && day ≤ daysIn year month then
      let rest := skipTimeOfDate rest
      .read (before t rest) rest
    else .impossible
  | none =>
    match skipTime t with
    | some rest => .read (before t rest) rest
    | none => .absent

/-! ## Numbers -/

/-- The digits at the front of a text, between which single low lines may stand. -/
def readDigits (isDigit : Char → Bool) : Text → Text × Text
  | [] => ([], [])
  | '_' :: d :: t =>
    if isDigit d then
      let (digits, rest) := readDigits isDigit t
      (d :: digits, rest)
    else ([], '_' :: d :: t)
  | d :: t =>
    if isDigit d then
      let (digits, rest) := readDigits isDigit t
      (d :: digits, rest)
    else ([], d :: t)

/-- Reads digits of which the first has no low line before it. -/
def readDigits1 (isDigit : Char → Bool) (t : Text) : Option (Text × Text) :=
  if t.head?.any isDigit then some (readDigits isDigit t) else none

/-- The base that a letter behind a zero stands for. -/
def baseOf? (c : Char) : Option Nat :=
  if c = 'x' then some 16 else if c = 'o' then some 8 else if c = 'b' then some 2 else none

/-- Reads an integer in another base than ten. -/
def readBased (t : Text) : Option (Value × Text) :=
  match t with
  | '0' :: c :: t => do
    let base ← baseOf? c
    let (digits, rest) ← readDigits1 (fun d => (baseDigit? base d).isSome) t
    some (.integer (digitsToNat base (digits.filterMap (baseDigit? base))), rest)
  | _ => none

/-- The values of decimal digits. -/
def decimals (digits : Text) : List Nat := digits.filterMap (baseDigit? 10)

/-- A sign at the front of a text: whether it is a minus, and the text behind it. -/
def readSign (t : Text) : Bool × Text :=
  match t with
  | '-' :: rest => (true, rest)
  | '+' :: rest => (false, rest)
  | _ => (false, t)

/-- Reads the whole part of a decimal, which has no needless zero in front. -/
def readWhole (t : Text) : Option (Text × Text) :=
  match t with
  | '0' :: rest => some (['0'], rest)
  | _ => readDigits1 isAsciiDigit t

/--
Reads a decimal; a fraction or a power of ten makes it a float. An integer may not have too many
digits.
-/
def readDecimal (t : Text) : Except ReadError (Value × Text) := do
  let (negative, t) := readSign t
  let (whole, t) ← expected (readWhole t)
  let fraction : Option (Text × Text) := match t with
    | '.' :: rest => readDigits1 isAsciiDigit rest
    | _ => none
  let t := fraction.elim t Prod.snd
  let power : Option (Int × Text) := match t with
    | c :: rest =>
      if c = 'e' || c = 'E' then
        let (down, rest) := readSign rest
        (readDigits1 isAsciiDigit rest).map fun (digits, rest) =>
          let n : Int := digitsToNat 10 (decimals digits)
          (if down then -n else n, rest)
      else none
    | [] => none
  let t := power.elim t Prod.snd
  if fraction.isNone && power.isNone then
    let n ← Number.ofDigits (some Number.mostDigits) (decimals whole)
    pure (.integer (if negative then -(n : Int) else n), t)
  else
    let places := fraction.elim [] fun f => decimals f.1
    let exponent := power.elim 0 Prod.fst
    pure
      (.float (Number.ofDecimal negative (decimals whole ++ places) (exponent - places.length)), t)

/-- Reads a float that has no digits. -/
def readSpecial (t : Text) : Option (Value × Text) :=
  let (negative, rest) := readSign t
  match Text.dropFront? "inf" rest with
  | some rest => some (.float (Number.infinity negative), rest)
  | none => (Text.dropFront? "nan" rest).map fun rest => (.float Number.notANumber, rest)

/-- Reads a truth value. -/
def readBool (t : Text) : Option (Value × Text) :=
  match Text.dropFront? "true" t with
  | some rest => some (.bool true, rest)
  | none => (Text.dropFront? "false" t).map fun rest => (.bool false, rest)

/-- Reads a number; one in another base than ten may have any number of digits. -/
def readNumber (t : Text) : Except ReadError (Value × Text) :=
  match readBased t with
  | some result => .ok result
  | none =>
    match readDecimal t with
    | .error .malformed => expected (readSpecial t)
    | result => result

/-- Reads a scalar that is no string. -/
def readPlain (t : Text) : Except ReadError (Value × Text) :=
  match readBool t with
  | some result => .ok result
  | none =>
    match readMoment t with
    | .impossible => .error .malformed
    | .read written rest => .ok (.moment written, rest)
    | .absent => readNumber t

end Drydock.Toml
