/-
  Bodies of lines that belong to a step. A marker in the arguments names the line that ends its
  body; a marker between quotes is text like any other.
-/
import Drydock.Text.Alphabetic
import Drydock.Text.Blank

namespace Drydock

/-! ## Quoting -/

/-- Whether a reader of arguments stands inside quotes, and whether behind a backslash. -/
inductive Quoting where
  | plain
  | quoted (quote : Char)
  | escaping (inside : Option Char)
deriving DecidableEq, Repr

namespace Quoting

/-- Reads one character. -/
def next : Quoting → Char → Quoting
  | plain, c =>
    if c = '\\' then escaping none
    else if c = '"' || c = '\'' then quoted c
    else plain
  | quoted quote, c =>
    if c = quote then plain
    else if c = '\\' && quote != '\'' then escaping (some quote)
    else quoted quote
  | escaping none, _ => plain
  | escaping (some quote), _ => quoted quote

/-- Whether a quote is open. -/
def isOpen : Quoting → Bool
  | plain | escaping none => false
  | quoted _ | escaping (some _) => true

/-- Where a reader stands behind a text. -/
def after (t : Text) : Quoting := t.foldl next plain

end Quoting

/-! ## Markers -/

/-- The announcement of a body: the line that ends it, and whether tabs before that count. -/
structure HeredocMarker where
  name : Text
  stripsTabs : Bool
deriving DecidableEq, Repr

/-- Whether a character may begin a name. -/
def Text.isNameStart (c : Char) : Bool := Text.isAsciiLetter c || c = '_'

/-- Whether a character may stand in a name. -/
def Text.isNameChar (c : Char) : Bool := Text.isNameStart c || Text.isAsciiDigit c

/-- A name at the front of a text, and the text behind it. -/
def Text.takeName? (t : Text) : Option (Text × Text) :=
  if t.head?.any Text.isNameStart then
    some (t.takeWhile Text.isNameChar, t.dropWhile Text.isNameChar)
  else none

namespace HeredocMarker

/-- Reads a name with quotes around it, or without. -/
def readName? : Text → Option Text
  | [] => none
  | c :: t =>
    if c = '"' || c = '\'' then
      match Text.takeName? t with
      | some (name, d :: _) => if d = c then some name else none
      | _ => none
    else (Text.takeName? (c :: t)).map Prod.fst

/-- Reads a marker at the very front of a text. -/
def read? : Text → Option HeredocMarker
  | '<' :: '<' :: '-' :: t => (readName? t).map (⟨·, true⟩)
  | '<' :: '<' :: t => (readName? t).map (⟨·, false⟩)
  | _ => none

/-- The markers of a text that stands behind a character: those at the start of unquoted words. -/
def findFrom (quoting : Quoting) (before : Option Char) : Text → List HeredocMarker
  | [] => []
  | c :: t =>
    let here := if before.all Text.isBlank && !quoting.isOpen then read? (c :: t) else none
    here.toList ++ findFrom (quoting.next c) (some c) t

/-- The markers of a text in order. -/
def find (t : Text) : List HeredocMarker := findFrom .plain none t

/-! ## Bodies -/

/-- Whether a line ends the body of a marker. -/
def endsAt (m : HeredocMarker) (line : Text) : Bool :=
  Text.stripRight (if m.stripsTabs then line.dropWhile (· = '\t') else line) = m.name

/-- The lines before the one that ends the body of a marker. -/
def body? (m : HeredocMarker) : List Text → Option (List Text)
  | [] => none
  | line :: rest => if m.endsAt line then some [] else (m.body? rest).map (line :: ·)

/-- The bodies of several markers in turn; otherwise the first marker whose body does not end. -/
def bodies : List HeredocMarker → List Text → Except HeredocMarker (List (List Text))
  | [], _ => .ok []
  | m :: rest, lines =>
    match m.body? lines with
    | none => .error m
    | some body => (bodies rest (lines.drop (body.length + 1))).map (body :: ·)

/-- How many lines bodies take, with the lines that end them. -/
def size (bodies : List (List Text)) : Nat := bodies.flatten.length + bodies.length

/-- The argument text followed by the bodies. -/
def attach (arguments : Text) (bodies : List (List Text)) : Text :=
  Text.joinWith ['\n'] (arguments :: bodies.map (Text.joinWith ['\n']))

end HeredocMarker

end Drydock
