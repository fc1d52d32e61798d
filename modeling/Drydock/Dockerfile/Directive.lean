/-
  Directives: comments at the very top of a Dockerfile that speak to the parser. One of them chooses
  the character that continues a line.
-/
import Drydock.Dockerfile.ParseError
import Drydock.Text.Alphabetic
import Drydock.Text.Blank

namespace Drydock

/-- The characters that may continue a line. -/
inductive Escape where
  | backslash
  | backquote
deriving DecidableEq, Repr

namespace Escape

/-- The character itself. -/
def char : Escape → Char
  | backslash => '\\'
  | backquote => '\x60'

/-- The escape that a text of one character stands for. -/
def ofText? (t : Text) : Option Escape :=
  if t = [backslash.char] then some backslash
  else if t = [backquote.char] then some backquote
  else none

end Escape

/-- A name and a value written in a comment. -/
structure Directive where
  name : Text
  value : Text
deriving DecidableEq, Repr

namespace Directive

/-- Whether a character may follow the first letter of a name. -/
def isNameChar (c : Char) : Bool :=
  Text.isAsciiLetter c || Text.isAsciiDigit c || c = '_' || c = '-'

/-- Reads a directive from a line without blanks at its ends; the name is in small letters. -/
def read? (line : Text) : Option Directive :=
  match line with
  | '#' :: t =>
    let t := Text.stripLeft t
    let name := t.takeWhile isNameChar
    match Text.stripLeft (t.dropWhile isNameChar) with
    | '=' :: value =>
      if name.head?.any Text.isAsciiLetter then
        some ⟨name.map Char.toLower, Text.strip value⟩
      else none
    | _ => none
  | _ => none

/-- The names that the parser knows. -/
def known : List Text := ["syntax", "escape", "check"]

end Directive

/-- What the directives say: the escape, and how many lines they take. -/
structure Header where
  escape : Escape
  size : Nat
deriving DecidableEq, Repr

/-- Reads the directives at the top of the lines, behind `n` others that chose `escape`. -/
def Header.read (escape : Escape) (n : Nat) : List Text → Except ParseError Header
  | [] => .ok ⟨escape, n⟩
  | line :: rest =>
    match Directive.read? (Text.strip line) with
    | none => .ok ⟨escape, n⟩
    | some directive =>
      if !Directive.known.contains directive.name then .ok ⟨escape, n⟩
      else if directive.name = "escape" then
        match Escape.ofText? directive.value with
        | some chosen => Header.read chosen (n + 1) rest
        | none => .error ⟨n + 1, .invalidEscape directive.value⟩
      else Header.read escape (n + 1) rest

end Drydock
