/-
  Colours in the text for terminals: control sequences before and behind a text, and their removal
  where no terminal reads it.
-/
import Drydock.Text.Alphabetic

namespace Drydock

/-- The colours that are used. -/
inductive Colour where
  | red
  | green
  | yellow
  | cyan
deriving DecidableEq, Repr

namespace Colour

/-- The number of a colour in a control sequence. -/
def code : Colour → Nat
  | red => 31
  | green => 32
  | yellow => 33
  | cyan => 36

/-- The character that begins a control sequence. -/
def escape : Char := Char.ofNat 0x1B

/-- The control sequence with a number. -/
def control (code : Nat) : Text := escape :: '[' :: (Text.ofNat code ++ ['m'])

/-- A text in bold letters of a colour. -/
def bold (c : Colour) (t : Text) : Text := control c.code ++ control 1 ++ t ++ control 0

end Colour

/-- Whether a character may stand between the bracket and the letter of a control sequence. -/
def Text.isControlParameter (c : Char) : Bool :=
  Text.isAsciiDigit c || c = ';' || c = '?'

/-- The text behind a control sequence whose escape character has been read. -/
def Text.behindControl? : Text → Option Text
  | '[' :: t =>
    match t.dropWhile isControlParameter with
    | c :: rest => if isAsciiLetter c then some rest else none
    | [] => none
  | _ => none

/-- How many characters a control sequence has at the front of a text; zero if there is none. -/
def Text.controlSize (t : Text) : Nat :=
  match t with
  | c :: rest =>
    if c = Colour.escape then (behindControl? rest).elim 0 fun behind => t.length - behind.length
    else 0
  | [] => 0

/-- A text without control sequences, the first `skip` characters of which belong to one. -/
def Text.plainFrom (skip : Nat) : Text → Text
  | [] => []
  | c :: t =>
    match skip with
    | skip + 1 => plainFrom skip t
    | 0 =>
      match controlSize (c :: t) with
      | size + 1 => plainFrom size t
      | 0 => c :: plainFrom 0 t

/-- A text without control sequences. -/
def Text.plain (t : Text) : Text := plainFrom 0 t

end Drydock
