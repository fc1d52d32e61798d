/-
  Patterns of text, and whether one occurs in a text. A pattern is matched at a place, which knows
  the character before it, and yields every place at which a match may end.
-/
import Drydock.Text.Alphabetic
import Drydock.Text.Blank
import Drydock.Text.Case

namespace Drydock

/-- A place in a text: the character before it, and the text from there on. -/
structure Place where
  before : Option Char
  rest : Text
deriving DecidableEq, Repr

namespace Place

/-- Whether a word begins or ends here. -/
def atWordEdge (p : Place) : Bool :=
  p.before.any Text.isWordChar != p.rest.head?.any Text.isWordChar

/-- The place behind the next character, when that is accepted. -/
def step (accepts : Char → Bool) (p : Place) : List Place :=
  match p.rest with
  | [] => []
  | c :: rest => if accepts c then [⟨some c, rest⟩] else []

end Place

/-- What may stand in a text. -/
inductive Pattern where
  /-- nothing at all -/
  | empty
  /-- one character of a class -/
  | one (accepts : Char → Bool)
  /-- one after the other -/
  | seq (first second : Pattern)
  /-- one or the other -/
  | alt (first second : Pattern)
  /-- any number of times -/
  | many (p : Pattern)
  /-- the beginning or the end of a word -/
  | edge
  /-- the beginning of the text -/
  | start

namespace Pattern

/-! ## Matching -/

/-- The places that are reached by repeating a step, each time with some progress. -/
def repeated (step : Place → List Place) : (fuel : Nat) → Place → List Place
  | 0, p => [p]
  | fuel + 1, p =>
    p :: ((step p).filter fun q => q.rest.length < p.rest.length).flatMap (repeated step fuel)

/-- The places at which a match that begins at a place may end. -/
def ends : Pattern → Place → List Place
  | .empty, p => [p]
  | .one accepts, p => p.step accepts
  | .seq first second, p => (first.ends p).flatMap second.ends
  | .alt first second, p => first.ends p ++ second.ends p
  | .many q, p => repeated q.ends p.rest.length p
  | .edge, p => if p.atWordEdge then [p] else []
  | .start, p => if p.before.isNone then [p] else []

/-- Whether a match begins at a place. -/
def matchesAt (q : Pattern) (p : Place) : Bool := !(q.ends p).isEmpty

/-- Whether a match begins in a text that stands behind a character. -/
def occursAfter (q : Pattern) (before : Option Char) : Text → Bool
  | [] => q.matchesAt ⟨before, []⟩
  | c :: t => q.matchesAt ⟨before, c :: t⟩ || q.occursAfter (some c) t

/-- Whether a match begins anywhere in a text. -/
def occursIn (q : Pattern) (t : Text) : Bool := q.occursAfter none t

/-! ## Compound patterns -/

/-- Several patterns one after the other. -/
def sequence (qs : List Pattern) : Pattern := qs.foldr .seq .empty

/-- Any of several patterns; the empty list matches nowhere. -/
def anyOf (qs : List Pattern) : Pattern := qs.foldr .alt (.one fun _ => false)

/-- A given text, in capital or small letters. -/
def literal (t : Text) : Pattern :=
  sequence (t.map fun c => .one fun d => Text.foldLetter d = Text.foldLetter c)

/-- Any of several texts, in capital or small letters. -/
def anyText (ts : List Text) : Pattern := anyOf (ts.map literal)

/-- A character of a class, once or more often. -/
def many1 (accepts : Char → Bool) : Pattern := .seq (.one accepts) (.many (.one accepts))

/-- One blank or more. -/
def blanks : Pattern := many1 Text.isBlank

/-- Words with blanks between them, each one of several, and an edge at both ends. -/
def phrase (words : List (List Text)) : Pattern :=
  .seq .edge (.seq (sequence ((words.map anyText).intersperse blanks)) .edge)

end Pattern

end Drydock
