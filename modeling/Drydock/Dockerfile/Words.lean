/-
  Words as a shell would see them: blanks divide them unless they are quoted or escaped, and quotes
  and backslashes are taken away. Inside single quotes a backslash is a character like any other.
-/
import Drydock.Text.Blank

namespace Drydock

/-- What has been read of a text: words, the current word, the open quote, a pending backslash. -/
structure WordScan where
  words : List Text := []
  current : Text := []
  quote : Option Char := none
  escaped : Bool := false
deriving DecidableEq, Repr

namespace WordScan

/-- Adds a character to the current word. -/
def push (s : WordScan) (c : Char) : WordScan := { s with current := s.current ++ [c] }

/-- Ends the current word, if it has a character. -/
def endWord (s : WordScan) : WordScan :=
  if s.current.isEmpty then s else { s with words := s.words ++ [s.current], current := [] }

/-- Reads one character. -/
def step (s : WordScan) (c : Char) : WordScan :=
  if s.escaped then { s.push c with escaped := false }
  else if c = '\\' && s.quote != some '\'' then { s with escaped := true }
  else match s.quote with
    | some quote => if c = quote then { s with quote := none } else s.push c
    | none =>
      if c = '"' || c = '\'' then { s with quote := some c }
      else if Text.isBlank c then s.endWord
      else s.push c

/-- Reads a text. -/
def read (s : WordScan) (t : Text) : WordScan := t.foldl step s

@[simp] theorem read_nil (s : WordScan) : s.read [] = s := rfl

@[simp] theorem read_cons (s : WordScan) (c : Char) (t : Text) :
    s.read (c :: t) = (s.step c).read t := rfl

theorem read_append (s : WordScan) (t u : Text) : s.read (t ++ u) = (s.read t).read u :=
  List.foldl_append

/-- Whether a quote is open. -/
def isQuoted (s : WordScan) : Bool := s.quote.isSome

end WordScan

/-- The words of a text. -/
def Text.shellWords (t : Text) : List Text := (WordScan.read {} t).endWord.words

end Drydock
