/-
  Logical lines. A line that ends with the escape character is continued on the next line that is
  neither blank nor a comment; the parts are joined by single spaces.
-/
import Drydock.Text.Blank

namespace Drydock

/-- Whether a line is a comment; blanks may stand before the number sign. -/
def isCommentLine (line : Text) : Bool := (Text.strip line).head? = some '#'

/-- Whether a line is blank or a comment. -/
def isSkippedLine (line : Text) : Bool := (Text.strip line).isEmpty || isCommentLine line

/-- Whether a line is continued. -/
def isContinued (escape : Char) (line : Text) : Bool :=
  (Text.stripRight line).getLast? = some escape

/-- A continued line without its escape character. -/
def withoutEscape (line : Text) : Text := Text.strip (Text.stripRight line).dropLast

/-- The parts of a logical line, and how many lines it takes beyond the first. -/
structure LogicalLine where
  pieces : List Text
  extra : Nat
deriving DecidableEq, Repr

namespace LogicalLine

/-- The logical line that begins with `piece`; nothing if the text ends before it does. -/
def gather (escape : Char) (piece : Text) : List Text → Option LogicalLine
  | [] => if isContinued escape piece then none else some ⟨[piece], 0⟩
  | line :: rest =>
    if isContinued escape piece then
      if isSkippedLine line then
        (gather escape piece rest).map fun l => ⟨l.pieces, l.extra + 1⟩
      else
        (gather escape (Text.strip line) rest).map fun l =>
          ⟨withoutEscape piece :: l.pieces, l.extra + 1⟩
    else some ⟨[piece], 0⟩

/-- The text of a logical line; empty parts leave no space. -/
def text (l : LogicalLine) : Text :=
  Text.joinWith " " (l.pieces.filter fun piece => !piece.isEmpty)

/-- A logical line takes no more lines than there are. -/
theorem extra_le_length {escape : Char} {piece : Text} {rest : List Text} {l : LogicalLine}
    (h : gather escape piece rest = some l) : l.extra ≤ rest.length := by
  induction rest generalizing piece l with
  | nil =>
    by_cases hc : isContinued escape piece <;> simp [gather, hc] at h
    simp [← h]
  | cons line rest ih =>
    by_cases hc : isContinued escape piece
    · by_cases hs : isSkippedLine line <;> simp [gather, hc, hs] at h <;>
        obtain ⟨m, hm, rfl⟩ := h <;> simpa using ih hm
    · simp [gather, hc] at h
      simp [← h]

end LogicalLine

end Drydock
