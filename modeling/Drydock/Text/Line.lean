/-
  Physical lines. A text is divided at any of eleven line ends, of which only the pair of carriage
  return and line feed has two characters; an end at the very end of the text opens no new line.
-/
import Drydock.Text.Basic

namespace Drydock.Text

/-- The characters that end a line by themselves. -/
def isLineEnd (c : Char) : Bool :=
  let n := c.toNat
  (10 ≤ n && n ≤ 13) || (28 ≤ n && n ≤ 30) || n = 0x85 || n = 0x2028 || n = 0x2029

/-- The physical lines of a text, without their ends. -/
def lines : Text → List Text
  | [] => []
  | '\r' :: '\n' :: t => [] :: lines t
  | c :: t => if isLineEnd c then [] :: lines t else pushFront c (lines t)

@[simp] theorem lines_nil : lines [] = [] := rfl

/-- Turns carriage returns, alone or before a line feed, into line feeds. -/
def unifyLineEnds : Text → Text
  | [] => []
  | '\r' :: '\n' :: t => '\n' :: unifyLineEnds t
  | '\r' :: t => '\n' :: unifyLineEnds t
  | c :: t => c :: unifyLineEnds t

end Drydock.Text
