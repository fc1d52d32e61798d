/-
  Sets of characters given by ranges of code points, as the tables of Unicode properties are.
-/
import Drydock.Text.Basic

namespace Drydock.Text

/-- Ascending ranges of code points, each with its first and its last member. -/
abbrev Ranges := List (Nat × Nat)

/-- Whether a code point lies in one of the ranges; the search ends at the first range above it. -/
def Ranges.contains (n : Nat) : Ranges → Bool
  | [] => false
  | (first, last) :: rest => first ≤ n && (n ≤ last || contains n rest)

end Drydock.Text
