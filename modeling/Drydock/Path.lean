/-
  Paths with slashes between their parts. Repeated slashes and single dots are dropped when a path
  is read; double dots stay, and exactly two slashes at the front differ from one.
-/
import Drydock.Text.Basic

namespace Drydock

/-- What a path starts from. -/
inductive Anchor where
  | here
  | root
  | doubleRoot
deriving DecidableEq, Repr

/-- The slashes of an anchor. -/
def Anchor.text : Anchor → Text
  | .here => []
  | .root => "/"
  | .doubleRoot => "//"

/-- A path: where it starts, and the names that lead on from there. -/
structure Path where
  anchor : Anchor
  parts : List Text
deriving DecidableEq, Repr

namespace Path

/-- The anchor that a path's text begins with. -/
def anchorOf : Text → Anchor
  | '/' :: '/' :: '/' :: _ => .root
  | '/' :: '/' :: _ => .doubleRoot
  | '/' :: _ => .root
  | _ => .here

/-- Reads a path. -/
def ofText (t : Text) : Path :=
  ⟨anchorOf t, (Text.splitOn '/' t).filter fun part => !part.isEmpty && part != ['.']⟩

/-- The text of a path; the empty one is a dot. -/
def text (p : Path) : Text :=
  if p.anchor = .here && p.parts.isEmpty then "."
  else p.anchor.text ++ Text.joinWith "/" p.parts

/-- The last name of a path, empty if it has none. -/
def name (p : Path) : Text := p.parts.getLast?.getD []

/-- The path without its last name. -/
def parent (p : Path) : Path := ⟨p.anchor, p.parts.dropLast⟩

/-- Whether the path starts at a root. -/
def isAbsolute (p : Path) : Bool := p.anchor != .here

/-- The path `q` as seen from `p`. -/
def join (p q : Path) : Path :=
  if q.isAbsolute then q else ⟨p.anchor, p.parts ++ q.parts⟩

/-- The path of a name inside a directory. -/
def child (p : Path) (name : Text) : Path := ⟨p.anchor, p.parts ++ [name]⟩

/-- The path with another last name; nothing if it has none to replace. -/
def withName? (p : Path) (name : Text) : Option Path :=
  if p.parts.isEmpty then none else some (p.parent.child name)

/-- The parts of a path when each double dot takes back the part before it. -/
def withoutDots (parts : List Text) : List Text :=
  parts.foldl
    (fun walked part => if part = ['.', '.'] then walked.dropLast else walked ++ [part]) []

/-- The path from the root that a path stands for in a directory. -/
def resolve (p directory : Path) : Path :=
  ⟨.root, withoutDots (directory.join p).parts⟩

end Path

end Drydock
