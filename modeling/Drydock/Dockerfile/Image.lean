/-
  References to base images: a name, perhaps with a registry in front, and a tag or a digest behind.
-/
import Drydock.Dockerfile.Instruction
import Drydock.Dockerfile.Variables
import Drydock.Fault

namespace Drydock

/-- The target of a step that opens a stage. -/
structure ImageReference where
  /-- the reference as written, with its variables replaced -/
  text : Text
  /-- the name in small letters -/
  name : Text
  tag : Option Text
  digest : Option Text
  /-- the name that the stage is given, in small letters -/
  stageName : Option Text
  /-- whether every variable had a value -/
  resolved : Bool
  line : Nat
deriving DecidableEq, Repr

/-- The text before the last separator and the text behind it. -/
def Text.cutLast? (separator : Char) : Text → Option (Text × Text)
  | [] => none
  | c :: t =>
    match cutLast? separator t with
    | some (before, behind) => some (c :: before, behind)
    | none => if c = separator then some ([], t) else none

namespace ImageReference

/-- A text, unless it is empty. -/
def nonempty? (t : Text) : Option Text := if t.isEmpty then none else some t

/-- A name and the tag behind its last colon; a colon before a slash belongs to a port. -/
def splitTag (t : Text) : Text × Option Text :=
  match Text.cutLast? ':' t with
  | some (name, tag) => if tag.contains '/' then (t, none) else (name, some tag)
  | none => (t, none)

/-- The name that a stage is given. -/
def stageNameOf : List Text → Option Text
  | _ :: word :: name :: _ => if Text.lower word = "as" then some (Text.lower name) else none
  | _ => none

/-- The target that a text names, with the values of variables put in. -/
def ofTarget (target : Text) (stageName : Option Text) (line : Nat)
    (values : OrderedMap Text Text) : ImageReference :=
  let expansion := target.expand values
  let (named, digest) := Text.cut '@' expansion.text
  let (name, tag) := splitTag named
  { text := expansion.text
    name := Text.lower name
    tag := tag.bind nonempty?
    digest := digest.bind nonempty?
    stageName
    resolved := expansion.resolved
    line }

/-- The target of a step, with the values of variables put in. -/
def ofInstruction (i : Instruction) (values : OrderedMap Text Text) : ImageReference :=
  ofTarget (i.positional.head?.getD []) (stageNameOf i.positional) i.line values

/-- The name that a stage is given, by checked accesses. -/
def checkedStageName (arguments : List Text) : Except Fault (Option Text) :=
  if arguments.length < 3 then pure none
  else do
    let word ← Access.item arguments 1
    if Text.lower word = "as" then do
      let name ← Access.item arguments 2
      pure (some (Text.lower name))
    else pure none

/-- The target of a step, by checked accesses. -/
def checkedOfInstruction (i : Instruction) (values : OrderedMap Text Text) :
    Except Fault ImageReference := do
  let target ← Access.itemOr i.positional 0 []
  let stageName ← checkedStageName i.positional
  pure (ofTarget target stageName i.line values)

/-- Whether a tag or a digest says which image is meant. -/
def isPinned (r : ImageReference) : Bool := r.tag.isSome || r.digest.isSome

/-- The names of the registry that is taken when none is given. -/
def defaultRegistries : List Text := ["docker.io/", "index.docker.io/", "registry-1.docker.io/"]

/-- A text without `front`, if it begins with that. -/
def withoutFront (front t : Text) : Text := (Text.dropFront? front t).getD t

/-- The name without the default registry and its collection of official images. -/
def shortName (r : ImageReference) : Text :=
  withoutFront "library/"
    ((defaultRegistries.findSome? fun registry => Text.dropFront? registry r.name).getD r.name)

end ImageReference

end Drydock
