/-
  What a command needs of the machine it runs on: files and directories, the directory it is started
  in, a clock, threads, and where it prints.
-/
import Drydock.Path
import Drydock.Text.Utf8

namespace Drydock

/-- Why a file cannot be read or written. -/
inductive FileError where
  | notFound
  | isDirectory
  | notDirectory
  | alreadyExists
  /-- what a machine may say besides -/
  | other (reason : Text)
deriving DecidableEq, Repr

/-- The wording of an error. -/
def FileError.message : FileError → Text
  | notFound => "No such file or directory"
  | isDirectory => "Is a directory"
  | notDirectory => "Not a directory"
  | alreadyExists => "File exists"
  | other reason => reason

/-- What a path may lead to. -/
inductive FileKind where
  | file
  | directory
deriving DecidableEq, Repr

/-- Where a command prints. -/
inductive Stream where
  | output
  | errors
deriving DecidableEq, Repr

/-- A machine on which commands run. -/
class Host (m : Type → Type) where
  /-- the directory that relative paths start from -/
  directory : m Path
  /-- what a path leads to, if anything -/
  kind? : Path → m (Option FileKind)
  read : Path → m (Except FileError Text.Octets)
  write : Path → Text.Octets → m (Except FileError Unit)
  /-- makes one directory, whose parent exists -/
  makeDirectory : Path → m (Except FileError Unit)
  /-- the time in seconds -/
  now : m Float
  /-- has threads do work and waits for them, for some seconds or until all of it is done; tells the
  names of what is done when the wait ends, in the order in which it was -/
  finish : {α : Type} → List (Text × (Unit → α)) → (seconds : Option Float) → m (List Text)
  /-- whether a terminal shows what is printed there -/
  isTerminal : Stream → m Bool

namespace Host

variable {m : Type → Type} [Monad m] [Host m]

/-- Whether a path leads to anything. -/
def pathExists (p : Path) : m Bool := do
  let kind ← kind? p
  pure kind.isSome

/-- Whether a path leads to a file. -/
def isFile (p : Path) : m Bool := do
  let kind ← kind? p
  pure (kind = some .file)

/-- An error that does not matter when a directory is there already. -/
def unlessDirectory (p : Path) : Except FileError Unit → m (Except FileError Unit)
  | .ok () => pure (.ok ())
  | .error e => do
    let kind ← kind? p
    pure (if kind = some .directory then .ok () else .error e)

/-- Makes the directory at a row of names, and those above it that are missing. -/
def makeAll (anchor : Anchor) (reversed : List Text) : m (Except FileError Unit) := do
  let p : Path := ⟨anchor, reversed.reverse⟩
  match ← makeDirectory p with
  | .error .notFound =>
    match reversed with
    | [] => pure (.error .notFound)
    | _ :: above =>
      match ← makeAll anchor above with
      | .error e => pure (.error e)
      | .ok () =>
        let result ← makeDirectory p
        unlessDirectory p result
  | result => unlessDirectory p result

/-- Makes a directory, and those above it that are missing. -/
def makeDirectories (p : Path) : m (Except FileError Unit) := makeAll p.anchor p.parts.reverse

end Host

end Drydock
