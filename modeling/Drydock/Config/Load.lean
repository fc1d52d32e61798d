/-
  Finding and reading configuration files. A file that is named must exist; otherwise the files of
  the project are tried in turn, and a project file that says nothing of the linter is passed over.
-/
import Drydock.Config.Basic
import Drydock.Files.Host
import Drydock.Toml.Document

namespace Drydock

/-- Why no configuration can be loaded. -/
inductive LoadError where
  | missing (path : Text)
  | notUtf8 (fault : Text.Utf8.Fault)
  | notToml (path : Text)
  /-- an integer with so many digits that it is not converted -/
  | tooManyDigits (count : Nat)
  | badEntry (error : ConfigError)
  | unreadable (error : FileError)
deriving DecidableEq, Repr

namespace LoadError

/-- The wording of an error. -/
def message : LoadError → Text
  | missing path => "Config file does not exist: " ++ path
  | notUtf8 fault => fault.message
  | notToml path => "Invalid TOML in " ++ path
  | tooManyDigits count => Number.tooManyDigitsMessage count
  | badEntry error => error.message
  | unreadable error => error.message

end LoadError

namespace Config

/-- The files of a project that only configure the linter, in the order in which they are tried. -/
def ownFileNames : List Text := [".docklint.toml", "docklint.toml"]

/-- The table in the octets of a configuration file. -/
def readToml (path : Text) (octets : Text.Octets) : Except LoadError Table :=
  match Text.Utf8.decode octets with
  | .error fault => .error (.notUtf8 fault)
  | .ok t =>
    match Toml.read t with
    | .ok table => .ok table
    | .error .malformed => .error (.notToml path)
    | .error (.tooManyDigits count) => .error (.tooManyDigits count)

/-- Reads the configuration in a section of a file. -/
def ofSection (path : Path) (table : Table) : Except LoadError Config :=
  match ofTable table (some path.text) with
  | .ok c => .ok c
  | .error e => .error (.badEntry e)

variable {m : Type → Type} [Monad m] [Host m]

/-- The section of a file that configures the linter. -/
def readSection (path : Path) : m (Except LoadError Table) := do
  match ← Host.read path with
  | .error e => pure (.error (.unreadable e))
  | .ok octets => pure ((readToml path.text octets).map (sectionOf path.name))

/-- Reads the configuration in a file. -/
def readFile (path : Path) : m (Except LoadError Config) := do
  let table ← readSection path
  pure (table.bind (ofSection path))

/-- The first of several paths that leads to anything. -/
def firstExisting? : List Path → m (Option Path)
  | [] => pure none
  | path :: rest => do
    if ← Host.pathExists path then pure (some path) else firstExisting? rest

/-- The configuration of a project that has no file for the linter alone. -/
def loadShared (path : Path) : m (Except LoadError Config) := do
  if ← Host.pathExists path then
    let table ← readSection path
    pure (table.bind fun table => if table.isEmpty then .ok {} else ofSection path table)
  else pure (.ok {})

/-- Loads the configuration of a project, from the named file or from those it has. -/
def load (root : Path) (named : Option Path) : m (Except LoadError Config) := do
  let directory ← Host.directory
  let root := root.resolve directory
  match named with
  | some path =>
    let path := root.join path
    if ← Host.pathExists path then readFile path else pure (.error (.missing path.text))
  | none =>
    match ← firstExisting? (ownFileNames.map root.child) with
    | some path => readFile path
    | none => loadShared (root.child projectFileName)

end Config

end Drydock
