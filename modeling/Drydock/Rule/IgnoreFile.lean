/-
  The rule about ignore files: one shall lie in the build context or beside the Dockerfile, under
  the Dockerfile's own name.
-/
import Drydock.Path
import Drydock.Rule.Basic
import Drydock.Text.Quoted

namespace Drydock.Rule

/-- Where to look for an ignore file: what is known of the build, and which files exist. -/
structure IgnoreSearch where
  dockerfile : Option Path := none
  contextDir : Option Path := none
  ignoreFile : Option Path := none
  isFile : Path → Bool := fun _ => false
  /-- what the machine says of a path at which it cannot look for a file -/
  fault? : Path → Option Fault := fun _ => none

namespace IgnoreSearch

/-- The name of an ignore file. -/
def ignoreName : Text := ".dockerignore"

/-- The fault of a Dockerfile whose path has no name. -/
def namelessFault (p : Path) : Fault :=
  ⟨"ValueError", Text.concat ["PosixPath(", Text.quoted p.text, ") has an empty name"]⟩

/-- The ignore file that lies beside a Dockerfile. -/
def besides (dockerfile : Path) : Except Fault Path :=
  match dockerfile.withName? (dockerfile.name ++ ignoreName) with
  | some p => .ok p
  | none => .error (namelessFault dockerfile)

/-- The paths that are tried, in order. -/
def candidates (s : IgnoreSearch) : Except Fault (List Path) :=
  match s.ignoreFile with
  | some p => .ok [p]
  | none =>
    let directory := s.contextDir.or (s.dockerfile.map Path.parent)
    let inside := (directory.map (·.child ignoreName)).toList
    match s.dockerfile with
    | none => .ok inside
    | some dockerfile => (besides dockerfile).map fun p => inside ++ [p]

/-- Looks whether there is a file at a path. -/
def look (s : IgnoreSearch) (p : Path) : Except Fault Bool :=
  match s.fault? p with
  | some fault => .error fault
  | none => .ok (s.isFile p)

/-- Looks at paths in order until there is a file at one of them. -/
def lookFor (s : IgnoreSearch) : List Path → Except Fault Bool
  | [] => .ok false
  | p :: rest =>
    match s.look p with
    | .error fault => .error fault
    | .ok true => .ok true
    | .ok false => s.lookFor rest

end IgnoreSearch

/-- What is said when there is no ignore file. -/
def missingIgnoreMessage (p : Path) : Text :=
  Text.concat
    ["No ignore file found at ", p.text,
      "; add a .dockerignore to keep the build context small and free of local artifacts."]

/-- The remark on a missing ignore file, if there is a path where it could lie. -/
def checkedIgnoreRemarks (s : IgnoreSearch) : Except Fault (List Remark) := do
  let candidates ← s.candidates
  if candidates.isEmpty then pure []
  else do
    let found ← s.lookFor candidates
    if found then pure []
    else do
      let first ← Access.item candidates 0
      pure [(0, missingIgnoreMessage first)]

/-- Warns when no ignore file accompanies the build context. -/
def dockerignorePresent (s : IgnoreSearch) : Rule :=
  ofChecked "dockerignore-present" .warning fun _ => checkedIgnoreRemarks s

end Drydock.Rule
