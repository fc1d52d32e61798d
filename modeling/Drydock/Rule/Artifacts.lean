/-
  The rule about files that one step leaves behind and a later one removes: the layer in between
  ships them all the same.
-/
import Drydock.Rule.Basic
import Drydock.Shell.Artifact

namespace Drydock.Rule

/-- Files left behind so far in a stage, each with the line of the step that made it. -/
abbrev Created := OrderedMap Text Nat

/-- A file, the line of the step that removes it, and the line of the one that made it. -/
structure Removal where
  line : Nat
  file : Text
  createdAt : Nat
deriving DecidableEq, Repr

namespace Removal

/-- Takes a removed path away from the files, the first of those that it may mean. -/
def take? (created : Created) (path : Text) : Option (Text × Nat) :=
  created.entries.find? fun entry => Artifact.same entry.1 path

/-- The removals that the paths at a line amount to, and the files that are left. -/
def sweep (line : Nat) (created : Created) : List Text → List Removal × Created
  | [] => ([], created)
  | path :: rest =>
    match take? created path with
    | none => sweep line created rest
    | some (file, createdAt) =>
      let (removals, created) := sweep line (created.erase file) rest
      (⟨line, file, createdAt⟩ :: removals, created)

/-- Adds the files that a step makes and does not itself remove; a known file keeps its line. -/
def record (line : Nat) (removed : List Text) (created : Created) (files : List Text) : Created :=
  files.foldl
    (fun created file =>
      if removed.any (Artifact.same file) || created.contains file then created
      else created.insert file line)
    created

/-- The removals of the steps behind those that left `created`. -/
def after (created : Created) : List Instruction → List Removal
  | [] => []
  | i :: rest =>
    if i.opcode = .base then after .empty rest
    else if i.opcode = .run then
      let (removals, created) := sweep i.line created i.removedFiles
      removals ++ after (record i.line i.removedFiles created i.createdFiles) rest
    else after created rest

/-- The removals that the paths at a line amount to, by checked accesses: each file that is found is
taken out by its name. -/
def checkedSweep (line : Nat) (created : Created) :
    List Text → Except Fault (List Removal × Created)
  | [] => pure ([], created)
  | path :: rest =>
    match created.keys.find? fun file => Artifact.same file path with
    | none => checkedSweep line created rest
    | some file => do
      let (createdAt, left) ← Access.pop created file
      let (removals, left) ← checkedSweep line left rest
      pure (⟨line, file, createdAt⟩ :: removals, left)

/-- The removals of the steps behind those that left `created`, by checked accesses. -/
def checkedAfter (created : Created) : List Instruction → Except Fault (List Removal)
  | [] => pure []
  | i :: rest =>
    if i.opcode = .base then checkedAfter .empty rest
    else if i.opcode = .run then do
      let (removed, made) ← i.checkedFiles
      let (removals, left) ← checkedSweep i.line created removed
      let later ← checkedAfter (record i.line removed left made) rest
      pure (removals ++ later)
    else checkedAfter created rest

/-- What is said about a removal. -/
def message (r : Removal) : Text :=
  Text.concat
    ["'", r.file, "' created by the RUN at line ", Text.ofNat r.createdAt,
      " is removed in a separate RUN; create, use and delete it in the same RUN."]

end Removal

/-- The remark on a removal. -/
def Removal.remark (r : Removal) : Remark := (r.line, r.message)

/-- Remarks on files that are removed too late. -/
def artifactRemarks (instructions : List Instruction) : List Remark :=
  (Removal.after .empty instructions).map Removal.remark

/-- Remarks on files that are removed too late, by checked accesses. -/
def checkedArtifactRemarks (instructions : List Instruction) : Except Fault (List Remark) := do
  let removals ← Removal.checkedAfter .empty instructions
  pure (removals.map Removal.remark)

/-- Flags downloaded or extracted files that are deleted in a later step. -/
def cleanupArtifacts : Rule := ofChecked "cleanup-artifacts" .warning checkedArtifactRemarks

end Drydock.Rule
