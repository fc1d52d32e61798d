/-
  Build stages. Each begins with a base image, which may be an earlier stage by its name; the
  arguments declared before the first stage have values in all base images. Stages are found step by
  step, by checked accesses (`Stages.checkedSplit`), and as a division of all steps (`Stage.split`).
-/
import Drydock.Dockerfile.Image
import Drydock.Dockerfile.KeyValues

namespace Drydock

/-- A build stage: its number, the step that opens it, its base, and the steps that follow. -/
structure Stage where
  index : Nat
  opening : Instruction
  base : ImageReference
  instructions : List Instruction
deriving DecidableEq, Repr

/-- The stages of a Dockerfile, and the arguments declared before them. -/
structure Stages where
  globalArgs : OrderedMap Text Text
  stages : List Stage
deriving DecidableEq, Repr

namespace Stage

/-! ## Division into stages -/

/-- The steps before the first stage, and those of each stage with the one that opens it. -/
def divide : List Instruction → List Instruction × List (Instruction × List Instruction)
  | [] => ([], [])
  | i :: rest =>
    let (front, groups) := divide rest
    if i.opcode = .base then ([], (i, front) :: groups) else (i :: front, groups)

/-- The keys with a value that an argument declaration gives. -/
def declared (i : Instruction) : List (Text × Text) :=
  if i.opcode = .arg then i.keyValues.entries.filter fun entry => !entry.2.isEmpty else []

/-- The arguments that steps declare, later ones winning. -/
def declaredArgs (instructions : List Instruction) : OrderedMap Text Text :=
  .ofList (instructions.flatMap declared)

/-- The stages of a list of steps. -/
def split (instructions : List Instruction) : Stages :=
  let (front, groups) := divide instructions
  let values := declaredArgs front
  { globalArgs := values
    stages := groups.zipIdx.map fun ((opening, instructions), index) =>
      { index, opening, instructions, base := ImageReference.ofInstruction opening values } }

/-- A stage with a further step. -/
def extend (s : Stage) (i : Instruction) : Stage := { s with instructions := s.instructions ++ [i] }

/-- The division loses no step and keeps their order. -/
theorem divide_append (instructions : List Instruction) :
    (divide instructions).1 ++ (divide instructions).2.flatMap (fun g => g.1 :: g.2) =
      instructions := by
  induction instructions with
  | nil => rfl
  | cons i rest ih =>
    by_cases h : i.opcode = .base <;> simp [divide, h, ih]

/-! ## Lineage -/

/-- The named stages by name, of several with one name the last. -/
def byName (stages : List Stage) : OrderedMap Text Stage :=
  .ofList (stages.filterMap fun s => s.base.stageName.map (·, s))

/-- A stage and those it builds on, nearest first, as far as a table of names leads. -/
def lineageFrom (table : OrderedMap Text Stage) (current : Stage) : List Stage :=
  if current.base.isPinned then [current]
  else
    match table.get? current.base.name with
    | none => [current]
    | some parent =>
      if parent.index < current.index then current :: lineageFrom table parent else [current]
termination_by current.index

/-- A stage and the earlier ones it builds on, nearest first. -/
def lineage (stages : List Stage) (s : Stage) : List Stage :=
  lineageFrom (byName (stages.take s.index)) s

end Stage

/-! ## Step by step -/

namespace Stages

/-- The stages when a further step comes: it opens one, declares arguments before all of them, or
belongs to the last one. -/
def checkedAdd (s : Stages) (i : Instruction) : Except Fault Stages :=
  if i.opcode = .base then do
    let base ← ImageReference.checkedOfInstruction i s.globalArgs
    pure { s with stages := s.stages ++ [⟨s.stages.length, i, base, []⟩] }
  else if s.stages.isEmpty then
    if i.opcode = .arg then do
      let pairs ← i.checkedKeyValues
      let given := pairs.entries.filter fun entry => !entry.2.isEmpty
      pure { s with globalArgs := s.globalArgs.insertAll given }
    else pure s
  else do
    let current ← Access.last s.stages
    pure { s with stages := s.stages.dropLast ++ [current.extend i] }

/-- The stages of a list of steps, found step by step. -/
def checkedSplit (instructions : List Instruction) : Except Fault Stages :=
  instructions.foldlM checkedAdd ⟨.empty, []⟩

end Stages

end Drydock
