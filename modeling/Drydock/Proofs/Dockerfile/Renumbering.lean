/-
  Steps on other lines. What a step says does not depend on the line where it stands, and neither
  does the division into stages or what these build on: on other lines the stages are the same but
  for the lines of their steps and bases (`stages_split_renumber`, `lineage_renumber`).
-/
import Drydock.Proofs.Dockerfile.Lineage

namespace Drydock

/-- A step on another line, without the line where it ends and the comment above it. -/
def Instruction.renumber (g : Nat → Nat) (i : Instruction) : Instruction :=
  { i with line := g i.line, endLine := 0, commented := false }

/-- A target that stands on another line. -/
def ImageReference.renumber (g : Nat → Nat) (r : ImageReference) : ImageReference :=
  { r with line := g r.line }

/-- A stage whose steps are on other lines. -/
def Stage.renumber (g : Nat → Nat) (s : Stage) : Stage :=
  { index := s.index
    opening := s.opening.renumber g
    base := s.base.renumber g
    instructions := s.instructions.map (Instruction.renumber g) }

namespace Stage

variable {g : Nat → Nat} {s : Stage} {stages : List Stage} {instructions : List Instruction}

theorem declaredArgs_renumber (g : Nat → Nat) (instructions : List Instruction) :
    declaredArgs (instructions.map (Instruction.renumber g)) = declaredArgs instructions := by
  rw [declaredArgs, List.flatMap_map]
  rfl

theorem stages_split_renumber (g : Nat → Nat) (instructions : List Instruction) :
    (split (instructions.map (Instruction.renumber g))).stages =
      (split instructions).stages.map (renumber g) := by
  have hopcode (i : Instruction) : (i.renumber g).opcode = i.opcode := rfl
  unfold split
  rw [divide_map hopcode]
  dsimp only
  rw [declaredArgs_renumber, List.zipIdx_map, List.map_map, List.map_map]
  rfl

/-! ## Lineage -/

theorem lineage_renumber (g : Nat → Nat) (stages : List Stage) (s : Stage) :
    lineage (stages.map (renumber g)) (s.renumber g) = (lineage stages s).map (renumber g) := by
  refine lineageFrom_map (S := fun _ => True) (f := renumber g) (fun _ _ _ => trivial)
    (fun _ _ => rfl) (fun _ _ => rfl) (fun t _ _ => ?_) trivial
  show (byName ((stages.map (renumber g)).take s.index)).get? t.base.name = _
  rw [get?_byName, get?_byName, definition?_map (f := renumber g) fun _ _ => rfl]

end Stage

end Drydock
