/-
  What steps do. Most rules see no more of a step than its opcode, its line, the command that it
  executes and what it copies. A change of steps that keeps these keeps what the rules look for: the
  copies and installations, the rows of installations, and the files that are made and removed.
-/
import Drydock.Proofs.Dockerfile.Stage
import Drydock.Rule.Artifacts
import Drydock.Rule.BuildContext
import Drydock.Rule.Commands

namespace Drydock

theorem splitWhere_map {α β : Type} (p : β → Bool) (f : α → β) (l : List α) :
    splitWhere p (l.map f) = (splitWhere (p ∘ f) l).map (List.map f) := by
  induction l with
  | nil => rfl
  | cons a l ih =>
    obtain ⟨piece, rest, hpieces⟩ := List.exists_cons_of_ne_nil (splitWhere_ne_nil (p ∘ f) l)
    rw [List.map_cons, splitWhere, splitWhere, ih, hpieces]
    by_cases ha : p (f a) = true
    · simp [ha]
    · simp [ha, pushFront]

namespace Instruction

/-- A change of steps that keeps what they do. -/
structure KeepsDeeds (f : Instruction → Instruction) : Prop where
  opcode : ∀ i, (f i).opcode = i.opcode
  command : ∀ i, (f i).command = i.command
  copySources : ∀ i, (f i).copySources = i.copySources

namespace KeepsDeeds

variable {f : Instruction → Instruction}

theorem copiesContext (h : KeepsDeeds f) (i : Instruction) :
    (f i).copiesContext = i.copiesContext := by
  rw [Instruction.copiesContext, h.opcode, h.copySources, Instruction.copiesContext]

theorem installsPackages (h : KeepsDeeds f) (i : Instruction) :
    (f i).installsPackages = i.installsPackages := by
  rw [Instruction.installsPackages, h.opcode, h.command, Instruction.installsPackages]

theorem installsDependencies (h : KeepsDeeds f) (i : Instruction) :
    (f i).installsDependencies = i.installsDependencies := by
  rw [Instruction.installsDependencies, h.opcode, h.command, Instruction.installsDependencies]

theorem segments (h : KeepsDeeds f) (i : Instruction) : (f i).segments = i.segments := by
  rw [Instruction.segments, h.command, Instruction.segments]

theorem runsTests (h : KeepsDeeds f) (i : Instruction) : (f i).runsTests = i.runsTests := by
  rw [Instruction.runsTests, h.opcode, h.segments, Instruction.runsTests]

theorem removedFiles (h : KeepsDeeds f) (i : Instruction) :
    (f i).removedFiles = i.removedFiles := by
  rw [Instruction.removedFiles, h.segments, Instruction.removedFiles]

theorem createdFiles (h : KeepsDeeds f) (i : Instruction) :
    (f i).createdFiles = i.createdFiles := by
  rw [Instruction.createdFiles, h.segments, Instruction.createdFiles]

end KeepsDeeds

end Instruction

namespace Rule

open Instruction (KeepsDeeds)

variable {f : Instruction → Instruction}

theorem copyBeforeInstall?_map (h : KeepsDeeds f) (instructions : List Instruction) :
    copyBeforeInstall? (instructions.map f) =
      (copyBeforeInstall? instructions).map (Prod.map f f) := by
  have hcopies : (fun i : Instruction => !i.copiesContext) ∘ f = fun i => !i.copiesContext :=
    funext fun i => congrArg not (h.copiesContext i)
  have hinstalls : Instruction.installsDependencies ∘ f = Instruction.installsDependencies :=
    funext h.installsDependencies
  unfold copyBeforeInstall?
  rw [List.dropWhile_map, hcopies]
  cases instructions.dropWhile fun i => !i.copiesContext with
  | nil => rfl
  | cons copy rest =>
    rw [List.map_cons]
    dsimp only
    rw [List.find?_map, hinstalls, Option.map_map, Option.map_map]
    rfl

theorem installBlocks_map (h : KeepsDeeds f) (instructions : List Instruction) :
    installBlocks (instructions.map f) = (installBlocks instructions).map (List.map f) := by
  have hinstalls : (fun i : Instruction => !i.installsPackages) ∘ f = fun i => !i.installsPackages :=
    funext fun i => congrArg not (h.installsPackages i)
  unfold installBlocks
  rw [splitWhere_map, hinstalls, List.filter_map]
  refine congrArg _ (List.filter_congr fun block _ => ?_)
  rw [Function.comp, List.length_map]

theorem finalEntryStep?_map (h : KeepsDeeds f) (instructions : List Instruction) :
    finalEntryStep? (instructions.map f) = (finalEntryStep? instructions).map f := by
  have hentry : (fun i : Instruction => i.opcode.isEntry) ∘ f = fun i => i.opcode.isEntry :=
    funext fun i => congrArg Opcode.isEntry (h.opcode i)
  unfold finalEntryStep?
  rw [List.filter_map, hentry, List.getLast?_map]

end Rule

end Drydock
