/-
  How steps are divided into stages. The loop over the steps loses none of them and keeps their
  order, each step that opens a stage opens one, and all bases are read with the values that are
  declared before the first of them, of several values of a name the last one (`get?_declaredArgs`).
  Together these are `checkedSplit_isDivision`.
-/
import Mathlib.Data.List.Flatten
import Drydock.Proofs.Dockerfile.Access
import Drydock.Proofs.Dockerfile.Stage

namespace Drydock

/-! ## Declared values -/

/-- The value that a step declares for an argument, unless it is empty. -/
def Instruction.declared? (i : Instruction) (name : Text) : Option Text :=
  if i.opcode = .arg then (i.keyValues.get? name).filter fun value => !value.isEmpty else none

namespace Stage

/-- What a step declares, as a map. -/
def declaredMap (i : Instruction) : OrderedMap Text Text where
  entries := declared i
  distinct := by
    unfold declared
    split
    · exact (List.filter_sublist.map Prod.fst).nodup i.keyValues.distinct
    · exact List.nodup_nil

theorem get?_declaredMap (i : Instruction) (name : Text) :
    (declaredMap i).get? name = i.declared? name := by
  have hentries : (declaredMap i).entries = declared i := rfl
  unfold declared at hentries
  unfold Instruction.declared?
  ext value
  rw [OrderedMap.get?_eq_some_iff, hentries]
  split
  · rw [List.mem_filter, Option.filter_eq_some_iff, OrderedMap.get?_eq_some_iff]
  · simp

/-- Of the values that steps declare for an argument, the last one stays. -/
theorem get?_declaredArgs (instructions : List Instruction) (name : Text) :
    (declaredArgs instructions).get? name =
      instructions.reverse.findSome? fun i => i.declared? name := by
  induction instructions using List.reverseRecOn with
  | nil => rfl
  | append_singleton instructions i ih =>
    have hlast : declaredArgs (instructions ++ [i]) =
        (declaredArgs instructions).insertAll (declaredMap i).entries := by
      simp [declaredArgs, OrderedMap.ofList, OrderedMap.insertAll, declaredMap]
    rw [hlast, OrderedMap.get?_insertAll, get?_declaredMap, ih, List.reverse_concat,
      List.findSome?_cons]
    cases i.declared? name <;> rfl

/-! ## Fronts and groups -/

theorem opcode_ne_of_mem_front {instructions : List Instruction} {i : Instruction}
    (h : i ∈ (divide instructions).1) : i.opcode ≠ .base := by
  induction instructions with
  | nil => exact absurd h List.not_mem_nil
  | cons first rest ih =>
    by_cases hfirst : first.opcode = .base
    · rw [divide_cons_base hfirst] at h
      exact absurd h List.not_mem_nil
    · rw [divide_cons_of_ne hfirst] at h
      rcases List.mem_cons.mp h with rfl | h
      · exact hfirst
      · exact ih h

theorem opcode_ne_of_mem_group {instructions : List Instruction}
    {g : Instruction × List Instruction} (hg : g ∈ (divide instructions).2) {i : Instruction}
    (hi : i ∈ g.2) : i.opcode ≠ .base := by
  induction instructions with
  | nil => exact absurd hg List.not_mem_nil
  | cons first rest ih =>
    by_cases hfirst : first.opcode = .base
    · rw [divide_cons_base hfirst] at hg
      rcases List.mem_cons.mp hg with rfl | hg
      · exact opcode_ne_of_mem_front hi
      · exact ih hg
    · rw [divide_cons_of_ne hfirst] at hg
      exact ih hg

theorem length_groups (instructions : List Instruction) :
    (divide instructions).2.length = instructions.countP fun i => i.opcode = .base := by
  induction instructions with
  | nil => rfl
  | cons i rest ih =>
    by_cases h : i.opcode = .base
    · rw [divide_cons_base h, List.length_cons, ih, List.countP_cons_of_pos (by simpa using h)]
    · rw [divide_cons_of_ne h, ih, List.countP_cons_of_neg (by simpa using h)]

/-! ## Divisions -/

/-- Stages that steps are divided into, behind those that belong to none: no step is lost or moved,
just the steps that open stages do, stages are numbered in order, and the values for their bases are
the last ones declared in front of all of them. -/
structure IsDivision (instructions front : List Instruction) (s : Stages) : Prop where
  whole : instructions = front ++ s.stages.flatMap fun stage => stage.opening :: stage.instructions
  opcode_ne_of_mem_front : ∀ i ∈ front, i.opcode ≠ .base
  opcode_opening : ∀ stage ∈ s.stages, stage.opening.opcode = .base
  opcode_ne_of_mem : ∀ stage ∈ s.stages, ∀ i ∈ stage.instructions, i.opcode ≠ .base
  isNumbered : IsNumbered s.stages
  length : s.stages.length = instructions.countP fun i => i.opcode = .base
  get?_globalArgs : ∀ name : Text,
    s.globalArgs.get? name = front.reverse.findSome? fun i => i.declared? name
  base : ∀ stage ∈ s.stages,
    ImageReference.checkedOfInstruction stage.opening s.globalArgs = .ok stage.base

theorem flatMap_ofGroup (values : OrderedMap Text Text)
    (groups : List (Instruction × List Instruction)) :
    ((groups.zipIdx.map (ofGroup values)).flatMap fun stage =>
      stage.opening :: stage.instructions) = groups.flatMap fun g => g.1 :: g.2 := by
  conv_rhs => rw [← List.zipIdx_map_fst 0 groups]
  rw [List.flatMap_map, List.flatMap_map]
  rfl

theorem isDivision_split (instructions : List Instruction) :
    IsDivision instructions (divide instructions).1 (split instructions) where
  whole := by
    rw [split_eq, flatMap_ofGroup]
    exact (divide_append instructions).symm
  opcode_ne_of_mem_front _ hi := opcode_ne_of_mem_front hi
  opcode_opening _ hstage := (isOf_of_mem_split hstage).opcode
  opcode_ne_of_mem stage hstage i hi := by
    obtain ⟨⟨g, index⟩, hg, rfl⟩ := List.mem_map.mp hstage
    exact opcode_ne_of_mem_group (List.fst_mem_of_mem_zipIdx hg) hi
  isNumbered := isNumbered_split instructions
  length := by
    rw [← length_groups, split_eq, List.length_map, List.length_zipIdx]
  get?_globalArgs := get?_declaredArgs _
  base stage hstage := by
    rw [ImageReference.checkedOfInstruction_eq, ← base_of_mem_split hstage]

/-- Some steps of each stage, in their order, are some of all steps in their order. -/
theorem flatMap_stages_sublist {instructions : List Instruction} {pick : Stage → List Instruction}
    (h : ∀ s ∈ (split instructions).stages, (pick s).Sublist (s.opening :: s.instructions)) :
    ((split instructions).stages.flatMap pick).Sublist instructions := by
  have hwhole := (isDivision_split instructions).whole
  conv_rhs => rw [hwhole]
  exact (List.Sublist.flatMap_right _ h).trans (List.sublist_append_right _ _)

/-- Steps are divided into stages without a fault, whatever they are. -/
theorem checkedSplit_isDivision (instructions : List Instruction) :
    ∃ s front, Stages.checkedSplit instructions = .ok s ∧ IsDivision instructions front s :=
  ⟨split instructions, _, Stages.checkedSplit_eq instructions, isDivision_split instructions⟩

end Stage

end Drydock
