/-
  Tests in front of what a container executes. The rule looks for the last entry of a Dockerfile,
  then for a test on the lines above it. Whatever the lines are, it never looks behind the entry
  (`stepsAbove_append_cons`), and where the lines increase it sees all that stands in front of it
  (`stepsAbove_of_increasing`). So it finds one fault just if no test stands in front of an entry
  (`missing_tests_found`).
-/
import Mathlib.Data.List.TakeWhile
import Drydock.Proofs.Dockerfile.Layout
import Drydock.Rule.Commands

namespace Drydock.Rule

variable {front back steps : List Instruction} {entry : Instruction}

/-! ## The last entry -/

/-- A step says what a container executes, and no later one does. -/
def IsFinal (steps : List Instruction) (entry : Instruction) : Prop :=
  ∃ front back, steps = front ++ entry :: back ∧ entry.opcode.isEntry = true ∧
    ∀ i ∈ back, i.opcode.isEntry = false

theorem finalEntryStep?_append_cons (hentry : entry.opcode.isEntry = true)
    (hback : ∀ i ∈ back, i.opcode.isEntry = false) (front : List Instruction) :
    finalEntryStep? (front ++ entry :: back) = some entry := by
  have hnone : (back.filter fun i => i.opcode.isEntry) = [] :=
    List.filter_eq_nil_iff.mpr fun i hi => by simpa using hback i hi
  unfold finalEntryStep?
  rw [List.filter_append, List.filter_cons_of_pos (by simpa using hentry), hnone,
    List.getLast?_concat]

theorem finalEntryStep?_eq_some_iff : finalEntryStep? steps = some entry ↔ IsFinal steps entry := by
  constructor
  · intro h
    obtain ⟨earlier, hfilter⟩ := List.getLast?_eq_some_iff.mp h
    obtain ⟨before, behind, rfl, -, hbehind⟩ := List.filter_eq_append_iff.mp hfilter
    obtain ⟨between, back, rfl, -, hentry, hback⟩ := List.filter_eq_cons_iff.mp hbehind
    refine ⟨before ++ between, back, by simp, hentry, fun i hi => ?_⟩
    simpa using List.filter_eq_nil_iff.mp hback i hi
  · rintro ⟨front, back, rfl, hentry, hback⟩
    exact finalEntryStep?_append_cons hentry hback front

theorem finalEntryStep?_eq_none_iff :
    finalEntryStep? steps = none ↔ ∀ i ∈ steps, i.opcode.isEntry = false := by
  unfold finalEntryStep?
  rw [List.getLast?_eq_none_iff, List.filter_eq_nil_iff]
  exact forall₂_congr fun _ _ => by rw [Bool.not_eq_true]

/-! ## The steps above it -/

/-- A step is never above itself, and the steps above it end where it stands. -/
theorem stepsAbove_append_cons (front : List Instruction) (entry : Instruction)
    (back : List Instruction) :
    stepsAbove (some entry) (front ++ entry :: back) = stepsAbove (some entry) front := by
  simp only [stepsAbove, Option.all_some]
  rw [List.takeWhile_append, List.takeWhile_cons_of_neg (by simp), List.append_nil]
  split
  · rename_i hall
    exact ((List.takeWhile_prefix _).eq_of_length hall).symm
  · rfl

theorem stepsAbove_of_increasing
    (hlines : ((front ++ entry :: back).map Instruction.line).Pairwise (· < ·)) :
    stepsAbove (some entry) front = front := by
  rw [List.pairwise_map, List.pairwise_append] at hlines
  refine List.takeWhile_eq_self_iff.mpr fun i hi => ?_
  simpa using hlines.2.2 i hi entry List.mem_cons_self

theorem stepsAbove_none (steps : List Instruction) : stepsAbove none steps = steps :=
  List.takeWhile_eq_self_iff.mpr fun _ _ => rfl

/-! ## Tests -/

/-- Some step runs tests, and no step says what a container executes, or some later one does. -/
def IsTested (steps : List Instruction) : Prop :=
  ∃ before test behind, steps = before ++ test :: behind ∧ test.runsTests = true ∧
    ((∀ i ∈ steps, i.opcode.isEntry = false) ∨ ∃ i ∈ behind, i.opcode.isEntry = true)

theorem isTested_append_cons (hentry : entry.opcode.isEntry = true)
    (hback : ∀ i ∈ back, i.opcode.isEntry = false) :
    IsTested (front ++ entry :: back) ↔ front.any Instruction.runsTests = true := by
  rw [List.any_eq_true]
  constructor
  · rintro ⟨before, test, behind, hsteps, hruns, hnone | ⟨later, hlater, hkind⟩⟩
    · exact absurd hentry (by simp [hnone entry (by simp)])
    · have hnot : later ∉ back := fun hmem => by simp [hback later hmem] at hkind
      rcases List.append_eq_append_iff.mp hsteps with ⟨between, -, hrest⟩ | ⟨between, rfl, hrest⟩
      · -- The entry stands in front of the test or is it, so what is behind the test is behind it.
        rcases List.cons_eq_append_iff.mp hrest with ⟨-, htest⟩ | ⟨between, -, rfl⟩
        · obtain ⟨-, rfl⟩ := List.cons.inj htest
          exact absurd hlater hnot
        · exact absurd (List.mem_append_right _ (List.mem_cons_of_mem _ hlater)) hnot
      · rcases List.cons_eq_append_iff.mp hrest with ⟨-, htest⟩ | ⟨between, rfl, -⟩
        · obtain ⟨-, rfl⟩ := List.cons.inj htest
          exact absurd hlater hnot
        · exact ⟨test, by simp, hruns⟩
  · rintro ⟨test, hmem, hruns⟩
    obtain ⟨before, between, rfl⟩ := List.append_of_mem hmem
    exact ⟨before, test, between ++ entry :: back, by simp, hruns, Or.inr ⟨entry, by simp, hentry⟩⟩

theorem isTested_of_no_entry (h : ∀ i ∈ steps, i.opcode.isEntry = false) :
    IsTested steps ↔ steps.any Instruction.runsTests = true := by
  rw [List.any_eq_true]
  constructor
  · rintro ⟨before, test, behind, rfl, hruns, -⟩
    exact ⟨test, by simp, hruns⟩
  · rintro ⟨test, hmem, hruns⟩
    obtain ⟨before, behind, rfl⟩ := List.append_of_mem hmem
    exact ⟨before, test, behind, rfl, hruns, Or.inl h⟩

theorem any_stepsAbove_iff (hlines : (steps.map Instruction.line).Pairwise (· < ·)) :
    (stepsAbove (finalEntryStep? steps) steps).any Instruction.runsTests = true ↔ IsTested steps := by
  cases hfinal : finalEntryStep? steps with
  | none => rw [stepsAbove_none, isTested_of_no_entry (finalEntryStep?_eq_none_iff.mp hfinal)]
  | some entry =>
    obtain ⟨front, back, rfl, hentry, hback⟩ := finalEntryStep?_eq_some_iff.mp hfinal
    rw [stepsAbove_append_cons, stepsAbove_of_increasing hlines, isTested_append_cons hentry hback]

/-! ## Findings -/

/-- What is found if no test runs. -/
def missingTestFinding (line : Int) : Finding :=
  ⟨"has-test-step", .info, line, missingTestMessage⟩

/-- The line of the last entry, or zero if there is none. -/
def IsFinalLine (steps : List Instruction) (line : Int) : Prop :=
  (∃ entry, IsFinal steps entry ∧ line = entry.line) ∨
    ((∀ i ∈ steps, i.opcode.isEntry = false) ∧ line = 0)

/-- The line that the rule takes for its finding. -/
def finalLine (steps : List Instruction) : Int :=
  ((finalEntryStep? steps).map Instruction.line).getD 0

theorem isFinalLine_finalLine (steps : List Instruction) : IsFinalLine steps (finalLine steps) := by
  unfold finalLine
  cases hfinal : finalEntryStep? steps with
  | none => exact Or.inr ⟨finalEntryStep?_eq_none_iff.mp hfinal, rfl⟩
  | some entry => exact Or.inl ⟨entry, finalEntryStep?_eq_some_iff.mp hfinal, rfl⟩

theorem inspect_hasTestStep (steps : List Instruction) :
    hasTestStep.inspect steps = .ok (if steps.isEmpty ||
        (stepsAbove (finalEntryStep? steps) steps).any Instruction.runsTests then []
      else [missingTestFinding (finalLine steps)]) := by
  rw [hasTestStep, ofRemarks]
  dsimp only
  rw [missingTestRemarks, apply_ite (List.map _)]
  rfl

/-- What stands behind the last entry is not seen. -/
theorem inspect_hasTestStep_append_cons (hentry : entry.opcode.isEntry = true)
    (hback : ∀ i ∈ back, i.opcode.isEntry = false) (front : List Instruction) :
    hasTestStep.inspect (front ++ entry :: back) =
      .ok (if (stepsAbove (some entry) front).any Instruction.runsTests then []
        else [missingTestFinding entry.line]) := by
  have hsome : (front ++ entry :: back).isEmpty = false := by simp
  rw [inspect_hasTestStep, finalLine, finalEntryStep?_append_cons hentry hback, hsome,
    stepsAbove_append_cons, Bool.false_or]
  rfl

theorem increasing_of_parse {t : Text} {d : Dockerfile} (h : Dockerfile.parse t = .ok d) :
    (d.instructions.map Instruction.line).Pairwise (· < ·) := by
  have hlayout := Dockerfile.layout_ofLines h
  refine List.pairwise_map.mpr (hlayout.apart.imp_of_mem fun hi _ hapart => ?_)
  exact Nat.lt_of_le_of_lt (hlayout.inside _ hi).2.1 hapart

/--
The rule about tests never fails. Where the lines of the steps increase, as they do in each parsed
Dockerfile, it finds nothing just if there are no steps, or some step runs tests in front of a step
that says what a container executes, or there is no such step but a test. Otherwise it finds one
fault, at the line of the last step that says what a container executes, or at line zero. It
finds the same whatever other steps stand behind that last one.
-/
theorem missing_tests_found :
    (∀ (t : Text) (d : Dockerfile), Dockerfile.parse t = .ok d →
      (d.instructions.map Instruction.line).Pairwise (· < ·)) ∧
    (∀ steps : List Instruction, (steps.map Instruction.line).Pairwise (· < ·) →
      ∃ found, hasTestStep.inspect steps = .ok found ∧
        (found = [] ↔ steps = [] ∨ IsTested steps) ∧
        (found ≠ [] → ∃ line, IsFinalLine steps line ∧ found = [missingTestFinding line])) ∧
    ∀ (front back behind : List Instruction) (entry : Instruction),
      entry.opcode.isEntry = true → (∀ i ∈ back, i.opcode.isEntry = false) →
      (∀ i ∈ behind, i.opcode.isEntry = false) →
      hasTestStep.inspect (front ++ entry :: behind) =
        hasTestStep.inspect (front ++ entry :: back) := by
  refine ⟨fun t d => increasing_of_parse, fun steps hlines => ?_, ?_⟩
  · refine ⟨_, inspect_hasTestStep steps, ?_, fun hfound => ?_⟩
    · rw [← any_stepsAbove_iff hlines, ← List.isEmpty_iff (l := steps), ← Bool.or_eq_true,
        ite_eq_left_iff, Bool.not_eq_true, imp_iff_not (List.cons_ne_nil _ _), Bool.not_eq_false]
    · rw [if_neg fun hnone => hfound (if_pos hnone)]
      exact ⟨finalLine steps, isFinalLine_finalLine steps, rfl⟩
  · intro front back behind entry hentry hback hbehind
    rw [inspect_hasTestStep_append_cons hentry hbehind,
      inspect_hasTestStep_append_cons hentry hback]

/-- Installing a test runner runs no test, and a test behind the last entry comes too late. -/
theorem missing_tests_found_of_late_test :
    ∃ (d : Dockerfile) (front behind : List Instruction) (entry : Instruction),
      Dockerfile.parse "FROM a\nRUN pip install pytest\nCMD b\nRUN npm test\n" = .ok d ∧
      d.instructions = front ++ entry :: behind ∧ entry.opcode.isEntry = true ∧
      (∀ i ∈ behind, i.opcode.isEntry = false) ∧
      (d.instructions.map Instruction.line).Pairwise (· < ·) ∧
      hasTestStep.inspect d.instructions = .ok [missingTestFinding 3] ∧
      ¬IsTested d.instructions ∧
      hasTestStep.inspect (front ++ [entry]) = .ok [missingTestFinding 3] := by
  let step (opcode : Opcode) (line : Nat) (arguments : List Text) : Instruction :=
    { opcode, arguments, line, endLine := line, raw := Text.joinWith " " arguments }
  let front : List Instruction :=
    [step .base 1 ["a"], step .run 2 ["pip", "install", "pytest"]]
  let entry := step .cmd 3 ["b"]
  let behind : List Instruction := [step .run 4 ["npm", "test"]]
  let d : Dockerfile :=
    { instructions := front ++ entry :: behind, warnings := [], escape := .backslash }
  have hparse :
      Dockerfile.parse "FROM a\nRUN pip install pytest\nCMD b\nRUN npm test\n" = .ok d := by
    decide +kernel
  have hbehind : ∀ i ∈ behind, i.opcode.isEntry = false := by decide
  have hlines := missing_tests_found.1 _ d hparse
  have hinspect : hasTestStep.inspect d.instructions = .ok [missingTestFinding 3] := by
    decide +kernel
  obtain ⟨found, hfound, hnone, -⟩ := missing_tests_found.2.1 d.instructions hlines
  obtain rfl := Except.ok.inj (hinspect.symm.trans hfound)
  have hmore : hasTestStep.inspect d.instructions = hasTestStep.inspect (front ++ [entry]) :=
    missing_tests_found.2.2 front [] behind entry rfl (by simp) hbehind
  exact ⟨d, front, behind, entry, hparse, rfl, rfl, hbehind, hlines, hinspect,
    fun htested => List.cons_ne_nil _ _ (hnone.mpr (Or.inr htested)), hmore.symm.trans hinspect⟩

end Drydock.Rule
