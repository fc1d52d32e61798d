/-
  Rows of installations. A step that installs nothing lies in no row, so the rows of some steps are
  those in front of it and those behind it (`isRow_append_cons`), just as the rule divides the
  steps. Taken apart at all such steps, the rule finds each longest row of two or more installations
  once, in order, and nothing else (`install_rows_found`).
-/
import Drydock.Dockerfile.Parser
import Drydock.Proofs.Rule.Access
import Drydock.Proofs.Text.Fields

namespace Drydock.Rule

variable {front row before behind between : List Instruction} {steps : List Instruction}
  {x : Instruction}

/-! ## Rows -/

/-- Behind some steps stands a longest row of installations, two or more: no installation stands
right in front of it or right behind it. -/
def IsRow (steps front row : List Instruction) : Prop :=
  ∃ back, steps = front ++ row ++ back ∧ 2 ≤ row.length ∧
    (∀ i ∈ row, i.installsPackages = true) ∧
    (∀ i ∈ front.getLast?, i.installsPackages = false) ∧
    ∀ i ∈ back.head?, i.installsPackages = false

theorem IsRow.append_behind (h : IsRow before front row) (hx : x.installsPackages = false)
    (behind : List Instruction) : IsRow (before ++ x :: behind) front row := by
  obtain ⟨back, rfl, hsize, hinstalls, hfront, hback⟩ := h
  refine ⟨back ++ x :: behind, by simp, hsize, hinstalls, hfront, ?_⟩
  cases back with
  | nil => simpa using hx
  | cons y back => simpa using hback

theorem IsRow.append_before (h : IsRow behind between row) (hx : x.installsPackages = false)
    (before : List Instruction) : IsRow (before ++ x :: behind) (before ++ x :: between) row := by
  obtain ⟨back, rfl, hsize, hinstalls, hbetween, hback⟩ := h
  refine ⟨back, by simp, hsize, hinstalls, ?_, hback⟩
  rcases List.eq_nil_or_concat between with rfl | ⟨between, y, rfl⟩
  · simpa using hx
  · rw [List.concat_eq_append] at hbetween ⊢
    rw [← List.cons_append, ← List.append_assoc, List.getLast?_concat]
    simpa using hbetween

/-- A row of some steps lies in front of a step that installs nothing, or behind it. -/
theorem IsRow.cases_append_cons (h : IsRow (before ++ x :: behind) front row)
    (hx : x.installsPackages = false) : IsRow before front row ∨
      ∃ between, front = before ++ x :: between ∧ IsRow behind between row := by
  obtain ⟨back, hsteps, hsize, hinstalls, hfront, hback⟩ := h
  have hnot : x ∉ row := fun hmem => absurd (hinstalls x hmem) (Bool.eq_false_iff.mp hx)
  rw [List.append_assoc] at hsteps
  rcases List.append_eq_append_iff.mp hsteps with ⟨between, rfl, hbehind⟩ | ⟨rest, rfl, hrest⟩
  · cases between with
    | nil =>
      obtain ⟨y, others, rfl⟩ := List.exists_cons_of_length_pos (Nat.zero_lt_of_lt hsize)
      obtain ⟨rfl, -⟩ := List.cons.inj hbehind
      exact absurd List.mem_cons_self hnot
    | cons y between =>
      obtain ⟨rfl, rfl⟩ := List.cons.inj hbehind
      refine Or.inr ⟨between, rfl, back, by simp, hsize, hinstalls, fun i hi => hfront i ?_, hback⟩
      rw [Option.mem_def] at hi ⊢
      simp [List.getLast?_append, List.getLast?_cons, hi]
  · rcases List.append_eq_append_iff.mp hrest with ⟨last, rfl, hlast⟩ | ⟨last, rfl, hlast⟩
    · subst hlast
      refine Or.inl ⟨last, by simp, hsize, hinstalls, hfront, fun i hi => hback i ?_⟩
      rw [Option.mem_def] at hi ⊢
      rw [List.head?_append, hi, Option.some_or]
    · cases last with
      | nil => exact Or.inl ⟨[], by simp, hsize, hinstalls, hfront, by simp⟩
      | cons y last =>
        obtain ⟨rfl, -⟩ := List.cons.inj hlast
        exact absurd (List.mem_append_right _ List.mem_cons_self) hnot

theorem isRow_append_cons (hx : x.installsPackages = false) (before behind : List Instruction) :
    IsRow (before ++ x :: behind) front row ↔ IsRow before front row ∨
      ∃ between, front = before ++ x :: between ∧ IsRow behind between row := by
  constructor
  · intro h
    exact h.cases_append_cons hx
  · rintro (h | ⟨between, rfl, h⟩)
    · exact h.append_behind hx behind
    · exact h.append_before hx before

/-- Steps that all install something are their only row. -/
theorem isRow_of_all (h : ∀ i ∈ steps, i.installsPackages = true) :
    IsRow steps front row ↔ front = [] ∧ row = steps ∧ 2 ≤ steps.length := by
  constructor
  · rintro ⟨back, rfl, hsize, -, hfront, hback⟩
    have hnone : front = [] := by
      refine List.getLast?_eq_none_iff.mp (Option.eq_none_iff_forall_not_mem.mpr fun i hi => ?_)
      have hmem := List.mem_append_left back (List.mem_append_left row (List.mem_of_getLast? hi))
      exact absurd (h i hmem) (Bool.eq_false_iff.mp (hfront i hi))
    have hend : back = [] := by
      refine List.head?_eq_none_iff.mp (Option.eq_none_iff_forall_not_mem.mpr fun i hi => ?_)
      have hmem := List.mem_append_right (front ++ row) (List.mem_of_head? hi)
      exact absurd (h i hmem) (Bool.eq_false_iff.mp (hback i hi))
    subst hnone hend
    exact ⟨rfl, by simp, by simpa using hsize⟩
  · rintro ⟨rfl, rfl, hsize⟩
    exact ⟨[], by simp, hsize, h, by simp, by simp⟩

/-- What holds of steps that all install something, and carries over from what stands behind a step
that installs nothing, holds of all steps. -/
@[elab_as_elim]
theorem row_induction {motive : List Instruction → Prop}
    (whole : ∀ row, (∀ i ∈ row, i.installsPackages = true) → motive row)
    (broken : ∀ row x rest, (∀ i ∈ row, i.installsPackages = true) → x.installsPackages = false →
      motive rest → motive (row ++ x :: rest)) (steps : List Instruction) : motive steps := by
  have hfrom (row : List Instruction) (hrow : ∀ i ∈ row, i.installsPackages = true) :
      motive (row ++ steps) := by
    induction steps generalizing row with
    | nil =>
      rw [List.append_nil]
      exact whole row hrow
    | cons x rest ih =>
      cases hx : x.installsPackages with
      | true =>
        rw [List.append_cons]
        exact ih (row ++ [x]) (List.forall_mem_append.mpr ⟨hrow, by simpa using hx⟩)
      | false => exact broken row x rest hrow hx (ih [] fun i hi => absurd hi List.not_mem_nil)
  exact hfrom [] fun i hi => absurd hi List.not_mem_nil

/-! ## What the rule divides -/

theorem installBlocks_append_cons (hx : x.installsPackages = false)
    (before behind : List Instruction) :
    installBlocks (before ++ x :: behind) = installBlocks before ++ installBlocks behind := by
  unfold installBlocks
  rw [splitWhere_append_cons (by simpa using hx), List.filter_append]

/-- The only row of steps that all install something, with nothing in front of it. -/
def onlyRow (steps : List Instruction) : List (List Instruction × List Instruction) :=
  if 2 ≤ steps.length then [([], steps)] else []

theorem mem_onlyRow_iff (h : ∀ i ∈ steps, i.installsPackages = true) :
    (front, row) ∈ onlyRow steps ↔ IsRow steps front row := by
  rw [isRow_of_all h, onlyRow]
  split
  · rename_i hsize
    simp [hsize]
  · rename_i hsize
    simp [hsize]

theorem installBlocks_of_all (h : ∀ i ∈ steps, i.installsPackages = true) :
    installBlocks steps = (onlyRow steps).map Prod.snd := by
  have hsplit := splitWhere_append_of_neg (p := fun i => !Instruction.installsPackages i)
    (l := []) (by simpa using h) rfl
  rw [List.append_nil] at hsplit
  rw [installBlocks, hsplit, onlyRow]
  by_cases hsize : 2 ≤ steps.length
  · rw [if_pos hsize, List.filter_cons_of_pos (by simpa using hsize)]
    rfl
  · rw [if_neg hsize, List.filter_cons_of_neg (by simpa using hsize)]
    rfl

/-- The rule divides steps into their rows, in order. -/
theorem exists_rows (steps : List Instruction) :
    ∃ rows : List (List Instruction × List Instruction),
      installBlocks steps = rows.map Prod.snd ∧
      (rows.map fun row => row.1.length).Pairwise (· < ·) ∧
      ∀ front row, (front, row) ∈ rows ↔ IsRow steps front row := by
  have honly (row : List Instruction) :
      ((onlyRow row).map fun row => row.1.length).Pairwise (· < ·) := by
    unfold onlyRow
    split
    · exact List.pairwise_singleton _ _
    · exact List.Pairwise.nil
  induction steps using row_induction with
  | whole row hrow =>
    exact ⟨onlyRow row, installBlocks_of_all hrow, honly row, fun _ _ => mem_onlyRow_iff hrow⟩
  | broken row x rest hrow hx ih =>
    obtain ⟨rows, hblocks, horder, hrows⟩ := ih
    let later := rows.map fun found => (row ++ x :: found.1, found.2)
    refine ⟨onlyRow row ++ later, ?_, ?_, fun front found => ?_⟩
    · rw [installBlocks_append_cons hx, installBlocks_of_all hrow, hblocks, List.map_append,
        List.map_map]
      rfl
    · have hlater : (later.map fun row => row.1.length).Pairwise (· < ·) := by
        rw [List.map_map, List.pairwise_map]
        exact (List.pairwise_map.mp horder).imp fun h => by simpa using h
      rw [List.map_append]
      refine List.pairwise_append.mpr ⟨honly row, hlater, fun m hm n hn => ?_⟩
      obtain ⟨found, hfound, rfl⟩ := List.mem_map.mp hm
      obtain ⟨_, hother, rfl⟩ := List.mem_map.mp hn
      obtain ⟨other, -, rfl⟩ := List.mem_map.mp hother
      have hfirst : found.1 = [] := ((isRow_of_all hrow).mp ((mem_onlyRow_iff hrow).mp hfound)).1
      simp only [hfirst, List.length_nil, List.length_append, List.length_cons]
      omega
    · rw [isRow_append_cons hx, List.mem_append, mem_onlyRow_iff hrow]
      refine or_congr_right ⟨fun h => ?_, ?_⟩
      · obtain ⟨⟨between, block⟩, hmem, heq⟩ := List.mem_map.mp h
        obtain ⟨rfl, rfl⟩ := Prod.mk.inj heq
        exact ⟨between, rfl, (hrows between block).mp hmem⟩
      · rintro ⟨between, rfl, h⟩
        exact List.mem_map_of_mem ((hrows between found).mpr h)

/-! ## Findings -/

/-- What is found of a row of installations. -/
def installRowFinding (row : List Instruction) : Finding :=
  ⟨"consolidate-run", .warning, firstLine row, installBlockMessage row⟩

theorem inspect_consolidateRun (steps : List Instruction) :
    consolidateRun.inspect steps = .ok ((installBlocks steps).map installRowFinding) := by
  rw [consolidateRun_eq, ofRemarks]
  dsimp only
  rw [installBlockRemarks, List.map_map]
  rfl

/--
The rule about neighbouring installations never fails. It finds one fault for each longest row of
two or more steps that all install packages, in the order of the rows, and nothing else: at the line
of the first step of the row, naming the size of the row and the lines of all its steps in order. So
a step that installs nothing divides the findings: what stands in front of it and what stands behind
it are inspected each for itself.
-/
theorem install_rows_found :
    (∀ steps : List Instruction, ∃ rows : List (List Instruction × List Instruction),
      consolidateRun.inspect steps = .ok (rows.map fun row => installRowFinding row.2) ∧
      (rows.map fun row => row.1.length).Pairwise (· < ·) ∧
      ∀ front row, (front, row) ∈ rows ↔ IsRow steps front row) ∧
    ∀ (before behind : List Instruction) (x : Instruction), x.installsPackages = false →
      ∃ found more, consolidateRun.inspect before = .ok found ∧
        consolidateRun.inspect behind = .ok more ∧
        consolidateRun.inspect (before ++ x :: behind) = .ok (found ++ more) := by
  constructor
  · intro steps
    obtain ⟨rows, hblocks, horder, hrows⟩ := exists_rows steps
    refine ⟨rows, ?_, horder, hrows⟩
    rw [inspect_consolidateRun, hblocks, List.map_map]
    rfl
  · intro before behind x hx
    refine ⟨_, _, inspect_consolidateRun before, inspect_consolidateRun behind, ?_⟩
    rw [inspect_consolidateRun, installBlocks_append_cons hx, List.map_append]

/-- A row of two installations, a single one in front of another stage, and a row of three at the
end. -/
theorem install_rows_found_of_two_stages :
    ∃ (d : Dockerfile) (before behind : List Instruction) (x : Instruction)
      (found more : List Finding),
      Dockerfile.parse
        (Text.concat ["FROM a\nRUN apk add b\nRUN npm ci\nENV C=1\nRUN yarn add d\nFROM e\n",
          "RUN go get f\nRUN gem install g\nRUN pip install h\n"]) = .ok d ∧
      d.instructions = before ++ x :: behind ∧ x.installsPackages = false ∧
      consolidateRun.inspect before = .ok found ∧ consolidateRun.inspect behind = .ok more ∧
      consolidateRun.inspect d.instructions = .ok (found ++ more) ∧
      found.map Finding.line = [2] ∧ more.map Finding.message =
        [Text.concat ["3 consecutive RUN instructions invoke package managers (lines 7, 8, 9); ",
          "combine them into a single RUN."]] := by
  let step (opcode : Opcode) (line : Nat) (arguments : List Text) : Instruction :=
    { opcode, arguments, line, endLine := line, raw := Text.joinWith " " arguments }
  let before : List Instruction :=
    [step .base 1 ["a"], step .run 2 ["apk", "add", "b"], step .run 3 ["npm", "ci"]]
  let x := step .env 4 ["C=1"]
  let behind : List Instruction :=
    [step .run 5 ["yarn", "add", "d"], step .base 6 ["e"], step .run 7 ["go", "get", "f"],
      step .run 8 ["gem", "install", "g"], step .run 9 ["pip", "install", "h"]]
  let d : Dockerfile :=
    { instructions := before ++ x :: behind, warnings := [], escape := .backslash }
  have hx : x.installsPackages = false := by decide +kernel
  obtain ⟨found, more, hfound, hmore, hwhole⟩ := install_rows_found.2 before behind x hx
  have hlines : (consolidateRun.inspect before).map (·.map Finding.line) = .ok [2] := by
    decide +kernel
  have hmessages : (consolidateRun.inspect behind).map (·.map Finding.message) =
      .ok [Text.concat ["3 consecutive RUN instructions invoke package managers (lines 7, 8, 9); ",
        "combine them into a single RUN."]] := by
    decide +kernel
  rw [hfound] at hlines
  rw [hmore] at hmessages
  exact ⟨d, before, behind, x, found, more, by decide +kernel, rfl, hx, hfound, hmore, hwhole,
    Except.ok.inj hlines, Except.ok.inj hmessages⟩

end Drydock.Rule
