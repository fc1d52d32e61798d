/-
  The last user. What shapes the final stage are the steps of its whole lineage, the furthest stage
  first. A further step that opens no stage comes behind all of them (`finalSteps_concat`), so it
  changes nothing unless it chooses a user, and then nothing else counts (`last_user_decides`).
-/
import Drydock.Dockerfile.Parser
import Drydock.Proofs.Rule.Access

namespace Drydock

theorem Text.cut_fst_eq_takeWhile (separator : Char) (t : Text) :
    (cut separator t).1 = t.takeWhile (· ≠ separator) := by
  induction t with
  | nil => rfl
  | cons c t ih => by_cases h : c = separator <;> simp [cut, h, ih]

namespace Stage

/-- A further step in a stage leaves it built on the same stages. -/
theorem lineageFrom_extend (table : OrderedMap Text Stage) (s : Stage) (i : Instruction) :
    ∃ rest, lineageFrom table s = s :: rest ∧
      lineageFrom table (s.extend i) = s.extend i :: rest := by
  have hbase : (s.extend i).base = s.base := rfl
  rw [lineageFrom, lineageFrom, hbase]
  split
  · exact ⟨[], rfl, rfl⟩
  · cases table.get? s.base.name with
    | none => exact ⟨[], rfl, rfl⟩
    | some parent =>
      by_cases hbefore : parent.index < s.index
      · exact ⟨lineageFrom table parent, if_pos hbefore, if_pos hbefore⟩
      · exact ⟨[], if_neg hbefore, if_neg hbefore⟩

end Stage

namespace Rule

variable {instructions rest : List Instruction} {i : Instruction}

/-- A further step comes last among those that shape the final stage, unless it opens one. -/
theorem finalSteps_concat (h : i.opcode ≠ .base) :
    finalSteps (instructions ++ [i]) =
      ((finalSteps instructions).1 ++ [i], (finalSteps instructions).2) := by
  have hnumbered := Stage.isNumbered_split instructions
  unfold finalSteps
  rcases List.eq_nil_or_concat (Stage.split instructions).stages with hnone | ⟨stages, s, hlast⟩
  · rw [Stage.split_concat_front h hnone, hnone]
    rfl
  · rw [List.concat_eq_append] at hlast
    rw [hlast] at hnumbered
    have hindex : s.index = stages.length := Stage.index_of_append hnumbered
    obtain ⟨behind, hlineage, hextended⟩ := Stage.lineageFrom_extend (Stage.byName stages) s i
    have hfront (s' : Stage) (hs' : s'.index = s.index) :
        Stage.lineage (stages ++ [s']) s' = Stage.lineageFrom (Stage.byName stages) s' := by
      rw [Stage.lineage, hs', hindex, List.take_left]
    rw [Stage.split_concat_step h hlast, hlast]
    dsimp only
    rw [List.getLast?_concat, List.getLast?_concat]
    dsimp only
    rw [hfront s rfl, hfront (s.extend i) rfl, hlineage, hextended, List.reverse_cons,
      List.reverse_cons, List.flatMap_append, List.flatMap_append]
    simp [Stage.extend]

/-! ## Remarks -/

theorem userRemarks_concat_of_ne (hbase : i.opcode ≠ .base) (huser : i.opcode ≠ .user) :
    userRemarks (instructions ++ [i]) = userRemarks instructions := by
  unfold userRemarks
  rw [finalSteps_concat hbase]
  simp [huser]

/-- As many further steps that choose no user and open no stage change nothing. -/
theorem userRemarks_append (h : ∀ i ∈ rest, i.opcode ≠ .base ∧ i.opcode ≠ .user) :
    userRemarks (instructions ++ rest) = userRemarks instructions := by
  induction rest using List.reverseRecOn with
  | nil => rw [List.append_nil]
  | append_singleton rest i ih =>
    obtain ⟨hrest, hi⟩ := List.forall_mem_append.mp h
    obtain ⟨hbase, huser⟩ := hi i (List.mem_singleton_self i)
    rw [← List.append_assoc, userRemarks_concat_of_ne hbase huser, ih hrest]

/-- A step that chooses a user is all that counts if it comes last. -/
theorem userRemarks_concat_user (h : i.opcode = .user) :
    userRemarks (instructions ++ [i]) =
      if isRootUser (chosenUser i) then [((i.line : Int), rootUserMessage (chosenUser i))]
      else [] := by
  have hbase : i.opcode ≠ .base := by simp [h]
  unfold userRemarks
  rw [finalSteps_concat hbase]
  simp [h]

/-- A user is root, by name or by number, in whatever group. -/
def NamesRoot (user : Text) : Prop :=
  Text.lower (user.takeWhile (· ≠ ':')) ∈ (["root", "0"] : List Text)

instance (user : Text) : Decidable (NamesRoot user) := inferInstanceAs (Decidable (_ ∈ _))

theorem isRootUser_iff {user : Text} : isRootUser user = true ↔ NamesRoot user := by
  simp [isRootUser, isRootName, NamesRoot, Text.cut_fst_eq_takeWhile]

/--
The rule about users never fails. Where a further step neither chooses a user nor opens a stage, it
finds the same as without it. Where the step chooses a user, nothing counts but this step, whatever
stands before it, and however many steps follow that choose no user and open no stage: nothing is
found if the user is not root, or if no user is named in an array of strings, and otherwise one
fault at the line of the step, which quotes the user.
-/
theorem last_user_decides (instructions : List Instruction) (i : Instruction) :
    (∃ found, nonRootUser.inspect instructions = .ok found) ∧
    (i.opcode ≠ .user → i.opcode ≠ .base →
      nonRootUser.inspect (instructions ++ [i]) = nonRootUser.inspect instructions) ∧
    (i.opcode = .user → ∀ rest : List Instruction,
      (∀ j ∈ rest, j.opcode ≠ .base ∧ j.opcode ≠ .user) →
      (∀ user ∈ i.arguments.head?, NamesRoot user →
        nonRootUser.inspect (instructions ++ i :: rest) =
          .ok [⟨"non-root-user", .error, i.line, rootUserMessage user⟩]) ∧
      ((∀ user ∈ i.arguments.head?, ¬NamesRoot user) →
        nonRootUser.inspect (instructions ++ i :: rest) = .ok [])) := by
  rw [nonRootUser_eq]
  refine ⟨⟨_, rfl⟩, fun huser hbase => ?_, fun huser rest hrest => ?_⟩
  · dsimp only [ofRemarks]
    rw [userRemarks_concat_of_ne hbase huser]
  · have hremarks : userRemarks (instructions ++ i :: rest) =
        if isRootUser (chosenUser i) then [((i.line : Int), rootUserMessage (chosenUser i))]
        else [] := by
      rw [List.append_cons, userRemarks_append hrest, userRemarks_concat_user huser]
    dsimp only [ofRemarks]
    rw [hremarks]
    refine ⟨fun user hhead hroot => ?_, fun hother => ?_⟩
    · have hchosen : chosenUser i = user := by rw [chosenUser, Option.mem_def.mp hhead]; rfl
      rw [hchosen, if_pos (isRootUser_iff.mpr hroot)]
      rfl
    · have hnot : ¬isRootUser (chosenUser i) = true := by
        rw [isRootUser_iff, chosenUser]
        cases hhead : i.arguments.head? with
        | none => decide
        | some user => exact hother user hhead
      rw [if_neg hnot]
      rfl

/-- The final stage is built on one with a user that is not root, then chooses root in capital
letters and with a group, and goes on. -/
theorem last_user_decides_of_root_in_final_stage :
    ∃ (d : Dockerfile) (front rest : List Instruction) (i : Instruction) (user : Text),
      Dockerfile.parse "FROM x AS a\nUSER app\nFROM a\nUSER Root:app\nRUN y\n" = .ok d ∧
      d.instructions = front ++ i :: rest ∧ i.opcode = .user ∧ i.arguments.head? = some user ∧
      NamesRoot user ∧ (∀ j ∈ rest, j.opcode ≠ .base ∧ j.opcode ≠ .user) ∧
      nonRootUser.inspect front = .ok [] ∧
      nonRootUser.inspect d.instructions =
        .ok [⟨"non-root-user", .error, 4, rootUserMessage "Root:app"⟩] := by
  let front : List Instruction :=
    [{ opcode := .base, arguments := ["x", "AS", "a"], line := 1, endLine := 1, raw := "x AS a" },
      { opcode := .user, arguments := ["app"], line := 2, endLine := 2, raw := "app" },
      { opcode := .base, arguments := ["a"], line := 3, endLine := 3, raw := "a" }]
  let i : Instruction :=
    { opcode := .user, arguments := ["Root:app"], line := 4, endLine := 4, raw := "Root:app" }
  let rest : List Instruction :=
    [{ opcode := .run, arguments := ["y"], line := 5, endLine := 5, raw := "y" }]
  let d : Dockerfile := { instructions := front ++ i :: rest, warnings := [], escape := .backslash }
  have hroot : NamesRoot "Root:app" := by decide
  have hrest : ∀ j ∈ rest, j.opcode ≠ .base ∧ j.opcode ≠ .user := by decide
  exact ⟨d, front, rest, i, "Root:app", by decide +kernel, rfl, rfl, rfl, hroot, hrest,
    by decide +kernel, ((last_user_decides front i).2.2 rfl rest hrest).1 _ rfl hroot⟩

end Rule

end Drydock
