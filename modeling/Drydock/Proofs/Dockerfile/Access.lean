/-
  Accesses to the parts of steps. None of them raises a fault: a text that has words is not blank,
  so it has a first field (`checkedKeyValues_eq`), and a step that opens no stage finds one to
  belong to unless it stands before all of them. Stages found step by step are those of the division
  of all steps (`checkedSplit_eq`).
-/
import Drydock.Dockerfile.Stage
import Drydock.Proofs.Text.Word
import Mathlib.Data.List.Induction

namespace Drydock

/-! ## Fields of texts -/

namespace Text

/-- Blanks alone leave nothing to be read further. -/
theorem read_of_blank {t : Text} (h : ∀ c ∈ t, isBlank c = true) : WordScan.read {} t = {} := by
  induction t with
  | nil => rfl
  | cons c t ih =>
    obtain ⟨hc, ht⟩ := List.forall_mem_cons.mp h
    have hslash : c ≠ '\\' := by
      rintro rfl
      exact absurd hc (by decide)
    have hquote : ¬(c = '"' ∨ c = '\'') := by
      rintro (rfl | rfl) <;> exact absurd hc (by decide)
    have hstep : WordScan.step {} c = {} := by
      have hend : WordScan.endWord {} = {} := rfl
      simp [WordScan.step, hc, hslash, hquote, hend]
    rw [WordScan.read_cons, hstep, ih ht]

/-- A text that has words is not blank, not even if these are blanks behind a backslash. -/
theorem exists_solid_of_shellWords {t : Text} (h : shellWords t ≠ []) :
    ∃ c ∈ t, isBlank c = false := by
  by_contra hnone
  have hblank : ∀ c ∈ t, isBlank c = true := by
    intro c hc
    by_contra hsolid
    exact hnone ⟨c, hc, Bool.eq_false_iff.mpr hsolid⟩
  exact h (by rw [shellWords, read_of_blank hblank]; rfl)

theorem isTight_strip_of_mem {t : Text} {c : Char} (hc : c ∈ t) (hsolid : isBlank c = false) :
    IsTight (strip t) := by
  refine (strip_eq_nil_or_isTight t).resolve_left fun hnil => ?_
  have hleft : stripLeft t ≠ [] := by
    intro hempty
    exact absurd (List.dropWhile_eq_nil_iff.mp hempty c hc) (by simp [hsolid])
  obtain ⟨d, u, hd⟩ := List.exists_cons_of_ne_nil hleft
  have hhead : isBlank d = false := head_stripLeft t d (by rw [hd]; rfl)
  have hblank := (stripRight_eq_nil_iff (stripLeft t)).mp hnil d
    (by rw [hd]; exact List.mem_cons_self)
  exact absurd hblank (by simp [hhead])

theorem firstField_fst_ne_nil {t : Text} (h : IsTight t) : (firstField t).1 ≠ [] := by
  obtain ⟨c, u, rfl, hc, -⟩ := (isTight_iff t).mp h
  have hleft : stripLeft (c :: u) = c :: u := List.dropWhile_cons_of_neg (by simp [hc])
  rw [firstField, hleft, List.takeWhile_cons_of_pos (by simp [hc])]
  exact List.cons_ne_nil _ _

theorem checkedUnquote_eq (t : Text) : checkedUnquote t = .ok (unquote t) := by
  match t with
  | [] => rfl
  | [c] => simp [checkedUnquote, unquote, pure, Except.pure]
  | c :: d :: rest =>
    obtain ⟨final, hfinal⟩ : ∃ final, (d :: rest).getLast? = some final :=
      ⟨_, List.getLast?_eq_some_getLast (List.cons_ne_nil _ _)⟩
    have hlast : (c :: d :: rest).getLast? = some final := by
      rw [List.getLast?_cons_cons, hfinal]
    have hsame : (!(d :: rest).isEmpty && (c = '"' || c = '\'') && some final = some c) =
        (c = final && (c = '"' || c = '\'')) := by
      by_cases hc : c = final
      · simp [hc]
      · simp [hc, Ne.symm hc]
    rw [checkedUnquote, if_neg (by simp), Access.item_zero, Access.last_of_getLast? hlast, unquote,
      hfinal, hsame]
    rfl

end Text

/-! ## Keys and values -/

namespace Instruction

theorem checkedLegacyEntry_eq {raw : Text} (h : Text.IsTight raw) :
    checkedLegacyEntry raw = .ok (legacyEntry raw) := by
  have hword := Text.firstField_fst_ne_nil h
  obtain ⟨word, rest, hfields⟩ : ∃ word rest, Text.firstField raw = (word, rest) := ⟨_, _, rfl⟩
  rw [hfields] at hword
  -- The first field is there, and the second one only if something follows.
  obtain ⟨others, hhead, hvalue⟩ :
      ∃ others, Text.headFields raw = word :: others ∧ others[0]?.getD [] = rest := by
    unfold Text.headFields
    rw [hfields]
    dsimp only
    rw [List.filter_cons_of_pos (by simpa using hword)]
    cases rest with
    | nil => exact ⟨[], rfl, rfl⟩
    | cons c rest => exact ⟨[c :: rest], rfl, rfl⟩
  unfold checkedLegacyEntry legacyEntry
  dsimp only
  rw [hhead, hfields, Access.itemOr_eq, Access.item_zero, List.getElem?_cons_succ, hvalue]
  show (Text.checkedUnquote (Text.strip rest) >>= _) = _
  rw [Text.checkedUnquote_eq]
  rfl

theorem checkedIsLegacy_eq (i : Instruction) (word : Text) (rest : List Text) :
    i.checkedIsLegacy (word :: rest) = .ok (i.opcode = .env && !word.contains '=') := by
  unfold checkedIsLegacy
  by_cases henv : i.opcode = .env
  · simp only [henv, if_true, Access.item_zero, decide_true, Bool.true_and]
    rfl
  · simp only [henv, if_false, decide_false, Bool.false_and]
    rfl

/-- The keys and values of a step are found without a fault. -/
theorem checkedKeyValues_eq (i : Instruction) : i.checkedKeyValues = .ok i.keyValues := by
  unfold checkedKeyValues keyValues
  cases hwords : Text.shellWords i.raw with
  | nil => rfl
  | cons word rest =>
    obtain ⟨c, hc, hsolid⟩ := Text.exists_solid_of_shellWords (hwords ▸ List.cons_ne_nil word rest)
    dsimp only
    rw [checkedIsLegacy_eq, checkedLegacyEntry_eq (Text.isTight_strip_of_mem hc hsolid)]
    cases (i.opcode = .env && !word.contains '=' : Bool) <;> rfl

end Instruction

/-! ## Base images -/

namespace ImageReference

theorem checkedStageName_eq (arguments : List Text) :
    checkedStageName arguments = .ok (stageNameOf arguments) := by
  match arguments with
  | [] => rfl
  | [_] => rfl
  | [_, _] => rfl
  | target :: word :: name :: rest =>
    have hword : Access.item (target :: word :: name :: rest) 1 = .ok word := rfl
    have hname : Access.item (target :: word :: name :: rest) 2 = .ok name := rfl
    rw [checkedStageName, if_neg (by simp), stageNameOf, hword, hname]
    show (if Text.lower word = "as" then Except.ok _ else Except.ok _) = _
    split <;> rfl

/-- The target of a step is found without a fault. -/
theorem checkedOfInstruction_eq (i : Instruction) (values : OrderedMap Text Text) :
    checkedOfInstruction i values = .ok (ofInstruction i values) := by
  rw [checkedOfInstruction, Access.itemOr_eq, checkedStageName_eq, ofInstruction,
    List.head?_eq_getElem?]
  rfl

end ImageReference

/-! ## Stages -/

namespace Stage

variable {instructions : List Instruction} {i : Instruction}

theorem divide_concat_base (h : i.opcode = .base) :
    divide (instructions ++ [i]) =
      ((divide instructions).1, (divide instructions).2 ++ [(i, [])]) := by
  induction instructions with
  | nil => simp [divide, h]
  | cons first rest ih =>
    rw [List.cons_append, divide, divide, ih]
    by_cases hfirst : first.opcode = .base <;> simp [hfirst]

theorem divide_concat_front (h : i.opcode ≠ .base) (hnone : (divide instructions).2 = []) :
    divide (instructions ++ [i]) = ((divide instructions).1 ++ [i], []) := by
  induction instructions with
  | nil => simp [divide, h]
  | cons first rest ih =>
    rw [divide] at hnone
    by_cases hfirst : first.opcode = .base
    · simp [hfirst] at hnone
    · simp only [hfirst, if_false] at hnone
      rw [List.cons_append, divide, divide, ih hnone]
      simp [hfirst]

theorem divide_concat_step (h : i.opcode ≠ .base) {groups : List (Instruction × List Instruction)}
    {opening : Instruction} {steps : List Instruction}
    (hlast : (divide instructions).2 = groups ++ [(opening, steps)]) :
    divide (instructions ++ [i]) =
      ((divide instructions).1, groups ++ [(opening, steps ++ [i])]) := by
  induction instructions generalizing groups steps with
  | nil => simp [divide] at hlast
  | cons first rest ih =>
    rw [divide] at hlast
    by_cases hfirst : first.opcode = .base
    · simp only [hfirst, if_true] at hlast
      rw [List.cons_append, divide, divide]
      cases groups with
      | nil =>
        -- The step is the first one behind the only stage.
        rw [List.nil_append, List.cons.injEq, Prod.mk.injEq] at hlast
        obtain ⟨⟨rfl, rfl⟩, hnone⟩ := hlast
        rw [divide_concat_front h hnone]
        simp [hfirst]
      | cons group groups =>
        rw [List.cons_append, List.cons.injEq] at hlast
        obtain ⟨rfl, hrest⟩ := hlast
        rw [ih hrest]
        simp [hfirst]
    · simp only [hfirst, if_false] at hlast
      rw [List.cons_append, divide, divide, ih hlast]
      simp [hfirst]

/-- The stage with a number that a step and those behind it make. -/
def ofGroup (values : OrderedMap Text Text) (g : (Instruction × List Instruction) × Nat) : Stage :=
  { index := g.2
    opening := g.1.1
    instructions := g.1.2
    base := ImageReference.ofInstruction g.1.1 values }

theorem split_eq (instructions : List Instruction) :
    split instructions =
      ⟨declaredArgs (divide instructions).1,
        (divide instructions).2.zipIdx.map (ofGroup (declaredArgs (divide instructions).1))⟩ :=
  rfl

/-- A step that opens a stage adds one without steps. -/
theorem split_concat_base (h : i.opcode = .base) :
    split (instructions ++ [i]) =
      { split instructions with
        stages := (split instructions).stages ++
          [⟨(split instructions).stages.length, i,
            ImageReference.ofInstruction i (split instructions).globalArgs, []⟩] } := by
  rw [split_eq, divide_concat_base h, split_eq]
  simp [List.zipIdx_append, ofGroup]

/-- A step before all stages only declares arguments. -/
theorem split_concat_front (h : i.opcode ≠ .base) (hnone : (split instructions).stages = []) :
    split (instructions ++ [i]) =
      { split instructions with
        globalArgs := (split instructions).globalArgs.insertAll (declared i) } := by
  have hdivide : (divide instructions).2 = [] := by simpa [split_eq] using hnone
  rw [split_eq, divide_concat_front h hdivide, split_eq, hdivide]
  simp [declaredArgs, OrderedMap.ofList, OrderedMap.insertAll]

/-- Another step belongs to the last stage. -/
theorem split_concat_step (h : i.opcode ≠ .base) {stages : List Stage} {s : Stage}
    (hlast : (split instructions).stages = stages ++ [s]) :
    split (instructions ++ [i]) =
      { split instructions with stages := stages ++ [s.extend i] } := by
  rcases List.eq_nil_or_concat (divide instructions).2 with
    hnil | ⟨groups, ⟨opening, steps⟩, hgroups⟩
  · simp [split_eq, hnil] at hlast
  · rw [List.concat_eq_append] at hgroups
    rw [split_eq, hgroups, List.zipIdx_append, List.map_append] at hlast
    obtain ⟨rfl, hs⟩ := List.append_inj' hlast rfl
    obtain rfl := List.singleton_inj.mp hs
    rw [split_eq, divide_concat_step h hgroups, List.zipIdx_append, List.map_append, split_eq]
    rfl

end Stage

namespace Stages

/-- Steps are divided into stages without a fault. -/
theorem checkedSplit_eq (instructions : List Instruction) :
    checkedSplit instructions = .ok (Stage.split instructions) := by
  induction instructions using List.reverseRecOn with
  | nil => rfl
  | append_singleton instructions i ih =>
    rw [checkedSplit, List.foldlM_append, ← checkedSplit, ih]
    show List.foldlM checkedAdd (Stage.split instructions) [i] = _
    rw [List.foldlM_cons, checkedAdd]
    by_cases hbase : i.opcode = .base
    · rw [if_pos hbase, ImageReference.checkedOfInstruction_eq, Stage.split_concat_base hbase]
      rfl
    · rw [if_neg hbase]
      rcases List.eq_nil_or_concat (Stage.split instructions).stages with hnone | ⟨stages, s, hlast⟩
      · rw [if_pos (by rw [hnone]; rfl), Stage.split_concat_front hbase hnone, Stage.declared]
        by_cases harg : i.opcode = .arg
        · rw [if_pos harg, if_pos harg, Instruction.checkedKeyValues_eq]
          rfl
        · rw [if_neg harg, if_neg harg]
          rfl
      · rw [List.concat_eq_append] at hlast
        have hcurrent : (Stage.split instructions).stages.getLast? = some s := by
          rw [hlast, List.getLast?_concat]
        rw [if_neg (by simp [hlast]), Access.last_of_getLast? hcurrent,
          Stage.split_concat_step hbase hlast, hlast]
        show Except.ok _ = _
        rw [List.dropLast_concat]

end Stages

end Drydock
