/-
  Where steps lie. The lines of the steps of a Dockerfile follow each other without overlap; each
  step begins on a line that is neither blank nor a comment, and every line outside all steps is
  one of these (`parse_layout`). `Layout` is the invariant: a line passed over and a step keep it.
-/
import Drydock.Proofs.Dockerfile.Run

namespace Drydock.Dockerfile

/-- Steps that lie on `lines`, the first of which is behind `n` others. -/
structure Layout (n : Nat) (lines : List Text) (instructions : List Instruction) : Prop where
  inside : ∀ i ∈ instructions, n < i.line ∧ i.line ≤ i.endLine ∧ i.endLine ≤ n + lines.length
  apart : instructions.Pairwise fun i j => i.endLine < j.line
  begun : ∀ i ∈ instructions, ∃ k line, i.line = n + k + 1 ∧ lines[k]? = some line ∧
    isSkippedLine line = false
  covered : ∀ k line, lines[k]? = some line → isSkippedLine line = true ∨
    ∃ i ∈ instructions, i.line ≤ n + k + 1 ∧ n + k + 1 ≤ i.endLine

namespace Layout

variable {n : Nat} {line : Text} {rest lines : List Text} {instructions : List Instruction}

theorem nil (n : Nat) : Layout n [] [] where
  inside := fun _ h => absurd h List.not_mem_nil
  apart := List.Pairwise.nil
  begun := fun _ h => absurd h List.not_mem_nil
  covered := fun k _ h => absurd h (by simp)

/-- A line passed over moves the steps one line down. -/
theorem skip (hs : isSkippedLine line = true) (h : Layout (n + 1) rest instructions) :
    Layout n (line :: rest) instructions where
  inside := by
    intro i hi
    have := h.inside i hi
    rw [List.length_cons]
    omega
  apart := h.apart
  begun := by
    intro i hi
    obtain ⟨k, first, hk, hfirst, hsolid⟩ := h.begun i hi
    exact ⟨k + 1, first, by omega, hfirst, hsolid⟩
  covered := by
    intro k other hother
    cases k with
    | zero =>
      obtain rfl := Option.some.inj hother
      exact Or.inl hs
    | succ k =>
      refine (h.covered k other hother).imp_right ?_
      rintro ⟨i, hi, hle⟩
      exact ⟨i, hi, by omega⟩

/-- A step on the first line takes some lines from the steps behind it. -/
theorem step {i : Instruction} {extra : Nat} (hs : isSkippedLine line = false)
    (hline : i.line = n + 1) (hend : i.endLine = n + 1 + extra) (hle : extra ≤ rest.length)
    (h : Layout (n + 1 + extra) (rest.drop extra) instructions) :
    Layout n (line :: rest) (i :: instructions) where
  inside := by
    intro j hj
    rw [List.length_cons]
    rcases List.mem_cons.mp hj with rfl | hj
    · omega
    · have := h.inside j hj
      rw [List.length_drop] at this
      omega
  apart := by
    refine List.pairwise_cons.mpr ⟨fun j hj => ?_, h.apart⟩
    have := h.inside j hj
    omega
  begun := by
    intro j hj
    rcases List.mem_cons.mp hj with rfl | hj
    · exact ⟨0, line, hline, rfl, hs⟩
    · obtain ⟨k, first, hk, hfirst, hsolid⟩ := h.begun j hj
      rw [List.getElem?_drop] at hfirst
      exact ⟨extra + k + 1, first, by omega, hfirst, hsolid⟩
  covered := by
    intro k other hother
    by_cases hk : k ≤ extra
    · exact Or.inr ⟨i, List.mem_cons_self, by omega⟩
    · -- The line is below the step, so the steps behind it answer for it.
      obtain ⟨below, rfl⟩ : ∃ below, k = extra + below + 1 := ⟨k - extra - 1, by omega⟩
      rw [List.getElem?_cons_succ, ← List.getElem?_drop] at hother
      refine (h.covered below other hother).imp_right ?_
      rintro ⟨j, hj, hle⟩
      exact ⟨j, List.mem_cons_of_mem _ hj, by omega⟩

/-- Lines passed over move the steps down by their number. -/
theorem skips {front : List Text} (hs : ∀ line ∈ front, isSkippedLine line = true)
    (h : Layout (n + front.length) lines instructions) :
    Layout n (front ++ lines) instructions := by
  induction front generalizing n with
  | nil => exact h
  | cons line front ih =>
    refine skip (hs line List.mem_cons_self) (ih (fun other ho => ?_) ?_)
    · exact hs other (List.mem_cons_of_mem _ ho)
    · rwa [List.length_cons, Nat.add_comm front.length, ← Nat.add_assoc] at h

end Layout

theorem isSkippedLine_of_comment {line : Text} (h : isCommentLine line = true) :
    isSkippedLine line = true := by
  unfold isSkippedLine
  rw [h, Bool.or_true]

/-- A run lays its steps out on its lines. -/
theorem layout_readStatements {escape : Char} {n : Nat} {flag : Bool} {lines : List Text}
    {statements : List Statement} (h : readStatements escape n flag lines = .ok statements) :
    Layout n lines (statements.map Statement.instruction) := by
  induction n, flag, lines using run_induction escape generalizing statements with
  | nil n flag =>
    rw [readStatements_nil] at h
    obtain rfl := Except.ok.inj h
    exact Layout.nil n
  | skip n flag line rest hs ih =>
    rw [readStatements_skip hs] at h
    exact Layout.skip hs (ih h)
  | fault n flag line rest cause hs hr =>
    rw [readStatements_fault hs hr] at h
    exact absurd h (by simp)
  | step n flag line rest r hs hr ih =>
    rw [readStatements_step hs hr] at h
    obtain ⟨tail, htail, rfl⟩ := exists_of_map_eq_ok h
    exact Layout.step hs rfl rfl (Reading.extra_le hr) (ih htail)

theorem layout_ofLines {lines : List Text} {d : Dockerfile} (h : ofLines lines = .ok d) :
    Layout 0 lines d.instructions := by
  obtain ⟨header, statements, hh, hs, rfl⟩ := ofLines_eq_ok_iff.mp h
  have hsize := (Header.size_bounds hh).2
  have hfront : (lines.take header.size).length = header.size := by
    rw [List.length_take]
    omega
  rw [← List.take_append_drop header.size lines]
  refine Layout.skips (fun line hline => ?_) ?_
  · exact isSkippedLine_of_comment (Header.isCommentLine_of_mem_take hh line hline)
  · rw [hfront, Nat.zero_add]
    exact layout_readStatements hs

/-- No line is lost and none belongs to two steps: the steps lie inside the text and apart from
each other, each begins on a line that is neither blank nor a comment, and all other lines outside
the steps are blank or comments. -/
theorem parse_layout (t : Text) (d : Dockerfile) (h : parse t = .ok d) :
    (∀ i ∈ d.instructions,
      1 ≤ i.line ∧ i.line ≤ i.endLine ∧ i.endLine ≤ (physicalLines t).length) ∧
    d.instructions.Pairwise (fun i j => i.endLine < j.line) ∧
    (∀ i ∈ d.instructions, ∃ line, (physicalLines t)[i.line - 1]? = some line ∧
      Text.strip line ≠ [] ∧ isCommentLine line = false) ∧
    (∀ k line, (physicalLines t)[k]? = some line →
      (∀ i ∈ d.instructions, ¬ (i.line ≤ k + 1 ∧ k + 1 ≤ i.endLine)) →
      Text.strip line = [] ∨ isCommentLine line = true) := by
  have hlayout := layout_ofLines h
  refine ⟨fun i hi => ?_, hlayout.apart, fun i hi => ?_, fun k line hline hout => ?_⟩
  · have := hlayout.inside i hi
    omega
  · obtain ⟨k, line, hk, hline, hsolid⟩ := hlayout.begun i hi
    unfold isSkippedLine at hsolid
    obtain ⟨hblank, hcomment⟩ := Bool.or_eq_false_iff.mp hsolid
    refine ⟨line, ?_, by simpa using hblank, hcomment⟩
    rw [hk, Nat.zero_add, Nat.add_sub_cancel]
    exact hline
  · rcases hlayout.covered k line hline with hs | ⟨i, hi, hin⟩
    · unfold isSkippedLine at hs
      exact (Bool.or_eq_true_iff.mp hs).imp_left List.isEmpty_iff.mp
    · rw [Nat.zero_add] at hin
      exact absurd hin (hout i hi)

/-- A comment, a step, an empty line, and a step that takes two lines. -/
theorem parse_layout_of_continued_step :
    ∃ d, parse "# base\nFROM a\n\nRUN x \\\n  y\n" = .ok d ∧
      d.instructions.map (fun i => (i.line, i.endLine)) = [(2, 2), (4, 5)] ∧
      d.instructions.Pairwise (fun i j => i.endLine < j.line) := by
  have h : parse "# base\nFROM a\n\nRUN x \\\n  y\n" = .ok
      { instructions :=
          [{ opcode := .base, arguments := ["a"], line := 2, endLine := 2, raw := "a",
             commented := true },
           { opcode := .run, arguments := ["x", "y"], line := 4, endLine := 5, raw := "x y" }]
        warnings := []
        escape := .backslash } := by decide +kernel
  exact ⟨_, h, rfl, (parse_layout _ _ h).2.1⟩

end Drydock.Dockerfile
