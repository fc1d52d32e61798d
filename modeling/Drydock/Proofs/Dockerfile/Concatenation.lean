/-
  Reading one text behind another. `parse_append`: a text that is read and ends its last line can
  be followed by any other; the steps and warnings of both are found, or the fault of the second, all
  in the lines where they stand. Comments at the border are left out, since a comment above a step
  belongs to it, and so is another escape, since a header belongs to the whole text.
-/
import Drydock.Proofs.Dockerfile.Run
import Drydock.Proofs.Text.Line

namespace Drydock.Dockerfile

/-! ## Physical lines -/

theorem withoutMark_of_head {t : Text} (h : t.head? ≠ some mark) : withoutMark t = t := by
  cases t with
  | nil => rfl
  | cons c t =>
    rw [withoutMark]
    exact if_neg fun hc => h (by rw [hc]; rfl)

theorem withoutMark_append {t : Text} (h : t ≠ []) (u : Text) :
    withoutMark (t ++ u) = withoutMark t ++ u := by
  cases t with
  | nil => exact absurd rfl h
  | cons c t =>
    rw [List.cons_append, withoutMark, withoutMark]
    split <;> rfl

/-- A text that ends its last line does so without a mark at its front. -/
theorem endsLine_withoutMark {t u : Text} (h : Text.EndsLine t u) :
    Text.EndsLine (withoutMark t) u := by
  rcases h with rfl | ⟨c, hc, hend, hr⟩
  · exact Or.inl rfl
  · cases t with
    | nil => exact absurd hc (by simp)
    | cons d t =>
      rw [withoutMark]
      split
      · exact Text.EndsLine.tail (Or.inr ⟨c, hc, hend, hr⟩)
      · exact Or.inr ⟨c, hc, hend, hr⟩

theorem physicalLines_append {t u : Text} (h : Text.EndsLine (withoutMark t) u)
    (hu : u.head? ≠ some mark) :
    physicalLines (t ++ u) = physicalLines t ++ physicalLines u := by
  unfold physicalLines
  rw [withoutMark_of_head hu, ← Text.lines_append h]
  by_cases ht : t = []
  · rw [ht, List.nil_append, withoutMark_of_head hu]
    rfl
  · rw [withoutMark_append ht]

/-! ## Two texts -/

/-- Lines that begin with no comment have no header. -/
theorem ofLines_of_no_comment {lines : List Text}
    (h : ∀ line ∈ lines.head?, isCommentLine line = false) :
    ofLines lines = (readStatements Escape.backslash.char 0 false lines).map
      (ofStatements .backslash) := by
  have hh : Header.read .backslash 0 lines = .ok ⟨.backslash, 0⟩ := by
    cases lines with
    | nil => rfl
    | cons line rest => exact Header.read_cons_of_not_comment (h line rfl) _ _ _
  exact ofLines_of_header hh

theorem instructions_map_shift (n : Nat) (statements : List Statement) :
    (statements.map (Statement.shift n)).map Statement.instruction =
      (statements.map Statement.instruction).map (Instruction.shift n) := by
  rw [List.map_map, List.map_map]
  rfl

theorem warnings_map_shift (n : Nat) (statements : List Statement) :
    (statements.map (Statement.shift n)).filterMap Statement.warning =
      (statements.filterMap Statement.warning).map (UnknownKeyword.shift n) := by
  rw [List.filterMap_map, List.map_filterMap]
  rfl

/-- A text behind another is read as it is alone, but further down. -/
theorem parse_append (a b : Text) (first : Dockerfile)
    (hend : a = [] ∨ a.getLast? = some '\n') (ha : parse a = .ok first)
    (hescape : first.escape = .backslash)
    (hlast : ∀ line ∈ (physicalLines a).getLast?, isCommentLine line = false)
    (hmark : b.head? ≠ some mark)
    (hhead : ∀ line ∈ (physicalLines b).head?, isCommentLine line = false) :
    parse (a ++ b) =
      match parse b with
      | .ok second => .ok
          { instructions := first.instructions ++
              second.instructions.map (Instruction.shift (physicalLines a).length)
            warnings := first.warnings ++
              second.warnings.map (UnknownKeyword.shift (physicalLines a).length)
            escape := .backslash }
      | .error e => .error (e.shift (physicalLines a).length) := by
  obtain ⟨flag, hflag, hmore⟩ := exists_ofLines_append ha
  have hfalse : flag = false := by
    cases flag with
    | false => rfl
    | true =>
      obtain ⟨last, hmem, hcomment⟩ := hflag rfl
      exact absurd hcomment (by simp [hlast last hmem])
  have hshift := readStatements_shift Escape.backslash.char 0 (physicalLines a).length false
    (physicalLines b)
  rw [Nat.zero_add] at hshift
  unfold parse
  rw [physicalLines_append (endsLine_withoutMark (Text.endsLine_of_newline hend b)) hmark,
    hmore _ hhead, ofLines_of_no_comment hhead, hescape, hfalse, hshift]
  cases readStatements Escape.backslash.char 0 false (physicalLines b) with
  | error e => rfl
  | ok statements =>
    simp only [Except.map, Except.mapError, ofStatements, instructions_map_shift,
      warnings_map_shift]

/-- The second text holds a step, an unknown keyword and a body. -/
theorem parse_append_of_two_texts :
    parse ("FROM a\n" ++ "\nTRY x\nRUN y <<E\n# z\nE\n") = .ok
      { instructions :=
          [{ opcode := .base, arguments := ["a"], line := 1, endLine := 1, raw := "a" },
           { opcode := .other "TRY", arguments := ["x"], line := 3, endLine := 3, raw := "x" },
           { opcode := .run, arguments := ["y", "<<E"], line := 4, endLine := 6,
             raw := "y <<E\n# z" }]
        warnings := [⟨3, "TRY"⟩]
        escape := .backslash } := by
  have ha : parse "FROM a\n" = .ok
      { instructions := [{ opcode := .base, arguments := ["a"], line := 1, endLine := 1, raw := "a" }]
        warnings := []
        escape := .backslash } := by decide +kernel
  have hb : parse "\nTRY x\nRUN y <<E\n# z\nE\n" = .ok
      { instructions :=
          [{ opcode := .other "TRY", arguments := ["x"], line := 2, endLine := 2, raw := "x" },
           { opcode := .run, arguments := ["y", "<<E"], line := 3, endLine := 5,
             raw := "y <<E\n# z" }]
        warnings := [⟨2, "TRY"⟩]
        escape := .backslash } := by decide +kernel
  have h := parse_append "FROM a\n" "\nTRY x\nRUN y <<E\n# z\nE\n" _ (by decide) ha rfl
    (by decide +kernel) (by decide +kernel) (by decide +kernel)
  rw [h, hb]
  rfl

end Drydock.Dockerfile
