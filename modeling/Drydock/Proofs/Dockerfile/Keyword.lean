/-
  What a keyword decides. Small and capital letters make the same keyword, and the name of an opcode
  is a keyword for it (`opcodeOf_name`). A keyword that builders know is never refused for its
  letters, and one that takes bodies is not refused at all.
-/
import Mathlib
import Drydock.Dockerfile.Parser
import Drydock.Proofs.Dockerfile.Heredoc

namespace Drydock

namespace Text

theorem isBlank_of_isAsciiLetter {c : Char} (h : isAsciiLetter c = true) : isBlank c = false :=
  isBlank_of_isNameStart (by simp [isNameStart, h])

end Text

theorem Opcode.isKeyword_name_of_isKnown {op : Opcode} (h : op.isKnown = true) :
    Dockerfile.isKeyword op.name = true := by
  cases op with
  | other name => exact absurd h (by simp [isKnown])
  | _ => decide

theorem Opcode.isKnown_of_takesHeredoc {op : Opcode} (h : op.takesHeredoc = true) :
    op.isKnown = true := by
  cases op with
  | other name => exact absurd h (by simp [takesHeredoc])
  | _ => rfl

namespace Dockerfile

theorem isKeyword_iff {word : Text} :
    isKeyword word = true ↔ word ≠ [] ∧ ∀ c ∈ word, Text.isAsciiLetter c = true := by
  simp [isKeyword]

/-- Small and capital letters make the same keywords. -/
theorem isKeyword_map_toUpper (word : Text) :
    isKeyword (word.map Char.toUpper) = isKeyword word := by
  unfold isKeyword Text.isAsciiLetter
  rw [List.isEmpty_map, List.all_map]
  simp [Function.comp_def]

theorem name_opcodeOf (keyword : Text) : (opcodeOf keyword).name = keyword.map Char.toUpper :=
  Opcode.name_ofName _

/-- The name of a keyword's opcode is a keyword with the same opcode. -/
theorem opcodeOf_name (keyword : Text) : opcodeOf (opcodeOf keyword).name = opcodeOf keyword := by
  rw [name_opcodeOf, opcodeOf, List.map_map, opcodeOf]
  congr 2
  funext c
  exact Char.toUpper_toUpper_eq_toUpper c

theorem isKeyword_of_isKnown {keyword : Text} (h : (opcodeOf keyword).isKnown = true) :
    isKeyword keyword = true := by
  rw [← isKeyword_map_toUpper, ← name_opcodeOf]
  exact Opcode.isKeyword_name_of_isKnown h

theorem isKeyword_of_admitted {keyword arguments : Text} (h : refusal? keyword arguments = none) :
    isKeyword keyword = true := by
  cases hkeyword : isKeyword keyword with
  | true => rfl
  | false => exact absurd h (by simp [refusal?, hkeyword])

/-- The name of a keyword's opcode is admitted with the same arguments. -/
theorem refusal?_name_opcodeOf {keyword arguments : Text}
    (h : refusal? keyword arguments = none) :
    refusal? (opcodeOf keyword).name arguments = none := by
  have hkeyword := isKeyword_of_admitted h
  have hname : isKeyword (opcodeOf keyword).name = true := by
    rw [name_opcodeOf, isKeyword_map_toUpper, hkeyword]
  unfold refusal? at h ⊢
  rw [hname, opcodeOf_name]
  rw [hkeyword] at h
  exact h

theorem markersOf_name_opcodeOf (keyword arguments : Text) (execForm : Bool) :
    markersOf (opcodeOf keyword).name arguments execForm =
      markersOf keyword arguments execForm := by
  unfold markersOf
  rw [opcodeOf_name]

/-- An array of strings announces no bodies. -/
theorem markersOf_exec (keyword arguments : Text) : markersOf keyword arguments true = [] := by
  rw [markersOf, Bool.not_true, Bool.and_false]
  rfl

/-- An instruction that takes bodies needs no arguments. -/
theorem refusal?_of_takesHeredoc {keyword : Text} (h : (opcodeOf keyword).takesHeredoc = true)
    (arguments : Text) : refusal? keyword arguments = none := by
  have hbase : opcodeOf keyword ≠ .base := fun hop => absurd h (by simp [hop, Opcode.takesHeredoc])
  have huser : opcodeOf keyword ≠ .user := fun hop => absurd h (by simp [hop, Opcode.takesHeredoc])
  have hkeyword := isKeyword_of_isKnown (Opcode.isKnown_of_takesHeredoc h)
  simp [refusal?, hkeyword, hbase, huser]

end Dockerfile

end Drydock
