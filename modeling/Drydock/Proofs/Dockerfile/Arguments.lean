/-
  Splitting argument texts. The outcome is one of three: an array of strings by the grammar
  (`splitArguments_array_iff`), else the words between blanks (`splitArguments_of_shell`), unless
  the reader of arrays has given up on an integer that is too long (`splitArguments_eq_error_iff`).
-/
import Drydock.Dockerfile.Parser
import Drydock.Proofs.Json.LongNumber
import Drydock.Proofs.Text.Word

namespace Drydock.Dockerfile

/-! ## Arrays of strings -/

/-- An array of strings with blanks around it has none if it begins and ends with its brackets. -/
theorem gaps_eq_nil {gap array gap' : Text} (hgap : Json.IsGap gap) (hgap' : Json.IsGap gap')
    (hopen : Text.startsWith (gap ++ (array ++ gap')) ['['] = true)
    (hclose : Text.endsWith (gap ++ (array ++ gap')) [']'] = true) : gap = [] ∧ gap' = [] := by
  constructor
  · cases gap with
    | nil => rfl
    | cons c gap =>
      obtain ⟨rest, hrest⟩ := List.isPrefixOf_iff_prefix.mp hopen
      obtain ⟨rfl, -⟩ := List.cons.inj hrest
      exact absurd (hgap _ List.mem_cons_self) (by decide)
  · rcases List.eq_nil_or_concat gap' with rfl | ⟨front, c, rfl⟩
    · rfl
    · have hblank : Json.isBlank c = true := hgap' c (by simp)
      have hlast := Text.getLast?_of_suffix (List.isSuffixOf_iff_suffix.mp hclose) rfl
      rw [List.concat_eq_append, ← List.append_assoc, ← List.append_assoc, List.getLast?_concat]
        at hlast
      obtain rfl := Option.some.inj hlast
      exact absurd hblank (by decide)

variable {rest : Text} {split : List Text × Bool}

/-- Arguments are split as an array exactly if they are an array of strings. -/
theorem splitArguments_array_iff :
    (∃ texts, splitArguments rest = .ok (texts, true)) ↔ Json.IsTextArray rest := by
  unfold splitArguments
  constructor
  · rintro ⟨texts, h⟩
    split at h
    · next hbrackets =>
      rw [Bool.and_eq_true] at hbrackets
      split at h
      · next texts hread =>
        obtain ⟨gap, array, gap', hgap, harray, hgap', rfl⟩ :=
          Json.exists_loadTexts_iff.mp ⟨texts, hread⟩
        obtain ⟨rfl, rfl⟩ := gaps_eq_nil hgap hgap' hbrackets.1 hbrackets.2
        rwa [List.nil_append, List.append_nil]
      · exact absurd h (by simp)
      · exact absurd h (by simp)
    · exact absurd h (by simp)
  · intro h
    obtain ⟨texts, htexts⟩ := Json.exists_loadTexts_iff.mpr
      ⟨[], rest, [], Json.isGap_nil, h, Json.isGap_nil, (List.append_nil _).symm⟩
    have hbrackets : (rest.startsWith ['['] && rest.endsWith [']']) = true := by
      obtain ⟨u, rfl⟩ := h.exists_eq
      rw [Bool.and_eq_true]
      exact ⟨rfl, List.isSuffixOf_iff_suffix.mpr (List.suffix_append ('[' :: u) [']'])⟩
    exact ⟨texts, by rw [if_pos hbrackets, htexts]⟩

/-- Where arguments have been split, they form an array just if their text is one. -/
theorem snd_of_splitArguments (h : splitArguments rest = .ok split) :
    split.2 = true ↔ Json.IsTextArray rest := by
  constructor
  · intro harray
    exact splitArguments_array_iff.mp ⟨split.1, h.trans (by rw [← harray])⟩
  · intro harray
    obtain ⟨texts, htexts⟩ := splitArguments_array_iff.mpr harray
    rw [Except.ok.inj (h.symm.trans htexts)]

/-! ## Words -/

theorem splitArguments_of_shell (h : splitArguments rest = .ok split) (hshell : split.2 = false) :
    split = (Text.fields rest, false) := by
  unfold splitArguments at h
  split at h
  · split at h
    · rw [← Except.ok.inj h] at hshell
      exact absurd hshell (by simp)
    · exact (Except.ok.inj h).symm
    · exact absurd h (by simp)
  · exact (Except.ok.inj h).symm

/-! ## Integers that are too long -/

/-- An argument text between brackets on which the reader of arrays gives up: before it has found a
fault, it has come to an integer of `count` digits, which is more than are converted. -/
structure ComesToLongNumber (rest : Text) (count : Nat) : Prop where
  opens : rest.startsWith ['['] = true
  closes : rest.endsWith [']'] = true
  givesUp : Json.load rest = .error (.tooManyDigits count)

theorem splitArguments_eq_error_iff {cause : ParseCause} : splitArguments rest = .error cause ↔
    ∃ count, cause = .tooManyDigits count ∧ ComesToLongNumber rest count := by
  unfold splitArguments
  constructor
  · intro h
    split at h
    · next hbrackets =>
      rw [Bool.and_eq_true] at hbrackets
      split at h
      · exact absurd h (by simp)
      · exact absurd h (by simp)
      · next count hread =>
        exact ⟨count, (Except.error.inj h).symm, hbrackets.1, hbrackets.2,
          Json.loadTexts_eq_tooManyDigits_iff.mp hread⟩
    · exact absurd h (by simp)
  · rintro ⟨count, rfl, h⟩
    rw [h.opens, h.closes, Json.loadTexts_eq_tooManyDigits_iff.mpr h.givesUp]
    rfl

/-- The integer stands in the argument text, and it is longer than any that is converted. -/
theorem ComesToLongNumber.exists_row {count : Nat} (h : ComesToLongNumber rest count) :
    Number.mostDigits < count ∧ Json.HasRow rest count := by
  obtain ⟨⟨bound, hbound, hlt⟩, hrow⟩ := Json.exists_row_of_read h.givesUp
  obtain rfl := Option.some.inj hbound
  exact ⟨hlt, hrow⟩

/-- No such integer is in an argument text that is no longer than an integer may be. -/
theorem not_comesToLongNumber_of_length_le (h : rest.length ≤ Number.mostDigits) (count : Nat) :
    ¬ ComesToLongNumber rest count := by
  intro hnumber
  obtain ⟨hlong, row, hrow, hlength, -⟩ := hnumber.exists_row
  have hle := hrow.length_le
  omega

end Drydock.Dockerfile
