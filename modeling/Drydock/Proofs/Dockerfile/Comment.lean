/-
  Comments above steps. Directives are comments that speak to the parser, and the header is the block
  of them at the top (`isDirective_iff`, `size_lt_iff`). Every other comment belongs to the step on
  the very next line, if one begins there (`commented_iff`).
-/
import Drydock.Proofs.Dockerfile.Keyword
import Drydock.Proofs.Dockerfile.Origin
import Drydock.Proofs.Text.Number
import Mathlib.Tactic.ByContra

namespace Drydock

/-! ## Directives -/

/-- Whether a line is a directive: behind the number sign stand a name that the parser knows, in any
case, and an equals sign. -/
def IsDirective (line : Text) : Prop :=
  ∃ before name behind value,
    Text.strip line = '#' :: (before ++ (name ++ (behind ++ '=' :: value))) ∧
    (∀ c ∈ before, Text.isBlank c = true) ∧ (∀ c ∈ behind, Text.isBlank c = true) ∧
    name.map Char.toLower ∈ Directive.known

namespace Directive

theorem isNameChar_of_isAsciiLetter {c : Char} (h : Text.isAsciiLetter c = true) :
    isNameChar c = true := by
  simp [isNameChar, h]

/-- No blank stands inside a name. -/
theorem not_isNameChar_of_isBlank {c : Char} (h : Text.isBlank c = true) :
    isNameChar c = false := by
  have hletter : Text.isAsciiLetter c = false := by
    cases hc : Text.isAsciiLetter c with
    | false => rfl
    | true => exact absurd (Text.isBlank_of_isAsciiLetter hc) (by simp [h])
  have hother : ∀ d : Char, Text.isBlank d = false → c ≠ d := by
    rintro d hd rfl
    exact absurd h (by simp [hd])
  have hdigit : Text.isAsciiDigit c = false := by
    cases hc : Text.isAsciiDigit c with
    | false => rfl
    | true => exact absurd (Text.isBlank_of_isAsciiDigit hc) (by simp [h])
  simp [isNameChar, hletter, hdigit, hother '_' (by decide), hother '-' (by decide)]

/-- The names that the parser knows are of letters. -/
theorem isKeyword_of_known {name : Text} (h : name.map Char.toLower ∈ known) :
    Dockerfile.isKeyword name = true := by
  have hknown : known.all Dockerfile.isKeyword = true := by decide
  have hlower := List.all_eq_true.mp hknown _ h
  rw [Dockerfile.isKeyword_iff] at hlower ⊢
  refine ⟨fun hnil => hlower.1 (by rw [hnil]; rfl), fun c hc => ?_⟩
  have hletter := hlower.2 _ (List.mem_map_of_mem hc)
  rwa [Text.isAsciiLetter, Char.isAlpha_toLower_eq_isAlpha] at hletter

/-- A name of letters between blanks is read as far as it goes. -/
theorem read?_written {before name behind value : Text}
    (hbefore : ∀ c ∈ before, Text.isBlank c = true) (hbehind : ∀ c ∈ behind, Text.isBlank c = true)
    (hkeyword : Dockerfile.isKeyword name = true) :
    read? ('#' :: (before ++ (name ++ (behind ++ '=' :: value)))) =
      some ⟨name.map Char.toLower, Text.strip value⟩ := by
  obtain ⟨hne, hname⟩ := Dockerfile.isKeyword_iff.mp hkeyword
  have hnameChars : ∀ c ∈ name, isNameChar c = true :=
    fun c hc => isNameChar_of_isAsciiLetter (hname c hc)
  have hstart : Text.stripLeft (before ++ (name ++ (behind ++ '=' :: value))) =
      name ++ (behind ++ '=' :: value) := by
    obtain ⟨c, rest, rfl⟩ := List.exists_cons_of_ne_nil hne
    have hc := Text.isBlank_of_isAsciiLetter (hname c List.mem_cons_self)
    rw [Text.stripLeft, List.dropWhile_append_of_pos hbefore, List.cons_append,
      List.dropWhile_cons_of_neg (by simp [hc])]
  -- The name goes as far as the first blank behind it or the equals sign.
  have hstop : (behind ++ '=' :: value).takeWhile isNameChar = [] ∧
      (behind ++ '=' :: value).dropWhile isNameChar = behind ++ '=' :: value := by
    cases behind with
    | nil => exact ⟨rfl, rfl⟩
    | cons c behind =>
      have hc := not_isNameChar_of_isBlank (hbehind c List.mem_cons_self)
      exact ⟨List.takeWhile_cons_of_neg (by simp [hc]), List.dropWhile_cons_of_neg (by simp [hc])⟩
  have hequals : Text.stripLeft (behind ++ '=' :: value) = '=' :: value := by
    rw [Text.stripLeft, List.dropWhile_append_of_pos hbehind]
    rfl
  have hletter : name.head?.any Text.isAsciiLetter = true := by
    obtain ⟨c, rest, rfl⟩ := List.exists_cons_of_ne_nil hne
    exact hname c List.mem_cons_self
  simp only [read?, hstart, List.takeWhile_append_of_pos hnameChars,
    List.dropWhile_append_of_pos hnameChars, hstop.1, hstop.2, hequals, List.append_nil, hletter,
    if_true]

/-- What is read as a directive has blanks around its name. -/
theorem exists_written {line : Text} {d : Directive} (h : read? line = some d) :
    ∃ before name behind value, line = '#' :: (before ++ (name ++ (behind ++ '=' :: value))) ∧
      (∀ c ∈ before, Text.isBlank c = true) ∧ (∀ c ∈ behind, Text.isBlank c = true) ∧
      d.name = name.map Char.toLower := by
  have hblanks (t : Text) : ∀ c ∈ t.takeWhile Text.isBlank, Text.isBlank c = true := fun c hc =>
    List.all_eq_true.mp List.all_takeWhile c hc
  unfold read? at h
  split at h
  · rename_i t
    dsimp only at h
    split at h
    · rename_i value hvalue
      split at h
      · obtain rfl := Option.some.inj h
        refine ⟨t.takeWhile Text.isBlank, (Text.stripLeft t).takeWhile isNameChar,
          ((Text.stripLeft t).dropWhile isNameChar).takeWhile Text.isBlank, value, ?_,
          hblanks t, hblanks _, rfl⟩
        rw [← hvalue]
        simp only [Text.stripLeft, List.takeWhile_append_dropWhile]
      · exact absurd h (by simp)
    · exact absurd h (by simp)
  · exact absurd h (by simp)

end Directive

/-- The directives are the lines that the header takes for directives. -/
theorem isDirective_iff (line : Text) :
    IsDirective line ↔ (Header.directive? line).isSome = true := by
  rw [Option.isSome_iff_exists]
  constructor
  · rintro ⟨before, name, behind, value, hline, hbefore, hbehind, hknown⟩
    refine ⟨⟨name.map Char.toLower, Text.strip value⟩, Header.directive?_eq_some_iff.mpr ⟨?_, ?_⟩⟩
    · rw [hline]
      exact Directive.read?_written hbefore hbehind (Directive.isKeyword_of_known hknown)
    · exact List.contains_iff_mem.mpr hknown
  · rintro ⟨d, hd⟩
    obtain ⟨hread, hknown⟩ := Header.directive?_eq_some_iff.mp hd
    obtain ⟨before, name, behind, value, hline, hbefore, hbehind, hname⟩ :=
      Directive.exists_written hread
    exact ⟨before, name, behind, value, hline, hbefore, hbehind,
      hname ▸ List.contains_iff_mem.mp hknown⟩

/-- A line is behind the header just if not all lines up to it are directives. -/
theorem Header.size_lt_iff {lines : List Text} {header : Header}
    (h : Header.read .backslash 0 lines = .ok header) {n : Nat} (hn : n ≤ lines.length) :
    header.size < n ↔ ¬ ∀ line ∈ lines.take n, IsDirective line := by
  obtain ⟨hlines, hbehind⟩ := Header.directives_of_read h
  rw [Nat.sub_zero] at hlines hbehind
  constructor
  · intro hlt hall
    have hget : lines[header.size]? = some lines[header.size] := List.getElem?_eq_getElem (by omega)
    have hnone := hbehind lines[header.size] (by rw [List.head?_drop]; exact hget)
    have hmem : lines[header.size] ∈ lines.take n :=
      List.mem_take_iff_getElem.mpr ⟨header.size, by omega, rfl⟩
    have hsome := (isDirective_iff _).mp (hall _ hmem)
    exact absurd hsome (by rw [hnone]; simp)
  · intro hnot
    by_contra hle
    refine hnot fun line hline => (isDirective_iff line).mpr (hlines line ?_)
    exact (List.take_subset_take_left lines (by omega)) hline

namespace Dockerfile

/-- A step is commented if and only if the line right above it is a comment and no directive of the
block at the top. -/
theorem commented_iff (t : Text) (d : Dockerfile) (h : parse t = .ok d) (i : Instruction)
    (hi : i ∈ d.instructions) :
    i.commented = true ↔ 1 < i.line ∧
      (¬ ∀ line ∈ (physicalLines t).take (i.line - 1), IsDirective line) ∧
      ∃ above, (physicalLines t)[i.line - 2]? = some above ∧ isCommentLine above = true := by
  obtain ⟨header, k, line, rest, r, hh, hsize, hdrop, -, -, rfl⟩ := exists_place_of_ofLines h hi
  generalize physicalLines t = lines at hh hdrop
  have hk : k < lines.length := by
    have := congrArg List.length hdrop
    rw [List.length_drop, List.length_cons] at this
    omega
  show endsInComment false ((lines.take k).drop header.size) = true ↔ 1 < k + 1 ∧
    (¬ ∀ line ∈ lines.take k, IsDirective line) ∧
      ∃ above, lines[k - 1]? = some above ∧ isCommentLine above = true
  rw [← Header.size_lt_iff hh (Nat.le_of_lt hk)]
  unfold endsInComment
  rcases Nat.lt_or_eq_of_le hsize with hlt | heq
  · -- The line above is behind the header.
    have hlast : ((lines.take k).drop header.size).getLast? = lines[k - 1]? := by
      rw [List.getLast?_drop, List.length_take, if_neg (by omega), List.getLast?_take,
        if_neg (by omega)]
      have hget : lines[k - 1]? = some lines[k - 1] := List.getElem?_eq_getElem (by omega)
      rw [hget]
      rfl
    rw [hlast]
    have hpos : 1 < k + 1 := by omega
    cases lines[k - 1]? <;> simp [hlt, hpos]
  · rw [← heq, List.drop_of_length_le (by rw [List.length_take]; omega)]
    simp

/-- The first step stands below a directive and is not commented; the second stands below a comment
that would be a directive at the top. -/
theorem commented_iff_below_directives :
    ∃ (t : Text) (first second third : Instruction),
      t = "# Check = x\nFROM a\n# escape=y\nRUN b \\\n# c\n d\nUSER u" ∧
      parse t = .ok
        { instructions := [first, second, third], warnings := [], escape := .backslash } ∧
      [first, second, third].map (fun i => (i.line, i.commented)) =
        [(2, false), (4, true), (7, false)] ∧
      1 < second.line ∧
      (¬ ∀ line ∈ (physicalLines t).take (second.line - 1), IsDirective line) ∧
      ∃ above, (physicalLines t)[second.line - 2]? = some above ∧ isCommentLine above = true := by
  let second : Instruction :=
    { opcode := .run, arguments := ["b", "d"], line := 4, endLine := 6, raw := "b d",
      commented := true }
  have h : parse "# Check = x\nFROM a\n# escape=y\nRUN b \\\n# c\n d\nUSER u" = .ok
      { instructions :=
          [{ opcode := .base, arguments := ["a"], line := 2, endLine := 2, raw := "a" }, second,
           { opcode := .user, arguments := ["u"], line := 7, endLine := 7, raw := "u" }]
        warnings := []
        escape := .backslash } := by decide +kernel
  exact ⟨_, _, second, _, rfl, h, rfl, (commented_iff _ _ h second (by simp)).mp rfl⟩

end Dockerfile

end Drydock
