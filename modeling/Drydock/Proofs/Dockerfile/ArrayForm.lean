/-
  Arguments as an array of strings. An array behind any keyword makes a step of its line alone,
  whatever is in its strings, and the step has the strings as its arguments; a step has that form
  only if its argument text is an array of strings by the grammar (`parse_array_form`).
-/
import Drydock.Proofs.Dockerfile.Arguments
import Drydock.Proofs.Dockerfile.ExecForm

namespace Drydock.Dockerfile

/-! ## Lines with an array -/

/-- The line that says a keyword and an array of strings. -/
def arrayLine (keyword : Text) (ws : List Text) : Text :=
  keyword ++ ' ' :: Json.render (.array (ws.map .text))

section ArrayLine

variable {keyword : Text}

theorem refusal?_array (h : isKeyword keyword = true) (ws : List Text) :
    refusal? keyword (Json.render (.array (ws.map .text))) = none := by
  obtain ⟨t, ht⟩ := AreWords.exists_exec_eq ws
  have hword : Text.IsWord ['['] := by decide
  obtain ⟨more, rest, hfields⟩ := Text.exists_fields_append hword t
  have hfield : Text.fields ('[' :: t) = ('[' :: more) :: rest := hfields
  rw [refusal?, ht, h, hfield]
  simp [Instruction.isFlag, Text.startsWith]

/-- A keyword and an array are complete on a line of their own. -/
theorem isOneLine_array (escape : Escape) (h : isKeyword keyword = true) (ws : List Text) :
    IsOneLine escape.char keyword (Json.render (.array (ws.map .text))) where
  word := h
  stripped := (AreWords.isTight_exec ws).2
  line := (Json.isPlainAscii_texts ws).isLine
  ends := AreWords.getLast?_exec_ne ws escape
  admitted := refusal?_array h ws

/-- The warning about a keyword on the line behind the first `n`, if no builder knows it. -/
def unknownAt (n : Nat) (keyword : Text) : List UnknownKeyword :=
  if (opcodeOf keyword).isKnown then [] else [⟨n + 1, keyword⟩]

/-- A Dockerfile with a step and warnings in front. -/
def prepend (i : Instruction) (warnings : List UnknownKeyword) (d : Dockerfile) : Dockerfile :=
  { d with instructions := i :: d.instructions, warnings := warnings ++ d.warnings }

theorem ofStatements_cons (escape : Escape) (s : Statement) (statements : List Statement) :
    ofStatements escape (s :: statements) =
      (ofStatements escape statements).prepend s.instruction s.warning.toList := by
  cases hwarning : s.warning <;> simp [ofStatements, prepend, hwarning]

/-- What a line with an array is read as. -/
def arrayReading (keyword : Text) (ws : List Text) : Reading :=
  ⟨keyword, Json.render (.array (ws.map .text)), (ws, true), [], 0⟩

/-- A line with an array is one step, and the lines below it are read on their own. -/
theorem readStatements_array (escape : Escape) (h : isKeyword keyword = true) (ws : List Text)
    (n : Nat) (lines : List Text) :
    (readStatements escape.char n false (arrayLine keyword ws :: lines)).map
        (ofStatements escape) =
      ((readStatements escape.char (n + 1) false lines).map (ofStatements escape)).map
        (prepend (wordStep (opcodeOf keyword) ws n false true) (unknownAt n keyword)) := by
  have hplace : ((arrayReading keyword ws).place n false).instruction =
      wordStep (opcodeOf keyword) ws n false true := rfl
  have hwarning : ((arrayReading keyword ws).place n false).warning.toList =
      unknownAt n keyword := by
    unfold Reading.place unknownAt arrayReading
    dsimp only
    split <;> rfl
  have hrun : readStatements escape.char n false (arrayLine keyword ws :: lines) =
      (readStatements escape.char (n + 1) false lines).map
        ((arrayReading keyword ws).place n false :: ·) :=
    (isOneLine_array escape h ws).readStatements_line (AreWords.splitArguments_exec ws)
      (markersOf_exec keyword _) n false lines
  rw [hrun]
  cases readStatements escape.char (n + 1) false lines with
  | error e => rfl
  | ok statements =>
    refine congrArg Except.ok ?_
    rw [ofStatements_cons, hplace, hwarning]

/-- A line with an array is read below the header of an escape. -/
theorem parse_headed_array (escape : Escape) (h : isKeyword keyword = true) (ws : List Text)
    {t : Text} {below : List Text}
    (hlines : Text.lines (arrayLine keyword ws ++ t) = arrayLine keyword ws :: below) :
    parse (escape.headed (arrayLine keyword ws ++ t)) =
      ((readStatements escape.char (escape.header.length + 1) false below).map
        (ofStatements escape)).map
        (prepend (wordStep (opcodeOf keyword) ws escape.header.length false true)
          (unknownAt escape.header.length keyword)) := by
  have hline := isOneLine_array escape h ws
  obtain ⟨c, line, hletter, hc⟩ := hline.exists_letter
  have hmark : (arrayLine keyword ws ++ t).head? ≠ some mark := by
    rw [arrayLine, hletter]
    rintro ⟨rfl⟩
    exact absurd hc (by decide)
  have hcomment : ∀ first ∈ (Text.lines (arrayLine keyword ws ++ t)).head?,
      isCommentLine first = false := by
    intro first hfirst
    rw [hlines] at hfirst
    obtain rfl := Option.some.inj hfirst
    exact not_isCommentLine_of_solid hline.solid_line
  rw [parse_headed escape hmark hcomment, hlines, readStatements_array escape h ws]

/-- Below a blank line behind the header of an escape, lines are read on their own. -/
theorem parse_headed_newline (escape : Escape) (below : Text) :
    parse (escape.headed ('\n' :: below)) =
      (readStatements escape.char (escape.header.length + 1) false (Text.lines below)).map
        (ofStatements escape) := by
  have hmark : ('\n' :: below).head? ≠ some mark := by
    rintro ⟨⟩
  have hlines : Text.lines ('\n' :: below) = [] :: Text.lines below := Text.lines_newline_cons below
  have hcomment : ∀ first ∈ (Text.lines ('\n' :: below)).head?, isCommentLine first = false := by
    rw [hlines]
    rintro _ ⟨rfl⟩
    decide
  rw [parse_headed escape hmark hcomment, hlines, readStatements_skip isSkippedLine_nil]
  rfl

end ArrayLine

/-! ## Steps that are read -/

/-- The argument text of the step that begins on a line. -/
def argumentsAt? (escape : Char) (lines : List Text) (line : Nat) : Option Text :=
  match lines.drop (line - 1) with
  | first :: below => (LogicalLine.gather escape (Text.strip first) below).map argumentsOf
  | [] => none

/-- A step is split as its argument text is. -/
structure SplitsAs (rest : Text) (i : Instruction) : Prop where
  /-- The argument text is the first line of what is raw of the step. -/
  raw : i.raw.takeWhile (· ≠ '\n') = rest
  form : i.execForm = true ↔ Json.IsTextArray rest
  fallback : ¬ Json.IsTextArray rest → i.execForm = false ∧ i.arguments = Text.fields rest

theorem splitsAs_place {r : Reading} (hsplit : splitArguments r.arguments = .ok r.split)
    (h : Text.IsLine r.arguments) (n : Nat) (commented : Bool) :
    SplitsAs r.arguments (r.place n commented).instruction where
  raw := by
    have hline : ∀ c ∈ r.arguments, decide (c ≠ '\n') = true := fun c hc =>
      decide_eq_true fun hfeed => absurd (hfeed ▸ h c hc) (by decide)
    show (HeredocMarker.attach r.arguments r.bodies).takeWhile _ = _
    rw [HeredocMarker.attach_eq, List.takeWhile_append_of_pos hline]
    cases r.bodies <;> simp
  form := snd_of_splitArguments hsplit
  fallback hnone := by
    have hform : r.split.2 = false :=
      Bool.eq_false_iff.mpr fun hform => hnone ((snd_of_splitArguments hsplit).mp hform)
    exact ⟨hform, congrArg Prod.fst (splitArguments_of_shell hsplit hform)⟩

theorem exists_splitsAs {t : Text} {d : Dockerfile} (h : parse t = .ok d) {i : Instruction}
    (hi : i ∈ d.instructions) :
    ∃ rest, argumentsAt? d.escape.char (physicalLines t) i.line = some rest ∧ SplitsAs rest i := by
  obtain ⟨-, k, line, rest, r, -, -, hdrop, hsolid, hr, rfl⟩ := exists_place_of_ofLines h hi
  have hlines : ∀ u ∈ line :: rest, Text.IsLine u := fun u hu =>
    Text.isLine_of_mem_lines (List.mem_of_mem_drop (hdrop ▸ hu))
  have hline : Text.IsLine r.arguments := isLine_arguments hsolid hlines hr
  obtain ⟨l, split, found, hl, -, hsplit, -, rfl⟩ := Reading.read_eq_ok_iff.mp hr
  refine ⟨argumentsOf l, ?_, splitsAs_place hsplit hline k _⟩
  show (match (physicalLines t).drop (k + 1 - 1) with
    | first :: below =>
      (LogicalLine.gather d.escape.char (Text.strip first) below).map argumentsOf
    | [] => none) = some (argumentsOf l)
  rw [Nat.add_sub_cancel, hdrop]
  dsimp only
  rw [hl, Option.map_some]

/--
An array of strings behind a keyword is one step with the strings as its arguments, under either
escape: it takes its own line and no other, so that a blank line in its place would leave the lines
below it as they are. And every step of a text that is read has this form just if its argument text
is an array of strings; if it is none, it is split at its blanks.
-/
theorem parse_array_form :
    (∀ (escape : Escape) (keyword : Text) (ws : List Text), isKeyword keyword = true →
      parse (escape.headed (arrayLine keyword ws)) = .ok
        { instructions := [wordStep (opcodeOf keyword) ws escape.header.length false true]
          warnings := unknownAt escape.header.length keyword
          escape } ∧
      ∀ below : Text, parse (escape.headed (arrayLine keyword ws ++ '\n' :: below)) =
        (parse (escape.headed ('\n' :: below))).map
          (prepend (wordStep (opcodeOf keyword) ws escape.header.length false true)
            (unknownAt escape.header.length keyword))) ∧
    ∀ (t : Text) (d : Dockerfile), parse t = .ok d → ∀ i ∈ d.instructions,
      ∃ rest, argumentsAt? d.escape.char (physicalLines t) i.line = some rest ∧
        SplitsAs rest i := by
  refine ⟨fun escape keyword ws h => ⟨?_, fun below => ?_⟩, fun t d hd i hi => ?_⟩
  · have hline := isOneLine_array escape h ws
    obtain ⟨c, line, hletter, -⟩ := hline.exists_letter
    have hlines : Text.lines (arrayLine keyword ws ++ []) = [arrayLine keyword ws] := by
      rw [List.append_nil]
      exact Text.lines_of_isLine hline.isLine_line (by rw [arrayLine, hletter]; simp)
    have hparse := parse_headed_array escape h ws hlines
    rw [List.append_nil, readStatements_nil] at hparse
    rw [hparse]
    show Except.ok (prepend _ _ (ofStatements escape [])) = _
    simp [prepend, ofStatements]
  · have hlines := Text.lines_append_newline (isOneLine_array escape h ws).isLine_line below
    rw [parse_headed_array escape h ws hlines, parse_headed_newline]
  · exact exists_splitsAs hd hi

/-- A marker in a string announces no body, and an array of numbers is split at its blanks. -/
theorem parse_array_form_of_marker_in_string :
    isKeyword "Run" = true ∧
    parse "# escape=\x60\nRun [\"<<EOF\", \"\\u00e4\", \"\"]\nCMD [1, 2]" =
      (parse "# escape=\x60\n\nCMD [1, 2]").map
        (prepend (wordStep .run ["<<EOF", "\u00e4", ""] 1 false true) []) ∧
    ∃ d i, parse "# escape=\x60\n\nCMD [1, 2]" = .ok d ∧ i ∈ d.instructions ∧
      ¬ Json.IsTextArray "[1, 2]" ∧ i.execForm = false ∧ i.arguments = ["[1,", "2]"] := by
  let i : Instruction :=
    { opcode := .cmd, arguments := ["[1,", "2]"], line := 3, endLine := 3, raw := "[1, 2]" }
  let d : Dockerfile := { instructions := [i], warnings := [], escape := .backquote }
  have hkeyword : isKeyword "Run" = true := by decide
  have hwritten : Escape.backquote.headed (arrayLine "Run" ["<<EOF", "\u00e4", ""] ++
      '\n' :: "CMD [1, 2]".toList) =
      "# escape=\x60\nRun [\"<<EOF\", \"\\u00e4\", \"\"]\nCMD [1, 2]".toList := by decide +kernel
  have hread : parse "# escape=\x60\n\nCMD [1, 2]" = .ok d := by decide +kernel
  have hnone : ¬ Json.IsTextArray "[1, 2]" := by
    have hsplit : splitArguments "[1, 2]" = .ok (["[1,", "2]"], false) := by decide +kernel
    exact fun harray => absurd ((snd_of_splitArguments hsplit).mpr harray) (by decide)
  have hparse :=
    (parse_array_form.1 .backquote "Run" ["<<EOF", "\u00e4", ""] hkeyword).2 "CMD [1, 2]"
  obtain ⟨rest, -, hsplits⟩ := parse_array_form.2 _ d hread i (by simp [d])
  obtain rfl : rest = "[1, 2]".toList := hsplits.raw.symm.trans (by decide +kernel)
  obtain ⟨hform, harguments⟩ := hsplits.fallback hnone
  rw [hwritten] at hparse
  exact ⟨hkeyword, hparse, d, i, hread, by simp [d], hnone, hform,
    harguments.trans (by decide +kernel)⟩

end Drydock.Dockerfile
