/-
  Printing Dockerfiles. A Dockerfile without bodies is printed with one line for each step and the
  directive for its escape in front. What a logical line says is stripped, lies on one line and does
  not end in the escape (`says_gathered`), so every step that is read can be printed
  (`isPrintable_place`). A keyword and arguments on one line are read as they stand
  (`IsOneLine.read_line`), so what is printed is read as the same steps (`parse_render`).
-/
import Drydock.Proofs.Dockerfile.Concatenation
import Drydock.Proofs.Dockerfile.Joining
import Drydock.Proofs.Dockerfile.Keyword
import Drydock.Proofs.Dockerfile.Origin
import Drydock.Proofs.Text.Word

namespace Drydock

/-! ## The printer -/

/-- The line that says what an instruction says. -/
def Instruction.printed (i : Instruction) : Text := i.opcode.name ++ ' ' :: i.raw

/-- The same step alone on the line behind the first `n`, without a comment above it. -/
def Instruction.onLine (n : Nat) (i : Instruction) : Instruction :=
  { i with line := n + 1, endLine := n + 1, commented := false }

theorem Escape.not_letter (escape : Escape) : Text.isAsciiLetter escape.char = false := by
  cases escape <;> decide

/-- The lines of a header that chooses the escape. -/
def Escape.header : Escape → List Text
  | .backslash => []
  | .backquote => ["# escape=\x60"]

theorem Escape.isLine_of_mem_header (escape : Escape) {line : Text} (h : line ∈ escape.header) :
    Text.IsLine line := by
  cases escape with
  | backslash => exact absurd h List.not_mem_nil
  | backquote =>
    obtain rfl := List.mem_singleton.mp h
    decide

/-- A text below the header that chooses the escape. -/
def Escape.headed (escape : Escape) (t : Text) : Text :=
  (escape.header.flatMap fun line => line ++ ['\n']) ++ t

namespace Dockerfile

/-- The lines of a printed Dockerfile. -/
def printed (d : Dockerfile) : List Text :=
  d.escape.header ++ d.instructions.map Instruction.printed

/-- A Dockerfile as text, with a line feed behind each line. -/
def render (d : Dockerfile) : Text := d.printed.flatMap fun line => line ++ ['\n']

/-! ## What logical lines say -/

/-- A text that can be the whole of a logical line. -/
structure Says (escape : Char) (t : Text) : Prop where
  tight : Text.IsTight t
  line : Text.IsLine t
  closed : isContinued escape t = false

theorem isTight_strip_of_solid {line : Text} (h : isSkippedLine line = false) :
    Text.IsTight (Text.strip line) := by
  rcases Text.strip_eq_nil_or_isTight line with hnil | htight
  · unfold isSkippedLine at h
    exact absurd h (by simp [hnil])
  · exact htight

theorem isTight_withoutEscape (line : Text) :
    withoutEscape line = [] ∨ Text.IsTight (withoutEscape line) :=
  Text.strip_eq_nil_or_isTight _

/-- A logical line that begins with a stripped line says a text that can be a logical line. -/
theorem says_gathered {escape : Char} {piece : Text} {rest : List Text} {said : Text × Nat}
    (htight : Text.IsTight piece) (hpiece : Text.IsLine piece)
    (hrest : ∀ line ∈ rest, Text.IsLine line)
    (h : LogicalLine.gathered escape piece rest = some said) : Says escape said.1 := by
  induction piece, rest using LogicalLine.gather_induction escape generalizing said with
  | last piece rest hc =>
    rw [LogicalLine.gathered_of_not_continued hc] at h
    obtain rfl := Option.some.inj h
    exact ⟨htight, hpiece, hc⟩
  | nil piece hc =>
    rw [LogicalLine.gathered_nil hc] at h
    exact absurd h (by simp)
  | skip piece line rest hc hs ih =>
    rw [LogicalLine.gathered_skip hc hs] at h
    obtain ⟨inner, hinner, rfl⟩ := Option.map_eq_some_iff.mp h
    have hsays : Says escape inner.1 :=
      ih htight hpiece (fun other ho => hrest other (List.mem_cons_of_mem _ ho)) hinner
    exact hsays
  | goOn piece line rest hc hs ih =>
    rw [LogicalLine.gathered_continue hc hs] at h
    obtain ⟨inner, hinner, rfl⟩ := Option.map_eq_some_iff.mp h
    have hnext := ih (isTight_strip_of_solid hs)
      ((hrest line List.mem_cons_self).of_subset (Text.strip_subset line))
      (fun other ho => hrest other (List.mem_cons_of_mem _ ho)) hinner
    have hwithout : Text.IsLine (withoutEscape piece) := hpiece.of_subset fun c hc =>
      (Text.stripRight_isPrefix piece).subset
        (List.mem_of_mem_dropLast (Text.strip_subset _ hc))
    rw [Prod.map_fst]
    -- What stands before the escape may be nothing, which leaves no trace.
    rcases isTight_withoutEscape piece with hnil | hfront
    · rw [hnil, Text.joinBlank_nil_left]
      exact hnext
    · rw [Text.joinBlank_of_ne_nil hfront.1 hnext.tight.1]
      refine ⟨hfront.append_space hnext.tight, ?_, ?_⟩
      · exact hwithout.append (Text.isLine_cons.mpr ⟨by decide, hnext.line⟩)
      · rw [isContinued_append hnext.tight]
        exact hnext.closed

/-- What a step says that begins on a line can be the whole of a logical line. -/
theorem says_text {escape : Char} {line : Text} {rest : List Text} {l : LogicalLine}
    (hs : isSkippedLine line = false) (hline : Text.IsLine line)
    (hrest : ∀ other ∈ rest, Text.IsLine other)
    (hl : LogicalLine.gather escape (Text.strip line) rest = some l) : Says escape l.text := by
  have hsaid : LogicalLine.gathered escape (Text.strip line) rest = some (l.text, l.extra) := by
    rw [LogicalLine.gathered, hl, Option.map_some]
  exact says_gathered (isTight_strip_of_solid hs) (hline.of_subset (Text.strip_subset line))
    hrest hsaid

section Arguments

variable {escape : Char} {l : LogicalLine}

theorem argumentsOf_eq (h : Says escape l.text) : argumentsOf l = (Text.firstField l.text).2 :=
  Text.strip_firstField_snd h.tight.stripRight_eq

/-- The argument text stands at the end of what a logical line says. -/
theorem argumentsOf_isSuffix (h : Says escape l.text) : argumentsOf l <:+ l.text :=
  argumentsOf_eq h ▸ Text.firstField_snd_isSuffix l.text

theorem strip_argumentsOf (h : Says escape l.text) :
    Text.strip (argumentsOf l) = argumentsOf l := by
  rw [argumentsOf_eq h]
  exact Text.strip_firstField_snd h.tight.stripRight_eq

end Arguments

/-- The argument text of a step stands on one line. -/
theorem isLine_arguments {escape : Char} {line : Text} {rest : List Text} {r : Reading}
    (hs : isSkippedLine line = false) (hlines : ∀ other ∈ line :: rest, Text.IsLine other)
    (hr : Reading.read escape (Text.strip line) rest = .ok r) : Text.IsLine r.arguments := by
  obtain ⟨hline, hrest⟩ := List.forall_mem_cons.mp hlines
  obtain ⟨l, split, found, hl, -, -, -, rfl⟩ := Reading.read_eq_ok_iff.mp hr
  have hsays := says_text hs hline hrest hl
  exact hsays.line.of_subset (argumentsOf_isSuffix hsays).subset

/-! ## Printable steps -/

/-- A step whose printed line is read as the same step. -/
structure IsPrintable (escape : Char) (i : Instruction) : Prop where
  keyword : isKeyword i.opcode.name = true
  opcode : opcodeOf i.opcode.name = i.opcode
  stripped : Text.strip i.raw = i.raw
  line : Text.IsLine i.raw
  ends : i.raw.getLast? ≠ some escape
  admitted : refusal? i.opcode.name i.raw = none
  split : splitArguments i.raw = .ok (i.arguments, i.execForm)
  bodiless : markersOf i.opcode.name i.raw i.execForm = []

theorem attach_eq_of_not_mem {arguments : Text} {bodies : List (List Text)}
    (h : '\n' ∉ HeredocMarker.attach arguments bodies) : bodies = [] := by
  cases bodies with
  | nil => rfl
  | cons body bodies =>
    rw [HeredocMarker.attach, List.map_cons, Text.joinWith_cons_cons] at h
    exact absurd h (by simp)

theorem eq_nil_of_bodies_eq_nil {markers : List HeredocMarker} {lines : List Text}
    (h : HeredocMarker.bodies markers lines = .ok []) : markers = [] := by
  cases markers with
  | nil => rfl
  | cons m markers =>
    obtain ⟨body, rest, -, -, hcons⟩ := HeredocMarker.bodies_cons_eq_ok_iff.mp h
    exact absurd hcons (by simp)

theorem isContinued_of_isTight {escape : Char} {t : Text} (h : Text.IsTight t) :
    isContinued escape t = decide (t.getLast? = some escape) := by
  rw [isContinued, h.stripRight_eq]

/-- A step without bodies that is read from lines can be printed. -/
theorem isPrintable_place {escape : Char} {line : Text} {rest : List Text} {r : Reading}
    (hs : isSkippedLine line = false) (hline : Text.IsLine line)
    (hrest : ∀ other ∈ rest, Text.IsLine other)
    (hr : Reading.read escape (Text.strip line) rest = .ok r) (k : Nat) (commented : Bool)
    (hraw : '\n' ∉ (r.place k commented).instruction.raw) :
    IsPrintable escape (r.place k commented).instruction := by
  obtain ⟨l, split, found, hl, hadmitted, hsplit, hbodies, rfl⟩ := Reading.read_eq_ok_iff.mp hr
  have hsays := says_text hs hline hrest hl
  have hsuffix := argumentsOf_isSuffix hsays
  have hopen : l.text.getLast? ≠ some escape := by
    have hends := hsays.closed
    rw [isContinued_of_isTight hsays.tight] at hends
    exact of_decide_eq_false hends
  obtain rfl := attach_eq_of_not_mem hraw
  exact
    { keyword := isKeyword_of_admitted (refusal?_name_opcodeOf hadmitted)
      opcode := opcodeOf_name _
      stripped := strip_argumentsOf hsays
      line := hsays.line.of_subset hsuffix.subset
      ends := fun h => hopen (Text.getLast?_of_suffix hsuffix h)
      admitted := refusal?_name_opcodeOf hadmitted
      split := hsplit
      bodiless := (markersOf_name_opcodeOf _ _ _).trans (eq_nil_of_bodies_eq_nil hbodies) }

/-! ## Steps on one line -/

/-- A keyword and arguments that are complete on a line of their own. -/
structure IsOneLine (escape : Char) (keyword arguments : Text) : Prop where
  word : isKeyword keyword = true
  stripped : Text.strip arguments = arguments
  line : Text.IsLine arguments
  ends : arguments.getLast? ≠ some escape
  admitted : refusal? keyword arguments = none

namespace IsOneLine

variable {escape : Escape} {keyword arguments : Text} {split : List Text × Bool}

theorem isTight_keyword (h : IsOneLine escape.char keyword arguments) : Text.IsTight keyword := by
  obtain ⟨hne, hletters⟩ := isKeyword_iff.mp h.word
  have hblank : ∀ c ∈ keyword, Text.isBlank c = false :=
    fun c hc => Text.isBlank_of_isAsciiLetter (hletters c hc)
  refine ⟨hne, Text.strip_eq_self_of_head (fun c hc => ?_) (Text.stripRight_of_no_blank hblank)⟩
  exact hblank c (List.mem_of_mem_head? hc)

theorem strip_line (h : IsOneLine escape.char keyword arguments) :
    Text.strip (keyword ++ ' ' :: arguments) = Text.joinBlank keyword arguments := by
  rw [h.isTight_keyword.strip_space (Text.head_not_blank_of_strip h.stripped), h.stripped]

theorem isContinued_line (h : IsOneLine escape.char keyword arguments) :
    isContinued escape.char (Text.joinBlank keyword arguments) = false := by
  by_cases harguments : arguments = []
  · rw [harguments, Text.joinBlank_nil_right, isContinued_of_isTight h.isTight_keyword]
    refine decide_eq_false fun hlast => ?_
    have hletter := (isKeyword_iff.mp h.word).2 _ (List.mem_of_mem_getLast? hlast)
    exact absurd hletter (by simp [escape.not_letter])
  · have htight : Text.IsTight arguments := ⟨harguments, h.stripped⟩
    rw [Text.joinBlank_of_ne_nil h.isTight_keyword.1 harguments, isContinued_append htight,
      isContinued_of_isTight htight]
    exact decide_eq_false h.ends

/-- The logical line that begins with the line takes no other, and says its keyword and arguments. -/
theorem gather_line (h : IsOneLine escape.char keyword arguments) (rest : List Text) : ∃ l,
    LogicalLine.gather escape.char (Text.strip (keyword ++ ' ' :: arguments)) rest = some l ∧
      l.extra = 0 ∧ keywordOf l = keyword ∧ argumentsOf l = arguments := by
  obtain ⟨hne, hletters⟩ := isKeyword_iff.mp h.word
  have hfirst : Text.firstField (Text.joinBlank keyword arguments) = (keyword, arguments) :=
    Text.firstField_joinBlank hne (fun c hc => Text.isBlank_of_isAsciiLetter (hletters c hc))
      h.stripped
  rw [h.strip_line]
  refine ⟨⟨[Text.joinBlank keyword arguments], 0⟩,
    LogicalLine.gather_of_not_continued h.isContinued_line rest, rfl, ?_, ?_⟩
  · rw [keywordOf, LogicalLine.text_singleton, hfirst]
  · rw [argumentsOf, LogicalLine.text_singleton, hfirst, h.stripped]

/-- The line is read as it says, whatever stands below it, if its arguments announce no bodies. -/
theorem read_line (h : IsOneLine escape.char keyword arguments)
    (hsplit : splitArguments arguments = .ok split)
    (hbodiless : markersOf keyword arguments split.2 = []) (rest : List Text) :
    Reading.read escape.char (Text.strip (keyword ++ ' ' :: arguments)) rest =
      .ok ⟨keyword, arguments, split, [], 0⟩ := by
  obtain ⟨l, hl, hextra, hkeyword, harguments⟩ := h.gather_line rest
  refine Reading.read_eq_ok_iff.mpr ⟨l, split, [], hl, ?_, ?_, ?_, ?_⟩
  · rw [hkeyword, harguments]
    exact h.admitted
  · rw [harguments, hsplit]
  · rw [hkeyword, harguments, hbodiless]
    rfl
  · rw [hkeyword, harguments, hextra]
    rfl

theorem exists_letter (h : IsOneLine escape.char keyword arguments) :
    ∃ c line, keyword ++ ' ' :: arguments = c :: line ∧ Text.isAsciiLetter c = true := by
  obtain ⟨hne, hletters⟩ := isKeyword_iff.mp h.word
  obtain ⟨c, name, rfl⟩ := List.exists_cons_of_ne_nil hne
  exact ⟨c, name ++ ' ' :: arguments, List.cons_append, hletters c List.mem_cons_self⟩

theorem solid_line (h : IsOneLine escape.char keyword arguments) :
    isSkippedLine (keyword ++ ' ' :: arguments) = false := by
  obtain ⟨c, line, hline, hc⟩ := h.exists_letter
  have hmark : c ≠ '#' := by
    rintro rfl
    exact absurd hc (by decide)
  unfold isSkippedLine isCommentLine
  rw [hline, Text.strip_cons_of_not_blank (Text.isBlank_of_isAsciiLetter hc)]
  simp [hmark]

theorem isLine_line (h : IsOneLine escape.char keyword arguments) :
    Text.IsLine (keyword ++ ' ' :: arguments) := by
  have hkeyword : Text.IsLine keyword := Text.isLine_of_not_blank fun c hc =>
    Text.isBlank_of_isAsciiLetter ((isKeyword_iff.mp h.word).2 c hc)
  exact hkeyword.append (Text.isLine_cons.mpr ⟨by decide, h.line⟩)

/-- A run over the line makes one step of it and goes on right below. -/
theorem readStatements_line (h : IsOneLine escape.char keyword arguments)
    (hsplit : splitArguments arguments = .ok split)
    (hbodiless : markersOf keyword arguments split.2 = []) (n : Nat) (flag : Bool)
    (lines : List Text) :
    readStatements escape.char n flag ((keyword ++ ' ' :: arguments) :: lines) =
      (readStatements escape.char (n + 1) false lines).map
        (Reading.place n flag ⟨keyword, arguments, split, [], 0⟩ :: ·) := by
  rw [readStatements_step h.solid_line (h.read_line hsplit hbodiless lines)]
  dsimp only
  rw [Nat.add_zero, List.drop_zero]

end IsOneLine

/-! ## Printed steps -/

section Printed

variable {escape : Escape} {i : Instruction}

theorem IsPrintable.isOneLine {escape : Char} (h : IsPrintable escape i) :
    IsOneLine escape i.opcode.name i.raw :=
  ⟨h.keyword, h.stripped, h.line, h.ends, h.admitted⟩

/-- What the line of a step is read as. -/
def printedReading (i : Instruction) : Reading :=
  ⟨i.opcode.name, i.raw, (i.arguments, i.execForm), [], 0⟩

theorem readStatements_printed_cons (h : IsPrintable escape.char i) (n : Nat) (flag : Bool)
    (lines : List Text) :
    readStatements escape.char n flag (i.printed :: lines) =
      (readStatements escape.char (n + 1) false lines).map
        ((printedReading i).place n flag :: ·) :=
  h.isOneLine.readStatements_line h.split h.bodiless n flag lines

theorem instruction_place_printed (h : IsPrintable escape.char i) (n : Nat) (commented : Bool) :
    ((printedReading i).place n commented).instruction =
      { i with line := n + 1, endLine := n + 1, commented } := by
  unfold Reading.place printedReading
  dsimp only
  rw [h.opcode]
  rfl

theorem exists_letter_of_printed (h : IsPrintable escape.char i) :
    ∃ c line, i.printed = c :: line ∧ Text.isAsciiLetter c = true :=
  h.isOneLine.exists_letter

theorem solid_printed (h : IsPrintable escape.char i) : isSkippedLine i.printed = false :=
  h.isOneLine.solid_line

theorem isLine_printed (h : IsPrintable escape.char i) : Text.IsLine i.printed :=
  h.isOneLine.isLine_line

/-- A run over printed steps finds them one a line. -/
theorem readStatements_printed {instructions : List Instruction}
    (h : ∀ i ∈ instructions, IsPrintable escape.char i) (n : Nat) :
    ∃ statements, readStatements escape.char n false (instructions.map Instruction.printed) =
        .ok statements ∧
      statements.map Statement.instruction =
        instructions.mapIdx fun k i => i.onLine (n + k) := by
  induction instructions generalizing n with
  | nil => exact ⟨[], readStatements_nil, rfl⟩
  | cons i instructions ih =>
    have hi := h i List.mem_cons_self
    have hplace : ((printedReading i).place n false).instruction = i.onLine n :=
      instruction_place_printed hi n false
    obtain ⟨statements, hrun, hplaces⟩ := ih (fun j hj => h j (List.mem_cons_of_mem _ hj)) (n + 1)
    refine ⟨(printedReading i).place n false :: statements, ?_, ?_⟩
    · rw [List.map_cons, readStatements_printed_cons hi, hrun]
      rfl
    · rw [List.map_cons, hplace, hplaces, List.mapIdx_cons]
      simp only [Nat.add_zero, Nat.add_assoc, Nat.add_comm 1]

end Printed

/-! ## Printed Dockerfiles -/

/-- The steps without bodies of a text that is read can be printed. -/
theorem isPrintable_of_parse {t : Text} {d : Dockerfile} (h : parse t = .ok d) {i : Instruction}
    (hi : i ∈ d.instructions) (hraw : '\n' ∉ i.raw) : IsPrintable d.escape.char i := by
  obtain ⟨header, statements, -, hrun, rfl⟩ := ofLines_eq_ok_iff.mp h
  obtain ⟨s, hs, rfl⟩ := List.mem_map.mp hi
  obtain ⟨line, rest, r, k, commented, hsuffix, hsolid, hread, rfl⟩ := exists_reading_of_mem hrun hs
  have hlines : ∀ other ∈ line :: rest, Text.IsLine other := fun other ho =>
    Text.isLine_of_mem_lines (List.mem_of_mem_drop (hsuffix.subset ho))
  exact isPrintable_place hsolid (hlines line List.mem_cons_self)
    (fun other ho => hlines other (List.mem_cons_of_mem _ ho)) hread k commented hraw

/-- The header of a printed Dockerfile is that of its escape. -/
theorem header_read_printed {escape : Escape} {lines : List Text}
    (h : ∀ line ∈ lines.head?, isCommentLine line = false) :
    Header.read .backslash 0 (escape.header ++ lines) = .ok ⟨escape, escape.header.length⟩ := by
  have hend : ∀ escape n, Header.read escape n lines = .ok ⟨escape, n⟩ := by
    intro escape n
    cases lines with
    | nil => rfl
    | cons line lines => exact Header.read_cons_of_not_comment (h line rfl) escape n lines
  cases escape with
  | backslash => exact hend .backslash 0
  | backquote =>
    have hdirective : Directive.read? (Text.strip "# escape=\x60") =
        some ⟨"escape", [Escape.backquote.char]⟩ := by decide
    rw [Escape.header, List.cons_append, List.nil_append, Header.read, hdirective]
    exact hend .backquote 1

theorem physicalLines_headed (escape : Escape) {t : Text} (h : t.head? ≠ some mark) :
    physicalLines (escape.headed t) = escape.header ++ Text.lines t := by
  have hhead : (escape.headed t).head? ≠ some mark := by
    cases escape with
    | backslash => exact h
    | backquote => exact fun hhead => absurd (Option.some.inj hhead) (by decide)
  rw [physicalLines, withoutMark_of_head hhead, Escape.headed,
    Text.lines_append_newlines fun _ hline => escape.isLine_of_mem_header hline]

theorem parse_headed (escape : Escape) {t : Text} (h : t.head? ≠ some mark)
    (hcomment : ∀ line ∈ (Text.lines t).head?, isCommentLine line = false) :
    parse (escape.headed t) =
      (readStatements escape.char escape.header.length false (Text.lines t)).map
        (ofStatements escape) := by
  rw [parse, physicalLines_headed escape h, ofLines_of_header (header_read_printed hcomment)]
  dsimp only
  rw [List.drop_left]

theorem physicalLines_render {d : Dockerfile}
    (h : ∀ i ∈ d.instructions, IsPrintable d.escape.char i) :
    physicalLines d.render = d.printed := by
  have hlines : ∀ line ∈ d.instructions.map Instruction.printed, Text.IsLine line := by
    intro line hline
    obtain ⟨i, hi, rfl⟩ := List.mem_map.mp hline
    exact isLine_printed (h i hi)
  have hsplit := Text.lines_append_newlines hlines []
  rw [List.append_nil] at hsplit
  have hhead : ((d.instructions.map Instruction.printed).flatMap fun line => line ++ ['\n']).head? ≠
      some mark := by
    -- The keyword of a printed step begins its line, so that no mark does.
    cases hsteps : d.instructions with
    | nil => simp
    | cons i instructions =>
      obtain ⟨c, line, hline, hc⟩ := exists_letter_of_printed (h i (hsteps ▸ List.mem_cons_self))
      rw [List.map_cons, List.flatMap_cons, hline]
      rintro ⟨rfl⟩
      exact absurd hc (by decide)
  rw [render, printed, List.flatMap_append]
  refine (physicalLines_headed d.escape hhead).trans ?_
  rw [hsplit]
  exact congrArg (d.escape.header ++ ·) (List.append_nil _)

/--
Printing forgets nothing that a Dockerfile without bodies says: what is printed is read as the same
steps under the same escape, each on the line it was printed on.
-/
theorem parse_render (t : Text) (d : Dockerfile) (h : parse t = .ok d)
    (hraw : ∀ i ∈ d.instructions, '\n' ∉ i.raw) :
    ∃ again, parse d.render = .ok again ∧ again.escape = d.escape ∧
      again.instructions =
        d.instructions.mapIdx fun k i => i.onLine (d.escape.header.length + k) := by
  have hprintable : ∀ i ∈ d.instructions, IsPrintable d.escape.char i :=
    fun i hi => isPrintable_of_parse h hi (hraw i hi)
  obtain ⟨statements, hrun, hplaces⟩ := readStatements_printed hprintable d.escape.header.length
  have hcomment : ∀ line ∈ (d.instructions.map Instruction.printed).head?,
      isCommentLine line = false := by
    intro line hline
    obtain ⟨i, hi, rfl⟩ := List.mem_map.mp (List.mem_of_mem_head? hline)
    exact not_isCommentLine_of_solid (solid_printed (hprintable i hi))
  refine ⟨ofStatements d.escape statements, ?_, rfl, hplaces⟩
  rw [parse, physicalLines_render hprintable, printed,
    ofLines_of_header (header_read_printed hcomment)]
  dsimp only
  rw [List.drop_left, hrun]
  rfl

/-- A continued step, an array, a keyword that no builder knows and a marker in quotes. -/
theorem parse_render_of_continued_step : ∃ d again,
    parse "# escape=\x60\nfrom a \x60\n\n  as b\nCMD [\"x\"]\nTry\nRun \"<<E\"\n" = .ok d ∧
    parse "# escape=\x60\nFROM a as b\nCMD [\"x\"]\nTRY \nRUN \"<<E\"\n" = .ok again ∧
    again.escape = d.escape ∧
    d.instructions.map (fun i => (i.line, i.endLine)) = [(2, 4), (5, 5), (6, 6), (7, 7)] ∧
    again.instructions = d.instructions.mapIdx fun k i => i.onLine (1 + k) := by
  let d : Dockerfile :=
    { instructions :=
        [{ opcode := .base, arguments := ["a", "as", "b"], line := 2, endLine := 4,
           raw := "a as b" },
         { opcode := .cmd, arguments := ["x"], line := 5, endLine := 5, raw := "[\"x\"]",
           execForm := true },
         { opcode := .other "TRY", arguments := [], line := 6, endLine := 6 },
         { opcode := .run, arguments := ["\"<<E\""], line := 7, endLine := 7, raw := "\"<<E\"" }]
      warnings := [⟨6, "Try"⟩]
      escape := .backquote }
  have hread : parse "# escape=\x60\nfrom a \x60\n\n  as b\nCMD [\"x\"]\nTry\nRun \"<<E\"\n" =
      .ok d := by decide +kernel
  have hrender : render d = "# escape=\x60\nFROM a as b\nCMD [\"x\"]\nTRY \nRUN \"<<E\"\n" := by
    decide +kernel
  obtain ⟨again, hagain, hescape, hinstructions⟩ := parse_render _ d hread (by decide +kernel)
  exact ⟨d, again, hread, hrender ▸ hagain, hescape, rfl, hinstructions⟩

end Dockerfile

end Drydock
