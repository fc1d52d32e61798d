/-
  Steps that stop at a long number. An array whose reader gives up on an integer is a fault of its
  step that is not reported as such, and the only one (`ofLines_unreported_iff`): it is met where all
  lines before the step are read, whatever stands below it. So it is on a line whose argument text is
  an array that begins with a long row of digits (`stopsAtNumber_rowArray`).
-/
import Drydock.Proofs.Dockerfile.Arguments
import Drydock.Proofs.Dockerfile.Fault
import Drydock.Proofs.Dockerfile.Printing

namespace Drydock.Dockerfile

/-- A step begins on a line that is complete and admitted, but in its arguments the reader of arrays
comes to an integer that is too long. -/
def StopsAtNumber (escape : Char) (line : Text) (rest : List Text) (count : Nat) : Prop :=
  ∃ l, LogicalLine.gather escape (Text.strip line) rest = some l ∧
    refusal? (keywordOf l) (argumentsOf l) = none ∧ ComesToLongNumber (argumentsOf l) count

/-- Behind lines that are read, a step stops at a number that is too long. -/
def MeetsLongNumber (lines : List Text) : Prop :=
  ∃ front line rest before count, lines = front ++ line :: rest ∧ ofLines front = .ok before ∧
    isSkippedLine line = false ∧ StopsAtNumber before.escape.char line rest count

/-! ## One step -/

theorem isReported_of_refusal? {keyword rest : Text} {cause : ParseCause}
    (h : refusal? keyword rest = some cause) : cause.isReported = true := by
  unfold refusal? at h
  split_ifs at h <;> obtain rfl := Option.some.inj h <;> rfl

theorem isReported_eq_false_iff {cause : ParseCause} :
    cause.isReported = false ↔ ∃ count, cause = .tooManyDigits count := by
  cases cause <;> simp [ParseCause.isReported]

section Step

variable {escape : Char} {line : Text} {rest : List Text} {count : Nat}

theorem StopsAtNumber.read_eq (h : StopsAtNumber escape line rest count) :
    Reading.read escape (Text.strip line) rest = .error (.tooManyDigits count) := by
  obtain ⟨l, hl, hadmitted, hnumber⟩ := h
  unfold Reading.read
  rw [hl]
  dsimp only
  rw [hadmitted]
  dsimp only
  rw [splitArguments_eq_error_iff.mpr ⟨count, rfl, hnumber⟩]

theorem stopsAtNumber_of_read
    (h : Reading.read escape (Text.strip line) rest = .error (.tooManyDigits count)) :
    StopsAtNumber escape line rest count := by
  unfold Reading.read at h
  split at h
  · exact absurd (Except.error.inj h) (by simp)
  · next l hl =>
    split at h
    · next cause hrefusal =>
      rw [Except.error.inj h] at hrefusal
      exact absurd (isReported_of_refusal? hrefusal) (by simp [ParseCause.isReported])
    · next hadmitted =>
      split at h
      · next cause hsplit =>
        obtain ⟨n, rfl, hnumber⟩ := splitArguments_eq_error_iff.mp hsplit
        obtain rfl := ParseCause.tooManyDigits.inj (Except.error.inj h)
        exact ⟨l, hl, hadmitted, hnumber⟩
      · dsimp only at h
        split at h
        · exact absurd (Except.error.inj h) (by simp)
        · exact absurd h (by simp)

end Step

/-! ## All lines -/

/-- What is not reported is a number that is too long, at the step that stops there. -/
theorem ofLines_unreported_iff {lines : List Text} :
    (∃ e, ofLines lines = .error e ∧ e.cause.isReported = false) ↔ MeetsLongNumber lines := by
  constructor
  · rintro ⟨e, he, hreported⟩
    obtain ⟨count, hcause⟩ := isReported_eq_false_iff.mp hreported
    rcases exists_read_of_ofLines_error he with
      ⟨value, hvalue⟩ | ⟨front, line, rest, before, rfl, hfront, hs, -, hread⟩
    · exact absurd (hcause.symm.trans hvalue) (by simp)
    · exact ⟨front, line, rest, before, count, rfl, hfront, hs,
        stopsAtNumber_of_read (hcause ▸ hread)⟩
  · rintro ⟨front, line, rest, before, count, rfl, hfront, hs, hstops⟩
    exact ⟨_, ofLines_fault hfront hs hstops.read_eq, rfl⟩

theorem isReported_iff_of_ofLines {lines : List Text} {e : ParseError}
    (h : ofLines lines = .error e) : e.cause.isReported = false ↔ MeetsLongNumber lines := by
  rw [← ofLines_unreported_iff]
  constructor
  · intro hreported
    exact ⟨e, h, hreported⟩
  · rintro ⟨other, hother, hreported⟩
    rwa [Except.error.inj (h.symm.trans hother)]

theorem isReported_iff_of_parse {t : Text} {e : ParseError} (h : parse t = .error e) :
    e.cause.isReported = false ↔ MeetsLongNumber (physicalLines t) :=
  isReported_iff_of_ofLines h

/-! ## Arrays that begin with a long row -/

/-- An array of one item that begins with a row of digits. -/
def rowArray (row rest : Text) : Text := '[' :: (row ++ (rest ++ [']']))

section RowArray

variable {escape : Escape} {keyword row rest : Text}

theorem getLast?_rowArray (row rest : Text) : (rowArray row rest).getLast? = some ']' := by
  rw [rowArray, ← List.append_assoc, ← List.cons_append, List.getLast?_concat]

theorem comesToLongNumber_rowArray (h : Json.IsLongRow Number.mostDigits row)
    (hrest : Json.EndsInteger (rest ++ [']'])) :
    ComesToLongNumber (rowArray row rest) row.length where
  opens := rfl
  closes := by
    refine List.isSuffixOf_iff_suffix.mpr ⟨'[' :: (row ++ rest), ?_⟩
    rw [rowArray, List.cons_append, List.append_assoc]
  givesUp := Json.load_row h hrest

theorem isOneLine_rowArray (hkeyword : (opcodeOf keyword).takesHeredoc = true)
    (hrow : ∀ c ∈ row, Text.isAsciiDigit c = true) (hrest : Text.IsLine rest) :
    IsOneLine escape.char keyword (rowArray row rest) where
  word := isKeyword_of_isKnown (Opcode.isKnown_of_takesHeredoc hkeyword)
  stripped := by
    refine Text.strip_eq_self_of_head (fun c hc => ?_)
      (Text.stripRight_eq_self_iff.mpr fun c hc => ?_)
    · obtain rfl := Option.some.inj hc
      decide
    · rw [getLast?_rowArray] at hc
      obtain rfl := Option.some.inj hc
      decide
  line := by
    have hdigits : Text.IsLine row :=
      Text.isLine_of_not_blank fun c hc => Text.isBlank_of_isAsciiDigit (hrow c hc)
    exact Text.isLine_cons.mpr ⟨by decide, hdigits.append (hrest.append (by decide))⟩
  ends := by
    rw [getLast?_rowArray]
    cases escape <;> decide
  admitted := refusal?_of_takesHeredoc hkeyword _

/-- The step on a line with such an array stops there, whatever stands below the line. -/
theorem stopsAtNumber_rowArray (hkeyword : (opcodeOf keyword).takesHeredoc = true)
    (hrow : Json.IsLongRow Number.mostDigits row) (hrest : Text.IsLine rest)
    (hends : Json.EndsInteger (rest ++ [']'])) (below : List Text) :
    StopsAtNumber escape.char (keyword ++ ' ' :: rowArray row rest) below row.length := by
  have hline : IsOneLine escape.char keyword (rowArray row rest) :=
    isOneLine_rowArray hkeyword hrow.digits hrest
  obtain ⟨l, hl, -, hword, harguments⟩ := hline.gather_line below
  refine ⟨l, hl, ?_, ?_⟩
  · rw [hword, harguments]
    exact hline.admitted
  · rw [harguments]
    exact comesToLongNumber_rowArray hrow hends

end RowArray

/-- A row of one digit more than is converted. -/
def longRow : Text := List.replicate 4301 '1'

theorem isLongRow_longRow : Json.IsLongRow Number.mostDigits longRow where
  long := by
    rw [longRow, List.length_replicate]
    decide
  digits c hc := by
    rw [List.eq_of_mem_replicate hc]
    decide
  first := by
    rw [longRow, List.head?_replicate]
    decide

/-- A step whose argument text is an array that begins with the row and a space. -/
def longStep (rest : Text) : Text := ("RUN" : Text) ++ ' ' :: rowArray longRow (' ' :: rest)

section LongStep

variable {rest : Text} (hrest : Text.IsLine rest)

include hrest

theorem isOneLine_longStep (escape : Escape) :
    IsOneLine escape.char "RUN" (rowArray longRow (' ' :: rest)) :=
  isOneLine_rowArray rfl isLongRow_longRow.digits (Text.isLine_cons.mpr ⟨by decide, hrest⟩)

theorem isLine_longStep : Text.IsLine (longStep rest) :=
  (isOneLine_longStep hrest .backslash).isLine_line

theorem stopsAtNumber_longStep (escape : Escape) (below : List Text) :
    StopsAtNumber escape.char (longStep rest) below 4301 := by
  have hline : Text.IsLine (' ' :: rest) := Text.isLine_cons.mpr ⟨by decide, hrest⟩
  have hstops : StopsAtNumber escape.char (longStep rest) below longRow.length :=
    stopsAtNumber_rowArray rfl isLongRow_longRow hline (Json.endsInteger_space_cons _) below
  rwa [longRow, List.length_replicate] at hstops

/-- The step is a fault behind a first one, whatever stands below it. -/
theorem ofLines_longStep (below : List Text) :
    ofLines (("FROM a" : Text) :: longStep rest :: below) = .error ⟨2, .tooManyDigits 4301⟩ := by
  have hfront : ofLines ["FROM a"] = .ok
      { instructions :=
          [{ opcode := .base, arguments := ["a"], line := 1, endLine := 1, raw := "a" }]
        warnings := []
        escape := .backslash } := by decide +kernel
  have hsolid : isSkippedLine (longStep rest) = false :=
    (isOneLine_longStep hrest .backslash).solid_line
  exact ofLines_fault hfront hsolid (stopsAtNumber_longStep hrest .backslash below).read_eq

/-- A text with the step on its second line is not parsed. -/
theorem parse_longStep (below : Text) :
    parse (("FROM a\n" : Text) ++ (longStep rest ++ '\n' :: below)) =
      .error ⟨2, .tooManyDigits 4301⟩ := by
  have hfirst : Text.IsLine "FROM a" := by decide
  have hlines : physicalLines (("FROM a\n" : Text) ++ (longStep rest ++ '\n' :: below)) =
      ("FROM a" : Text) :: longStep rest :: Text.lines below := by
    have hmark : (("FROM a\n" : Text) ++ (longStep rest ++ '\n' :: below)).head? ≠ some mark :=
      fun h => absurd (Option.some.inj h) (by decide)
    rw [physicalLines, withoutMark_of_head hmark,
      ← Text.lines_append_newline (isLine_longStep hrest) below]
    exact Text.lines_append_newline hfirst (longStep rest ++ '\n' :: below)
  rw [parse, hlines]
  exact ofLines_longStep hrest _

end LongStep

end Drydock.Dockerfile
