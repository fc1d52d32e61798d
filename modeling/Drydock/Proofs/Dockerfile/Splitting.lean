/-
  Steps over several lines. A step may be written in pieces, with the escape character behind each
  but the last, and with blank lines and comments before the next. It says the same as on one line
  with a space between pieces, or it is refused for the same reason at the same line, and what
  stands below it only moves down (`parse_split`). An array with a number that is too long is no
  step in either form, and not reported (`split_array_not_reported`).
-/
import Drydock.Proofs.Dockerfile.Joining
import Drydock.Proofs.Dockerfile.LongNumber
import Drydock.Proofs.Text.Fields

namespace Drydock

/-- Blanks within a line. -/
def Text.IsGap (t : Text) : Prop := ∀ c ∈ t, isBlank c = true ∧ isLineEnd c = false

instance (t : Text) : Decidable (Text.IsGap t) := List.decidableBAll _ t

theorem Escape.not_blank (escape : Escape) : Text.isBlank escape.char = false := by
  cases escape <;> decide

theorem Escape.not_lineEnd (escape : Escape) : Text.isLineEnd escape.char = false := by
  cases escape <;> decide

namespace Dockerfile

/-! ## Pieces -/

/-- A text that may stand on a line of its own as a part of a step. -/
structure IsPiece (t : Text) : Prop where
  tight : Text.IsTight t
  line : Text.IsLine t
  not_comment : t.head? ≠ some '#'

/-- A line that begins with a piece is neither blank nor a comment. -/
theorem IsPiece.solid {p indent : Text} (hp : IsPiece p) (hindent : Text.IsGap indent) (u : Text) :
    isSkippedLine (indent ++ (p ++ u)) = false := by
  obtain ⟨c, v, rfl, hc, -⟩ := (Text.isTight_iff p).mp hp.tight
  have hsign : c ≠ '#' := fun h => hp.not_comment (by rw [h]; rfl)
  unfold isSkippedLine isCommentLine
  rw [Text.strip_blanks_append fun d hd => (hindent d hd).1, List.cons_append,
    Text.strip_cons_of_not_blank hc]
  simp [hsign]

/-- How a step goes on: blanks behind the escape character, lines that are passed over, and the
next piece behind its indent. -/
structure Continuation where
  trailing : Text
  skipped : List Text
  indent : Text
  piece : Text
  trailing_blank : Text.IsGap trailing
  skipped_lines : ∀ line ∈ skipped, isSkippedLine line = true ∧ Text.IsLine line
  indent_blank : Text.IsGap indent
  isPiece : IsPiece piece

/-- A step that begins with `first` and goes on over several lines. -/
def written (escape : Char) (first : Text) : List Continuation → Text
  | [] => first
  | c :: cs =>
    first ++ ' ' :: escape :: (c.trailing ++ '\n' ::
      ((c.skipped.flatMap fun line => line ++ ['\n']) ++ written escape (c.indent ++ c.piece) cs))

/-- The same step on one line. -/
def joined (first : Text) (cs : List Continuation) : Text :=
  Text.joinWith " " (first :: cs.map Continuation.piece)

/-- How many lines more a step takes if it is not on one line. -/
def excess : List Continuation → Nat
  | [] => 0
  | c :: cs => c.skipped.length + 1 + excess cs

theorem exists_written_eq (escape : Char) (first : Text) (cs : List Continuation) :
    ∃ u, written escape first cs = first ++ u := by
  cases cs with
  | nil => exact ⟨[], (List.append_nil first).symm⟩
  | cons c cs => exact ⟨_, rfl⟩

theorem joined_cons (first : Text) (c : Continuation) (cs : List Continuation) :
    joined first (c :: cs) = first ++ ' ' :: joined c.piece cs := by
  unfold joined
  rw [List.map_cons, Text.joinWith_cons_cons, List.append_assoc]
  rfl

theorem exists_joined_eq (first : Text) (cs : List Continuation) :
    ∃ u, joined first cs = first ++ u := by
  cases cs with
  | nil => exact ⟨[], (List.append_nil first).symm⟩
  | cons c cs => exact ⟨_, joined_cons first c cs⟩

theorem isLine_joined {first : Text} (h : Text.IsLine first) (cs : List Continuation) :
    Text.IsLine (joined first cs) := by
  induction cs generalizing first with
  | nil => exact h
  | cons c cs ih =>
    rw [joined_cons]
    exact h.append (Text.isLine_cons.mpr ⟨by decide, ih c.isPiece.line⟩)

/-! ## Lines of a step -/

open LogicalLine (gathered)

/-- The first line of a step that goes on: behind the piece stands the escape character alone. -/
theorem strip_first {escape : Escape} {p indent trailing : Text} (hp : IsPiece p)
    (hindent : Text.IsGap indent) (htrailing : Text.IsGap trailing) :
    Text.strip (indent ++ (p ++ ' ' :: escape.char :: trailing)) = p ++ ' ' :: [escape.char] := by
  have hescape := escape.not_blank
  have hend : Text.strip (escape.char :: trailing) = [escape.char] := by
    rw [Text.strip_cons_of_not_blank hescape,
      (Text.stripRight_eq_nil_iff trailing).mpr fun c hc => (htrailing c hc).1]
  rw [Text.strip_blanks_append fun c hc => (hindent c hc).1, hp.tight.strip_space, hend,
    Text.joinBlank_of_ne_nil hp.tight.1 (List.cons_ne_nil _ _)]
  intro c hc
  obtain rfl := Option.some.inj hc
  exact hescape

/-- An escape character alone says nothing itself. -/
theorem gathered_escape (escape : Escape) {front : List Text}
    (hfront : ∀ line ∈ front, isSkippedLine line = true) {line : Text}
    (hs : isSkippedLine line = false) (rest : List Text) :
    gathered escape.char [escape.char] (front ++ line :: rest) =
      (gathered escape.char (Text.strip line) rest).map
        (Prod.map id (· + (front.length + 1))) := by
  have htight : Text.stripRight [escape.char] = [escape.char] := by cases escape <;> decide
  have hcontinued : isContinued escape.char [escape.char] = true := by
    unfold isContinued
    rw [htight]
    simp
  have hnothing : withoutEscape [escape.char] = [] := by
    unfold withoutEscape
    rw [htight]
    rfl
  rw [LogicalLine.gathered_skips hcontinued hfront, LogicalLine.gathered_continue hcontinued hs,
    hnothing, Option.map_map, Prod.map_comp_map]
  congr 1
  funext l
  exact congrArg (l.1, ·) (by simp only [Function.comp_apply]; omega)

variable {r tail : Text} {below : List Text}

theorem exists_joined_append_eq {p : Text} (hp : IsPiece p) (cs : List Continuation) (tail : Text) :
    ∃ c u, joined p cs ++ tail = c :: u ∧ Text.isBlank c = false := by
  obtain ⟨u, hu⟩ := exists_joined_eq p cs
  obtain ⟨c, v, rfl, hc, -⟩ := (Text.isTight_iff p).mp hp.tight
  exact ⟨c, v ++ u ++ tail, by rw [hu]; rfl, hc⟩

theorem isTight_strip_joined {p : Text} (hp : IsPiece p) (cs : List Continuation) (tail : Text) :
    Text.IsTight (Text.strip (joined p cs ++ tail)) := by
  obtain ⟨c, u, h, hc⟩ := exists_joined_append_eq hp cs tail
  rw [h]
  exact Text.isTight_of_strip hc u

theorem strip_joined_cons {p : Text} (hp : IsPiece p) (c : Continuation) (cs : List Continuation)
    (tail : Text) :
    Text.strip (joined p (c :: cs) ++ tail) =
      p ++ ' ' :: Text.strip (joined c.piece cs ++ tail) := by
  have hrest := isTight_strip_joined c.isPiece cs tail
  rw [joined_cons, List.append_assoc, List.cons_append, hp.tight.strip_space,
    Text.joinBlank_of_ne_nil hp.tight.1 hrest.1]
  intro d hd
  obtain ⟨a, u, h, ha⟩ := exists_joined_append_eq c.isPiece cs tail
  rw [h] at hd
  obtain rfl := Option.some.inj hd
  exact ha

theorem lines_written_cons (escape : Escape) {first : Text} (hfirst : Text.IsLine first)
    (c : Continuation) (cs : List Continuation) (r : Text) :
    Text.lines (written escape.char first (c :: cs) ++ r) =
      (first ++ ' ' :: escape.char :: c.trailing) ::
        (c.skipped ++ Text.lines (written escape.char (c.indent ++ c.piece) cs ++ r)) := by
  have hline : Text.IsLine (first ++ ' ' :: escape.char :: c.trailing) := by
    refine hfirst.append (Text.isLine_cons.mpr ⟨by decide, ?_⟩)
    exact Text.isLine_cons.mpr ⟨escape.not_lineEnd, fun d hd => (c.trailing_blank d hd).2⟩
  have htext : written escape.char first (c :: cs) ++ r =
      (first ++ ' ' :: escape.char :: c.trailing) ++ '\n' ::
        ((c.skipped.flatMap fun line => line ++ ['\n']) ++
          (written escape.char (c.indent ++ c.piece) cs ++ r)) := by
    rw [written]
    simp only [List.append_assoc, List.cons_append]
  rw [htext, Text.lines_append_newline hline,
    Text.lines_append_newlines fun line h => (c.skipped_lines line h).2]

variable {r tail : Text} {below : List Text}

/-- On its lines a step says what it says on one line, and takes more lines. The text `r` behind it
adds `tail` to its last line and puts the lines `below` under it. -/
theorem exists_lines_written (escape : Escape)
    (hr : ∀ u : Text, u ≠ [] → Text.IsLine u → Text.lines (u ++ r) = (u ++ tail) :: below)
    (cs : List Continuation) {p indent : Text} (hp : IsPiece p) (hindent : Text.IsGap indent) :
    ∃ first front, Text.lines (written escape.char (indent ++ p) cs ++ r) =
        first :: (front ++ below) ∧
      front.length = excess cs ∧ isSkippedLine first = false ∧
      gathered escape.char (Text.strip first) (front ++ below) =
        (gathered escape.char (Text.strip (joined p cs ++ tail)) below).map
          (Prod.map id (· + excess cs)) := by
  have hline : Text.IsLine (indent ++ p) :=
    Text.IsLine.append (fun c hc => (hindent c hc).2) hp.line
  induction cs generalizing p indent with
  | nil =>
    refine ⟨indent ++ (p ++ tail), [], ?_, rfl, hp.solid hindent tail, ?_⟩
    · rw [written, hr _ (by simp [hp.tight.1]) hline, List.append_assoc]
      rfl
    · rw [Text.strip_blanks_append fun c hc => (hindent c hc).1]
      exact (congrFun Option.map_id _).symm
  | cons c cs ih =>
    obtain ⟨next, front, hlines, hlength, hsolid, hsays⟩ := ih c.isPiece c.indent_blank
      (Text.IsLine.append (fun d hd => (c.indent_blank d hd).2) c.isPiece.line)
    refine ⟨indent ++ (p ++ ' ' :: escape.char :: c.trailing), c.skipped ++ next :: front,
      ?_, ?_, hp.solid hindent _, ?_⟩
    · rw [lines_written_cons escape hline, hlines, List.append_assoc, List.append_assoc,
        List.cons_append]
    · rw [List.length_append, List.length_cons, hlength, excess]
      omega
    · -- Both ways the piece stands in front of what the other pieces say.
      have hescape : Text.IsTight [escape.char] := by cases escape <;> decide
      have hskipped : ∀ line ∈ c.skipped, isSkippedLine line = true :=
        fun line h => (c.skipped_lines line h).1
      rw [strip_first hp hindent c.trailing_blank, LogicalLine.gathered_append hp.tight hescape,
        List.append_assoc, List.cons_append, gathered_escape escape hskipped hsolid, hsays,
        strip_joined_cons hp,
        LogicalLine.gathered_append hp.tight (isTight_strip_joined c.isPiece cs tail),
        Option.map_map, Option.map_map, Option.map_map, excess]
      congr 1
      funext l
      refine congrArg (Text.joinBlank p l.1, ·) ?_
      show l.2 + excess cs + (c.skipped.length + 1) = l.2 + (c.skipped.length + 1 + excess cs)
      omega

/-! ## Statements -/

end Dockerfile

/-- The same step over `m` lines more. -/
def Instruction.lengthen (m : Nat) (i : Instruction) : Instruction :=
  { i with endLine := i.endLine + m }

namespace Dockerfile

/-- The same statement over `m` lines more. -/
def Statement.lengthen (m : Nat) (s : Statement) : Statement :=
  { s with instruction := s.instruction.lengthen m, extra := s.extra + m }

theorem Reading.place_lengthen (r : Reading) (n m : Nat) (commented : Bool) :
    (r.lengthen m).place n commented = (r.place n commented).lengthen m := by
  unfold Reading.place Reading.lengthen Statement.lengthen Instruction.lengthen
  dsimp only
  rw [← Nat.add_assoc]

section Lengthen

variable {escape : Char} {n : Nat} {flag : Bool} {line other : Text} {front rest : List Text}

/-- A run goes on below a step that is longer as it does below the step, but further down. -/
theorem readStatements_step_lengthen (hother : isSkippedLine other = false) {r : Reading}
    (hread : Reading.read escape (Text.strip other) (front ++ rest) =
      .ok (r.lengthen front.length)) :
    readStatements escape n flag (other :: (front ++ rest)) =
      (((readStatements escape (n + 1 + r.extra) false (rest.drop r.extra)).map
        (List.map (Statement.shift front.length))).mapError (ParseError.shift front.length)).map
        ((r.place n flag).lengthen front.length :: ·) := by
  have hbelow : (front ++ rest).drop (r.lengthen front.length).extra = rest.drop r.extra := by
    rw [Reading.lengthen, Nat.add_comm, List.drop_length_add_append]
  rw [readStatements_step hother hread, hbelow, Reading.lengthen, ← Nat.add_assoc,
    readStatements_shift, ← Reading.lengthen, Reading.place_lengthen]

/-- A run that begins with a step succeeds as well if the step is longer. -/
theorem readStatements_lengthen (hline : isSkippedLine line = false)
    (hother : isSkippedLine other = false)
    (hread : Reading.read escape (Text.strip other) (front ++ rest) =
      (Reading.read escape (Text.strip line) rest).map (Reading.lengthen front.length))
    {statements : List Statement}
    (h : readStatements escape n flag (line :: rest) = .ok statements) :
    ∃ (r : Reading) (later : List Statement), statements = r.place n flag :: later ∧
      readStatements escape n flag (other :: (front ++ rest)) =
        .ok ((r.place n flag).lengthen front.length ::
          later.map (Statement.shift front.length)) := by
  cases hr : Reading.read escape (Text.strip line) rest with
  | error cause =>
    rw [readStatements_fault hline hr] at h
    exact absurd h (by simp)
  | ok r =>
    rw [hr] at hread
    rw [readStatements_step hline hr] at h
    obtain ⟨later, hlater, rfl⟩ := exists_of_map_eq_ok h
    refine ⟨r, later, rfl, ?_⟩
    rw [readStatements_step_lengthen hother hread, hlater]
    rfl

/-- A fault of the step stays where it is, and one below it is found further down. -/
theorem readStatements_lengthen_of_error (hline : isSkippedLine line = false)
    (hother : isSkippedLine other = false)
    (hread : Reading.read escape (Text.strip other) (front ++ rest) =
      (Reading.read escape (Text.strip line) rest).map (Reading.lengthen front.length))
    {e : ParseError} (h : readStatements escape n flag (line :: rest) = .error e) :
    n + 1 ≤ e.line ∧
      readStatements escape n flag (other :: (front ++ rest)) =
        .error (if e.line = n + 1 then e else e.shift front.length) := by
  cases hr : Reading.read escape (Text.strip line) rest with
  | error cause =>
    rw [hr] at hread
    rw [readStatements_fault hline hr] at h
    obtain rfl := Except.error.inj h
    rw [if_pos rfl, readStatements_fault hother hread]
    exact ⟨Nat.le_refl _, rfl⟩
  | ok r =>
    rw [hr] at hread
    rw [readStatements_step hline hr] at h
    have hrun := eq_error_of_map h
    obtain ⟨k, -, -, hplace, -⟩ := readStatements_error hrun
    refine ⟨by omega, ?_⟩
    rw [if_neg (by omega), readStatements_step_lengthen hother hread, hrun]
    rfl

end Lengthen

theorem warnings_cons (s : Statement) (later : List Statement) :
    (s :: later).filterMap Statement.warning =
      s.warning.toList ++ later.filterMap Statement.warning := by
  cases h : s.warning with
  | none => rw [List.filterMap_cons_none h, Option.toList_none, List.nil_append]
  | some w => rw [List.filterMap_cons_some h, Option.toList_some, List.singleton_append]

theorem Reading.place_warning (r : Reading) (n : Nat) (commented : Bool) :
    (r.place n commented).warning.map UnknownKeyword.line =
      if (r.place n commented).instruction.opcode.isKnown then none
      else some (r.place n commented).instruction.line := by
  unfold Reading.place
  dsimp only
  split <;> rfl

/-! ## Whole texts -/

theorem ne_of_isAsciiLetter {c d : Char} (hc : Text.isAsciiLetter c = true)
    (hd : Text.isAsciiLetter d = false) : c ≠ d := by
  rintro rfl
  exact absurd hc (by simp [hd])

/-- A text that begins with a letter is read apart from a text that ends its last line. -/
theorem physicalLines_append_letter {a t : Text}
    (hend : ∀ c ∈ (withoutMark a).getLast?, Text.isLineEnd c = true) {c : Char}
    (hc : Text.isAsciiLetter c = true) (ht : t.head? = some c) :
    physicalLines (a ++ t) = physicalLines a ++ Text.lines t := by
  have hmark : t.head? ≠ some mark := by
    rw [ht]
    exact fun h => ne_of_isAsciiLetter hc (by decide) (Option.some.inj h)
  have hends : Text.EndsLine (withoutMark a) t := by
    cases hlast : (withoutMark a).getLast? with
    | none => exact Or.inl (List.getLast?_eq_none_iff.mp hlast)
    | some d =>
      refine Or.inr ⟨d, hlast, hend d hlast, fun _ => ?_⟩
      rw [ht]
      exact fun h => ne_of_isAsciiLetter hc (by decide) (Option.some.inj h)
  rw [physicalLines_append hends hmark]
  conv => lhs; rhs; rw [physicalLines, withoutMark_of_head hmark]

/-- Behind a text that is read, a text that begins with a letter begins with a step. -/
theorem exists_parse_append {a : Text} {before : Dockerfile} (ha : parse a = .ok before)
    (hend : ∀ c ∈ (withoutMark a).getLast?, Text.isLineEnd c = true) : ∃ flag : Bool,
    ∀ (t : Text) (c : Char) (line : Text) (rest : List Text), t.head? = some c →
      Text.isAsciiLetter c = true → Text.lines t = line :: rest → isSkippedLine line = false →
      parse (a ++ t) =
        (readStatements before.escape.char (physicalLines a).length flag (line :: rest)).map
          fun statements =>
            { instructions := before.instructions ++ statements.map Statement.instruction
              warnings := before.warnings ++ statements.filterMap Statement.warning
              escape := before.escape } := by
  obtain ⟨flag, -, hmore⟩ := exists_ofLines_append ha
  refine ⟨flag, fun t c line rest ht hc hlines hs => ?_⟩
  unfold parse
  rw [physicalLines_append_letter hend hc ht, hlines]
  refine hmore _ fun other ho => ?_
  obtain rfl := Option.some.inj ho
  exact not_isCommentLine_of_solid hs

section Split

variable {a p : Text} {before : Dockerfile} (ha : parse a = .ok before)
  (hend : ∀ c ∈ (withoutMark a).getLast?, Text.isLineEnd c = true)
  (htight : Text.IsTight p) (hp : Text.IsLine p)
  (hletter : ∃ c, p.head? = some c ∧ Text.isAsciiLetter c = true)

/-- A Dockerfile with further statements behind its own. -/
def extend (d : Dockerfile) (statements : List Statement) : Dockerfile :=
  { instructions := d.instructions ++ statements.map Statement.instruction
    warnings := d.warnings ++ statements.filterMap Statement.warning
    escape := d.escape }

include ha hend htight hp hletter

/-- Behind a text, a run begins with the step on one `line`, and another, which is alike, with the
step on the line `first` and those in `front`. -/
theorem exists_runs (cs : List Continuation) (r : Text) :
    ∃ (flag : Bool) (line first : Text) (front below : List Text),
      isSkippedLine line = false ∧ isSkippedLine first = false ∧ front.length = excess cs ∧
      Reading.read before.escape.char (Text.strip first) (front ++ below) =
        (Reading.read before.escape.char (Text.strip line) below).map
          (Reading.lengthen front.length) ∧
      parse (a ++ (joined p cs ++ r)) =
        (readStatements before.escape.char (physicalLines a).length flag (line :: below)).map
          before.extend ∧
      parse (a ++ (written before.escape.char p cs ++ r)) =
        (readStatements before.escape.char (physicalLines a).length flag
          (first :: (front ++ below))).map before.extend := by
  obtain ⟨c, hc, hletter⟩ := hletter
  have hpiece : IsPiece p := ⟨htight, hp, by
    rw [hc]
    exact fun h => ne_of_isAsciiLetter hletter (by decide) (Option.some.inj h)⟩
  obtain ⟨tail, below, hr⟩ := Text.exists_lines_append r
  have hgap : Text.IsGap [] := fun d hd => absurd hd List.not_mem_nil
  obtain ⟨u, hu⟩ := exists_joined_eq p cs
  obtain ⟨v, hv⟩ := exists_written_eq before.escape.char p cs
  have hhead (t : Text) : (p ++ t).head? = some c := by rw [List.head?_append, hc, Option.some_or]
  obtain ⟨first, front, hlines, hlength, hfirst, hsays⟩ :=
    exists_lines_written before.escape hr cs hpiece hgap
  rw [List.nil_append] at hlines
  have hline : Text.lines (joined p cs ++ r) = (joined p cs ++ tail) :: below :=
    hr _ (by simp [hu, htight.1]) (isLine_joined hp cs)
  have hsolid : isSkippedLine (joined p cs ++ tail) = false := by
    rw [hu, List.append_assoc]
    exact hpiece.solid hgap (u ++ tail)
  obtain ⟨flag, hparse⟩ := exists_parse_append ha hend
  exact ⟨flag, joined p cs ++ tail, first, front, below, hsolid, hfirst, hlength,
    Reading.read_lengthen (hlength ▸ hsays),
    hparse _ c _ _ (by rw [hu, List.append_assoc, hhead]) hletter hline hsolid,
    hparse _ c _ _ (by rw [hv, List.append_assoc, hhead]) hletter hlines hfirst⟩

/-- A fault of a step is the same on several lines, and one below the step is found further down. -/
theorem parse_written_of_error {cs : List Continuation} {r : Text} {e : ParseError}
    (h : parse (a ++ (joined p cs ++ r)) = .error e) :
    (physicalLines a).length + 1 ≤ e.line ∧
      parse (a ++ (written before.escape.char p cs ++ r)) =
        .error (if e.line = (physicalLines a).length + 1 then e else e.shift (excess cs)) := by
  obtain ⟨flag, line, first, front, below, hsolid, hfirst, hlength, hread, hone, hmany⟩ :=
    exists_runs ha hend htight hp hletter cs r
  rw [hone] at h
  obtain ⟨hle, hrun⟩ := readStatements_lengthen_of_error hsolid hfirst hread (eq_error_of_map h)
  rw [hmany, hrun, hlength]
  exact ⟨hle, rfl⟩

end Split

/-- A step says the same on several lines as on one, at the same place; a fault of it is the same
at the same line; and the steps and faults below it only move down. A fault is not reported as such
just if the step on one line, or one below it, stops at a number that is too long. -/
theorem parse_split (a p r : Text) (cs : List Continuation) (before : Dockerfile)
    (ha : parse a = .ok before)
    (hend : ∀ c ∈ (withoutMark a).getLast?, Text.isLineEnd c = true)
    (htight : Text.IsTight p) (hp : Text.IsLine p)
    (hletter : ∃ c, p.head? = some c ∧ Text.isAsciiLetter c = true) :
    match parse (a ++ (joined p cs ++ r)) with
    | .error e =>
      (physicalLines a).length + 1 ≤ e.line ∧
      parse (a ++ (written before.escape.char p cs ++ r)) =
        .error (if e.line = (physicalLines a).length + 1 then e else e.shift (excess cs)) ∧
      (e.cause.isReported = false ↔ MeetsLongNumber (physicalLines (a ++ (joined p cs ++ r))))
    | .ok d =>
      ∃ (i : Instruction) (after : List Instruction) (warning : Option UnknownKeyword)
        (later : List UnknownKeyword),
        d.instructions = before.instructions ++ i :: after ∧
        i.line = (physicalLines a).length + 1 ∧
        d.warnings = before.warnings ++ (warning.toList ++ later) ∧
        (warning.map UnknownKeyword.line = if i.opcode.isKnown then none else some i.line) ∧
        parse (a ++ (written before.escape.char p cs ++ r)) = .ok
          { instructions := before.instructions ++
              i.lengthen (excess cs) :: after.map (Instruction.shift (excess cs))
            warnings := before.warnings ++
              (warning.toList ++ later.map (UnknownKeyword.shift (excess cs)))
            escape := before.escape } := by
  cases hparse : parse (a ++ (joined p cs ++ r)) with
  | error e =>
    obtain ⟨hle, h⟩ := parse_written_of_error ha hend htight hp hletter hparse
    exact ⟨hle, h, isReported_iff_of_parse hparse⟩
  | ok d =>
    obtain ⟨flag, line, first, front, below, hsolid, hfirst, hlength, hread, hone, hmany⟩ :=
      exists_runs ha hend htight hp hletter cs r
    obtain ⟨statements, hrun, rfl⟩ := exists_of_map_eq_ok (hone.symm.trans hparse)
    obtain ⟨reading, later, rfl, h⟩ := readStatements_lengthen hsolid hfirst hread hrun
    rw [hmany, h, hlength]
    refine ⟨_, later.map Statement.instruction, (reading.place _ flag).warning,
      later.filterMap Statement.warning, rfl, rfl, ?_, reading.place_warning _ flag, ?_⟩
    · dsimp only [extend]
      rw [warnings_cons]
    · rw [Except.map, extend, List.map_cons, instructions_map_shift, warnings_cons,
        warnings_map_shift]
      rfl

/-- A marker behind an empty line and a comment. -/
def Continuation.markerBelowComment : Continuation where
  trailing := " "
  skipped := ["", "# c"]
  indent := "  "
  piece := "y <<E"
  trailing_blank := by decide
  skipped_lines := by decide
  indent_blank := by decide
  isPiece := ⟨by decide, by decide, by decide⟩

/-- The body of a step may stand below pieces of it, with the other escape as well. -/
theorem parse_split_of_two_pieces :
    parse "#escape=\x60\nFROM a\nRUN x \x60 \n\n# c\n  y <<E\nz\nE\nENV u\n" = .ok
      { instructions :=
          [{ opcode := .base, arguments := ["a"], line := 2, endLine := 2, raw := "a" },
           { opcode := .run, arguments := ["x", "y", "<<E"], line := 3, endLine := 8,
             raw := "x y <<E\nz" },
           { opcode := .env, arguments := ["u"], line := 9, endLine := 9, raw := "u" }]
        warnings := []
        escape := .backquote } := by
  have ha : parse "#escape=\x60\nFROM a\n" = .ok
      { instructions := [{ opcode := .base, arguments := ["a"], line := 2, endLine := 2, raw := "a" }]
        warnings := []
        escape := .backquote } := by decide +kernel
  have hone : parse ("#escape=\x60\nFROM a\n" ++ (joined "RUN x" [.markerBelowComment] ++
      "\nz\nE\nENV u\n")) = .ok
      { instructions :=
          [{ opcode := .base, arguments := ["a"], line := 2, endLine := 2, raw := "a" },
           { opcode := .run, arguments := ["x", "y", "<<E"], line := 3, endLine := 5,
             raw := "x y <<E\nz" },
           { opcode := .env, arguments := ["u"], line := 6, endLine := 6, raw := "u" }]
        warnings := []
        escape := .backquote } := by decide +kernel
  have hend : ∀ c ∈ (withoutMark "#escape=\x60\nFROM a\n").getLast?, Text.isLineEnd c = true := by
    intro c hc
    have hlast : (withoutMark "#escape=\x60\nFROM a\n").getLast? = some '\n' := by decide
    obtain rfl := Option.some.inj (hlast.symm.trans hc)
    rfl
  have h := parse_split "#escape=\x60\nFROM a\n" "RUN x" "\nz\nE\nENV u\n"
    [.markerBelowComment] _ ha hend (by decide) (by decide) ⟨'R', rfl, rfl⟩
  rw [hone] at h
  obtain ⟨i, after, warning, later, hi, -, hw, -, hsplit⟩ := h
  obtain ⟨rfl, rfl⟩ := List.cons.inj (List.cons.inj hi).2
  have hnone : warning.toList ++ later = [] := hw.symm
  obtain ⟨hwarning, rfl⟩ := List.append_eq_nil_iff.mp hnone
  rw [hwarning] at hsplit
  exact hsplit

/-- A last item of an array on a line of its own. -/
def Continuation.lastItem : Continuation where
  trailing := []
  skipped := []
  indent := []
  piece := "x]"
  trailing_blank := by decide
  skipped_lines := by decide
  indent_blank := by decide
  isPiece := ⟨by decide, by decide, by decide⟩

theorem joined_lastItem :
    joined ("RUN" ++ ' ' :: '[' :: longRow) [.lastItem] = longStep "x" := by
  rw [joined_cons, longStep, rowArray]
  simp only [List.append_assoc, List.cons_append]
  rfl

/-- An array with a number that is too long is neither read nor reported, be it written on one line
or on two. -/
theorem split_array_not_reported :
    parse (("FROM a\n" : Text) ++
        (joined ("RUN" ++ ' ' :: '[' :: longRow) [.lastItem] ++ ['\n'])) =
      .error ⟨2, .tooManyDigits 4301⟩ ∧
    parse (("FROM a\n" : Text) ++
        (written '\\' ("RUN" ++ ' ' :: '[' :: longRow) [.lastItem] ++ ['\n'])) =
      .error ⟨2, .tooManyDigits 4301⟩ ∧
    (ParseCause.tooManyDigits 4301).isReported = false := by
  have hfront : parse "FROM a\n" = .ok
      { instructions :=
          [{ opcode := .base, arguments := ["a"], line := 1, endLine := 1, raw := "a" }]
        warnings := []
        escape := .backslash } := by decide +kernel
  have hend : ∀ c ∈ (withoutMark "FROM a\n").getLast?, Text.isLineEnd c = true := by
    intro c hc
    have hlast : (withoutMark "FROM a\n").getLast? = some '\n' := by decide
    obtain rfl := Option.some.inj (hlast.symm.trans hc)
    rfl
  have hitem : Text.IsWord ('[' :: longRow) := by
    refine ⟨List.cons_ne_nil _ _, fun c hc => ?_⟩
    rcases List.mem_cons.mp hc with rfl | hc
    · decide
    · exact Text.isBlank_of_isAsciiDigit (isLongRow_longRow.digits c hc)
  have htight : Text.IsTight ("RUN" ++ ' ' :: '[' :: longRow) :=
    Text.IsTight.append_space (by decide) hitem.isTight
  have hline : Text.IsLine ("RUN" ++ ' ' :: '[' :: longRow) :=
    Text.IsLine.append (by decide) (Text.isLine_cons.mpr ⟨by decide, hitem.isLine⟩)
  have hone : parse (("FROM a\n" : Text) ++
      (joined ("RUN" ++ ' ' :: '[' :: longRow) [.lastItem] ++ ['\n'])) =
      .error ⟨2, .tooManyDigits 4301⟩ := by
    rw [joined_lastItem]
    exact parse_longStep (by decide) []
  exact ⟨hone, (parse_written_of_error hfront hend htight hline ⟨'R', rfl, rfl⟩ hone).2, rfl⟩

end Dockerfile

end Drydock
