/-
  The run over all lines. A run passes over a line, stops at a faulty step, or goes on behind a step
  (`run_induction`). `readStatements_shift`: a run knows its place only by the numbers it writes.
  `readStatements_append`: a run that succeeds goes on with the lines behind it as a run of its own,
  which must know only where it begins and whether a comment stands right above it.
-/
import Drydock.Proofs.Dockerfile.Header
import Drydock.Proofs.Dockerfile.Step
import Drydock.Proofs.Except
import Mathlib.Control.Monad.Basic

namespace Drydock

/-! ## Line numbers -/

/-- The same step `n` lines further down. -/
def Instruction.shift (n : Nat) (i : Instruction) : Instruction :=
  { i with line := i.line + n, endLine := i.endLine + n }

/-- The same keyword `n` lines further down. -/
def UnknownKeyword.shift (n : Nat) (w : UnknownKeyword) : UnknownKeyword :=
  { w with line := w.line + n }

/-- The same fault `n` lines further down. -/
def ParseError.shift (n : Nat) (e : ParseError) : ParseError := { e with line := e.line + n }

namespace Dockerfile

/-- The same statement `n` lines further down. -/
def Statement.shift (n : Nat) (s : Statement) : Statement :=
  { s with
    instruction := s.instruction.shift n
    warning := s.warning.map (UnknownKeyword.shift n) }

theorem Reading.place_shift (r : Reading) (n k : Nat) (commented : Bool) :
    r.place (n + k) commented = (r.place n commented).shift k := by
  unfold Reading.place Statement.shift Instruction.shift
  dsimp only
  rw [Nat.add_right_comm n k 1, Nat.add_right_comm (n + 1) k r.extra]
  congr 1
  split <;> rfl

/-! ## One line more -/

variable {escape : Char} {n : Nat} {flag : Bool} {line : Text} {rest lines : List Text}

theorem readStatements_nil : readStatements escape n flag [] = .ok [] := by
  rw [readStatements]

/-- A line that is blank or a comment makes no step. -/
theorem readStatements_skip (h : isSkippedLine line = true) :
    readStatements escape n flag (line :: rest) =
      readStatements escape (n + 1) (isCommentLine line) rest := by
  rw [readStatements]
  by_cases hblank : (Text.strip line).isEmpty = true
  · have hc : isCommentLine line = false := by
      unfold isCommentLine
      rw [List.isEmpty_iff.mp hblank]
      rfl
    rw [if_pos hblank, hc]
  · have hc : isCommentLine line = true := by
      unfold isSkippedLine at h
      rcases Bool.or_eq_true_iff.mp h with h | h
      · exact absurd h hblank
      · exact h
    rw [if_neg hblank, if_pos hc, hc]

theorem readStatements_solid (h : isSkippedLine line = false) :
    readStatements escape n flag (line :: rest) =
      match readStatement escape n flag (Text.strip line) rest with
      | .error e => .error e
      | .ok statement =>
        (readStatements escape (n + 1 + statement.extra) false (rest.drop statement.extra)).map
          (statement :: ·) := by
  unfold isSkippedLine at h
  obtain ⟨hblank, hc⟩ := Bool.or_eq_false_iff.mp h
  rw [readStatements, if_neg (by simp [hblank])]
  exact if_neg (by simp [hc])

theorem readStatements_fault (h : isSkippedLine line = false) {cause : ParseCause}
    (hr : Reading.read escape (Text.strip line) rest = .error cause) :
    readStatements escape n flag (line :: rest) = .error ⟨n + 1, cause⟩ := by
  rw [readStatements_solid h, readStatement, hr]

theorem readStatements_step (h : isSkippedLine line = false) {r : Reading}
    (hr : Reading.read escape (Text.strip line) rest = .ok r) :
    readStatements escape n flag (line :: rest) =
      (readStatements escape (n + 1 + r.extra) false (rest.drop r.extra)).map
        (r.place n flag :: ·) := by
  rw [readStatements_solid h, readStatement, hr]
  rfl

/-- What holds at the end, behind a line passed over, at a fault, and behind a step holds always. -/
theorem run_induction (escape : Char) {motive : Nat → Bool → List Text → Prop}
    (nil : ∀ n flag, motive n flag [])
    (skip : ∀ n flag line rest, isSkippedLine line = true →
      motive (n + 1) (isCommentLine line) rest → motive n flag (line :: rest))
    (fault : ∀ n flag line rest cause, isSkippedLine line = false →
      Reading.read escape (Text.strip line) rest = .error cause → motive n flag (line :: rest))
    (step : ∀ n flag line rest r, isSkippedLine line = false →
      Reading.read escape (Text.strip line) rest = .ok r →
      motive (n + 1 + r.extra) false (rest.drop r.extra) → motive n flag (line :: rest))
    (n : Nat) (flag : Bool) (lines : List Text) : motive n flag lines := by
  match lines with
  | [] => exact nil n flag
  | line :: rest =>
    cases hs : isSkippedLine line with
    | true =>
      exact skip n flag line rest hs (run_induction escape nil skip fault step _ _ rest)
    | false =>
      cases hr : Reading.read escape (Text.strip line) rest with
      | error cause => exact fault n flag line rest cause hs hr
      | ok r =>
        exact step n flag line rest r hs hr
          (run_induction escape nil skip fault step _ _ (rest.drop r.extra))
termination_by lines.length
decreasing_by all_goals simp only [List.length_cons, List.length_drop]; omega

/-! ## Further down -/

/-- The same run `k` lines further down. -/
theorem readStatements_shift (escape : Char) (n k : Nat) (flag : Bool) (lines : List Text) :
    readStatements escape (n + k) flag lines =
      ((readStatements escape n flag lines).map (List.map (Statement.shift k))).mapError
        (ParseError.shift k) := by
  induction n, flag, lines using run_induction escape with
  | nil n flag =>
    rw [readStatements_nil, readStatements_nil]
    rfl
  | skip n flag line rest hs ih =>
    rw [readStatements_skip hs, readStatements_skip hs, ← ih, Nat.add_right_comm n k 1]
  | fault n flag line rest cause hs hr =>
    rw [readStatements_fault hs hr, readStatements_fault hs hr, Nat.add_right_comm n k 1]
    rfl
  | step n flag line rest r hs hr ih =>
    rw [readStatements_step hs hr, readStatements_step hs hr, Nat.add_right_comm n k 1,
      Nat.add_right_comm (n + 1) k r.extra, ih, Reading.place_shift]
    cases readStatements escape (n + 1 + r.extra) false (rest.drop r.extra) with
    | error e => rfl
    | ok statements => rfl

/-! ## Lines behind -/

/-- Whether the last line is a comment; without lines, whether one stands above. -/
def endsInComment (flag : Bool) (lines : List Text) : Bool :=
  (lines.getLast?.map isCommentLine).getD flag

theorem endsInComment_cons (flag : Bool) (line : Text) (rest : List Text) :
    endsInComment flag (line :: rest) = endsInComment (isCommentLine line) rest := by
  unfold endsInComment
  rw [List.getLast?_cons]
  cases rest.getLast? <;> rfl

/-- The lines of a step hide a comment above it from the lines below it. -/
theorem endsInComment_of_endsSolid {extra : Nat} (hs : isSkippedLine line = false)
    (hend : EndsSolid rest extra) :
    endsInComment flag (line :: rest) = endsInComment false (rest.drop extra) := by
  rw [endsInComment_cons, not_isCommentLine_of_solid hs]
  conv => lhs; rw [← List.take_append_drop extra rest]
  unfold endsInComment
  rw [List.getLast?_append]
  cases hdrop : (rest.drop extra).getLast? with
  | some last => rfl
  | none =>
    cases htake : (rest.take extra).getLast? with
    | none => rfl
    | some last => exact not_isCommentLine_of_solid (hend last htake)

/-- A run that succeeds goes on with the lines behind it. -/
theorem readStatements_append {statements : List Statement}
    (h : readStatements escape n flag lines = .ok statements) (more : List Text) :
    readStatements escape n flag (lines ++ more) =
      (readStatements escape (n + lines.length) (endsInComment flag lines) more).map
        (statements ++ ·) := by
  induction n, flag, lines using run_induction escape generalizing statements with
  | nil n flag =>
    rw [readStatements_nil] at h
    obtain rfl := Except.ok.inj h
    exact (congrFun Except.map_id _).symm
  | skip n flag line rest hs ih =>
    rw [readStatements_skip hs] at h
    rw [List.cons_append, readStatements_skip hs, ih h, endsInComment_cons, List.length_cons,
      Nat.add_right_comm n 1 rest.length, Nat.add_assoc]
  | fault n flag line rest cause hs hr =>
    rw [readStatements_fault hs hr] at h
    exact absurd h (by simp)
  | step n flag line rest r hs hr ih =>
    rw [readStatements_step hs hr] at h
    obtain ⟨tail, htail, rfl⟩ := exists_of_map_eq_ok h
    have hle := Reading.extra_le hr
    have hr' := Reading.read_append hr more
    have hplace : n + 1 + r.extra + (rest.drop r.extra).length = n + (line :: rest).length := by
      rw [List.length_drop, List.length_cons]
      omega
    rw [List.cons_append, readStatements_step hs hr', List.drop_append_of_le_length hle, ih htail,
      hplace, endsInComment_of_endsSolid hs (Reading.endsSolid_read hr)]
    cases readStatements escape (n + (line :: rest).length)
      (endsInComment false (rest.drop r.extra)) more <;> rfl

/-- An empty line at the very end changes nothing. -/
theorem readStatements_append_empty (escape : Char) (n : Nat) (flag : Bool) (lines : List Text) :
    readStatements escape n flag (lines ++ [[]]) = readStatements escape n flag lines := by
  induction n, flag, lines using run_induction escape with
  | nil n flag => rw [List.nil_append, readStatements_skip isSkippedLine_nil, readStatements_nil,
      readStatements_nil]
  | skip n flag line rest hs ih =>
    rw [List.cons_append, readStatements_skip hs, readStatements_skip hs, ih]
  | fault n flag line rest cause hs hr =>
    have hr' := (Reading.read_append_empty escape (Text.strip line) rest).trans hr
    rw [List.cons_append, readStatements_fault hs hr, readStatements_fault hs hr']
  | step n flag line rest r hs hr ih =>
    have hr' := (Reading.read_append_empty escape (Text.strip line) rest).trans hr
    rw [List.cons_append, readStatements_step hs hr, readStatements_step hs hr',
      List.drop_append_of_le_length (Reading.extra_le hr), ih]

/-! ## Whole texts -/

theorem ofLines_of_header {header : Header} (h : Header.read .backslash 0 lines = .ok header) :
    ofLines lines =
      (readStatements header.escape.char header.size false (lines.drop header.size)).map
        (ofStatements header.escape) := by
  rw [ofLines, h]

theorem ofLines_of_header_error {e : ParseError} (h : Header.read .backslash 0 lines = .error e) :
    ofLines lines = .error e := by
  rw [ofLines, h]

theorem ofLines_eq_ok_iff {d : Dockerfile} : ofLines lines = .ok d ↔
    ∃ header statements, Header.read .backslash 0 lines = .ok header ∧
      readStatements header.escape.char header.size false (lines.drop header.size) =
        .ok statements ∧ d = ofStatements header.escape statements := by
  unfold ofLines
  cases hh : Header.read .backslash 0 lines with
  | error e => simp
  | ok header =>
    cases hs : readStatements header.escape.char header.size false (lines.drop header.size) with
    | error e => simp [hs, Except.map]
    | ok statements => simp [hs, Except.map, eq_comm]

/-- The header of lines that are read is the header of more lines, if no comment follows at once. -/
theorem exists_ofLines_append {d : Dockerfile} (h : ofLines lines = .ok d) : ∃ flag : Bool,
    (flag = true → ∃ last ∈ lines.getLast?, isCommentLine last = true) ∧
    ∀ more : List Text, (∀ line ∈ more.head?, isCommentLine line = false) →
      ofLines (lines ++ more) =
        (readStatements d.escape.char lines.length flag more).map fun statements =>
          { instructions := d.instructions ++ statements.map Statement.instruction
            warnings := d.warnings ++ statements.filterMap Statement.warning
            escape := d.escape } := by
  obtain ⟨header, first, hh, hs, rfl⟩ := ofLines_eq_ok_iff.mp h
  have hsize := (Header.size_bounds hh).2
  rw [Nat.zero_add] at hsize
  refine ⟨endsInComment false (lines.drop header.size), ?_, ?_⟩
  · intro hflag
    unfold endsInComment at hflag
    cases hlast : (lines.drop header.size).getLast? with
    | none => exact absurd hflag (by simp [hlast])
    | some last =>
      rw [hlast] at hflag
      refine ⟨last, ?_, hflag⟩
      rw [← List.take_append_drop header.size lines, List.getLast?_append, hlast]
      rfl
  · intro more hmore
    have hplace : header.size + (lines.drop header.size).length = lines.length := by
      rw [List.length_drop]
      omega
    rw [ofLines_of_header (Header.read_append hh (Or.inr hmore)),
      List.drop_append_of_le_length hsize, readStatements_append hs, hplace]
    dsimp only [ofStatements]
    cases readStatements header.escape.char lines.length
        (endsInComment false (lines.drop header.size)) more with
    | error e => rfl
    | ok statements => simp [Except.map, ofStatements]

/-- An empty line at the very end changes nothing in a whole text either. -/
theorem ofLines_append_empty (lines : List Text) : ofLines (lines ++ [[]]) = ofLines lines := by
  cases hh : Header.read .backslash 0 lines with
  | error e =>
    rw [ofLines_of_header_error hh, ofLines_of_header_error (Header.read_append_of_error hh _)]
  | ok header =>
    have hempty : ∀ line ∈ ([[]] : List Text).head?, isCommentLine line = false := by
      intro line hline
      obtain rfl := Option.some.inj hline
      rfl
    have hsize := (Header.size_bounds hh).2
    rw [Nat.zero_add] at hsize
    rw [ofLines_of_header hh, ofLines_of_header (Header.read_append hh (Or.inr hempty)),
      List.drop_append_of_le_length hsize, readStatements_append_empty]

end Dockerfile

end Drydock
