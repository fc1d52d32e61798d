/-
  Reading Dockerfiles. Directives come first; after them every line is blank, a comment, or the
  beginning of a step, which may take more lines by continuation and by bodies that belong to it.
-/
import Drydock.Dockerfile.Continuation
import Drydock.Dockerfile.Directive
import Drydock.Dockerfile.Heredoc
import Drydock.Dockerfile.Instruction
import Drydock.Json.Reader
import Drydock.Text.Line

namespace Drydock

/-- A keyword that no builder knows, and its line. -/
structure UnknownKeyword where
  line : Nat
  keyword : Text
deriving DecidableEq, Repr

/-- The wording of the warning about an unknown keyword. -/
def UnknownKeyword.message (w : UnknownKeyword) : Text :=
  "unknown instruction " ++ Text.quoted w.keyword

/-- A Dockerfile: its steps in order, the keywords that no builder knows, and the escape. -/
structure Dockerfile where
  instructions : List Instruction
  warnings : List UnknownKeyword
  escape : Escape
deriving DecidableEq, Repr

namespace Dockerfile

/-! ## One step -/

/-- A step, the warning about its keyword, and how many lines it takes beyond the first. -/
structure Statement where
  instruction : Instruction
  warning : Option UnknownKeyword
  extra : Nat
deriving DecidableEq, Repr

/-- The first word of a logical line. -/
def keywordOf (l : LogicalLine) : Text := (Text.firstField l.text).1

/-- The text behind the first word of a logical line. -/
def argumentsOf (l : LogicalLine) : Text := Text.strip (Text.firstField l.text).2

/-- Whether a word can be a keyword. -/
def isKeyword (word : Text) : Bool := !word.isEmpty && word.all Text.isAsciiLetter

/-- The opcode of a keyword in any case. -/
def opcodeOf (keyword : Text) : Opcode := Opcode.ofName (keyword.map Char.toUpper)

/--
The arguments in an argument text, and whether they are an array of strings. A text that is none
counts as words, unless its reader has met an integer that is too long.
-/
def splitArguments (rest : Text) : Except ParseCause (List Text × Bool) :=
  if rest.startsWith ['['] && rest.endsWith [']'] then
    match Json.loadTexts rest with
    | .ok arguments => .ok (arguments, true)
    | .error .malformed => .ok (Text.fields rest, false)
    | .error (.tooManyDigits count) => .error (.tooManyDigits count)
  else .ok (Text.fields rest, false)

/-- What keeps a keyword and an argument text from being a step. -/
def refusal? (keyword rest : Text) : Option ParseCause :=
  if !isKeyword keyword then some (.invalidKeyword keyword)
  else if opcodeOf keyword = .base && (Text.fields rest).all Instruction.isFlag then
    some .missingBaseImage
  else if opcodeOf keyword = .user && rest.isEmpty then some .missingUser
  else none

/-- The markers in an argument text that announce bodies; an array of strings has none. -/
def markersOf (keyword rest : Text) (execForm : Bool) : List HeredocMarker :=
  if (opcodeOf keyword).takesHeredoc && !execForm then HeredocMarker.find rest else []

/-- What a step says, wherever it stands, and how many lines it takes beyond the first. -/
structure Reading where
  keyword : Text
  /-- the argument text of the logical line -/
  arguments : Text
  /-- the arguments in it, and whether they are an array of strings -/
  split : List Text × Bool
  bodies : List (List Text)
  extra : Nat
deriving DecidableEq, Repr

namespace Reading

/--
Reads a step; `first` is its first line without the blanks at the ends, and `rest` holds the lines
below it.
-/
def read (escape : Char) (first : Text) (rest : List Text) : Except ParseCause Reading :=
  match LogicalLine.gather escape first rest with
  | none => .error .unterminatedContinuation
  | some l =>
    match refusal? (keywordOf l) (argumentsOf l) with
    | some cause => .error cause
    | none =>
      match splitArguments (argumentsOf l) with
      | .error cause => .error cause
      | .ok split =>
        let markers := markersOf (keywordOf l) (argumentsOf l) split.2
        match HeredocMarker.bodies markers (rest.drop l.extra) with
        | .error marker => .error (.unterminatedHeredoc marker.name)
        | .ok bodies =>
          .ok ⟨keywordOf l, argumentsOf l, split, bodies, l.extra + HeredocMarker.size bodies⟩

/-- The step on the line after the first `n`. -/
def place (n : Nat) (commented : Bool) (r : Reading) : Statement :=
  let (arguments, execForm) := r.split
  { instruction :=
      { opcode := opcodeOf r.keyword
        arguments, execForm, commented
        line := n + 1
        endLine := n + 1 + r.extra
        raw := HeredocMarker.attach r.arguments r.bodies }
    warning := if (opcodeOf r.keyword).isKnown then none else some ⟨n + 1, r.keyword⟩
    extra := r.extra }

end Reading

/-- Reads the step that begins on the line after the first `n`. -/
def readStatement (escape : Char) (n : Nat) (commented : Bool) (first : Text) (rest : List Text) :
    Except ParseError Statement :=
  match Reading.read escape first rest with
  | .error cause => .error ⟨n + 1, cause⟩
  | .ok reading => .ok (reading.place n commented)

/-! ## All steps -/

/-- Reads the steps on the lines behind the first `n`, the last of which may be a comment. -/
def readStatements (escape : Char) (n : Nat) (afterComment : Bool) :
    List Text → Except ParseError (List Statement)
  | [] => .ok []
  | line :: rest =>
    if (Text.strip line).isEmpty then readStatements escape (n + 1) false rest
    else if isCommentLine line then readStatements escape (n + 1) true rest
    else
      match readStatement escape n afterComment (Text.strip line) rest with
      | .error e => .error e
      | .ok statement =>
        (readStatements escape (n + 1 + statement.extra) false (rest.drop statement.extra)).map
          (statement :: ·)
termination_by lines => lines.length
decreasing_by all_goals simp only [List.length_cons, List.length_drop]; omega

/-- The byte-order mark. -/
def mark : Char := Char.ofNat 0xFEFF

/-- A text without a byte-order mark at its front. -/
def withoutMark (t : Text) : Text :=
  match t with
  | c :: rest => if c = mark then rest else t
  | [] => []

/-- The physical lines of a Dockerfile. -/
def physicalLines (t : Text) : List Text := Text.lines (withoutMark t)

/-- The Dockerfile that steps make up. -/
def ofStatements (escape : Escape) (statements : List Statement) : Dockerfile :=
  { instructions := statements.map Statement.instruction
    warnings := statements.filterMap Statement.warning
    escape }

/-- Reads physical lines. -/
def ofLines (lines : List Text) : Except ParseError Dockerfile :=
  match Header.read .backslash 0 lines with
  | .error e => .error e
  | .ok header =>
    (readStatements header.escape.char header.size false (lines.drop header.size)).map
      (ofStatements header.escape)

/-- Reads a Dockerfile. -/
def parse (t : Text) : Except ParseError Dockerfile := ofLines (physicalLines t)

/-- Reads a Dockerfile from the octets of a file. -/
def ofOctets (octets : Text.Octets) : Except ParseError Dockerfile :=
  match Text.Utf8.decode octets with
  | .error fault => .error ⟨1, .notUtf8 fault.cause⟩
  | .ok t => parse t

end Dockerfile

end Drydock
