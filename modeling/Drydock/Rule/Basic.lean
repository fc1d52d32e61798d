/-
  Findings and the rules that report them. A rule sees all steps of a Dockerfile and nothing else;
  it may fail, and then says how.
-/
import Drydock.Dockerfile.Instruction
import Drydock.Fault

namespace Drydock

/-- How much a finding matters, most first. -/
inductive Severity where
  | error
  | warning
  | info
deriving DecidableEq, Repr

namespace Severity

/-- All severities, most severe first. -/
def all : List Severity := [error, warning, info]

/-- The name of a severity. -/
def name : Severity → Text
  | error => "ERROR"
  | warning => "WARNING"
  | info => "INFO"

/-- The severity of a name in capital letters. -/
def ofName? (name : Text) : Option Severity := all.find? fun s => s.name = name

@[simp] theorem ofName?_name (s : Severity) : ofName? s.name = some s := by cases s <;> decide

end Severity

/-- What a rule has to say about one line, or about the whole Dockerfile at line zero. -/
structure Finding where
  ruleId : Text
  severity : Severity
  line : Int
  message : Text
deriving DecidableEq, Repr

/-- An independent check of a Dockerfile. -/
structure Rule where
  id : Text
  severity : Severity
  inspect : List Instruction → Except Fault (List Finding)

namespace Rule

/-- What a rule observes: a line, and what is to be said about it. -/
abbrev Remark := Int × Text

/-- A remark as a finding of a rule. -/
def finding (id : Text) (severity : Severity) (remark : Remark) : Finding :=
  ⟨id, severity, remark.1, remark.2⟩

/-- The rule that makes remarks and never fails. -/
def ofRemarks (id : Text) (severity : Severity) (remarks : List Instruction → List Remark) : Rule :=
  ⟨id, severity, fun instructions => .ok ((remarks instructions).map (finding id severity))⟩

/-- The rule that makes remarks by accesses each of which may raise a fault. -/
def ofChecked (id : Text) (severity : Severity)
    (remarks : List Instruction → Except Fault (List Remark)) : Rule :=
  ⟨id, severity, fun instructions => (remarks instructions).map (·.map (finding id severity))⟩

/-- A rule none of whose accesses raises a fault is the one that makes the remarks. -/
theorem ofChecked_eq {checked : List Instruction → Except Fault (List Remark)}
    {remarks : List Instruction → List Remark}
    (h : ∀ instructions, checked instructions = .ok (remarks instructions)) (id : Text)
    (severity : Severity) : ofChecked id severity checked = ofRemarks id severity remarks := by
  unfold ofChecked ofRemarks
  congr 1
  funext instructions
  rw [h]
  rfl

/-- A finding with another severity. -/
def relabel (severity : Severity) (f : Finding) : Finding := { f with severity }

/-- The rule with another severity, which its findings take on. -/
def withSeverity (r : Rule) (severity : Severity) : Rule :=
  if severity = r.severity then r
  else
    { r with
      severity
      inspect := fun instructions => (r.inspect instructions).map (·.map (relabel severity)) }

end Rule

end Drydock
