/-
  The rule about comments: a given share of the steps shall have one right above them.
-/
import Drydock.Number.Format
import Drydock.Rule.Basic

namespace Drydock.Rule

/-- The share that is asked for unless a threshold is given. -/
def defaultThreshold : Float := 0.5

/-- Whether a threshold is a share. -/
def isShare (threshold : Float) : Bool := 0.0 ≤ threshold && threshold ≤ 1.0

/-- The share of the steps that have a comment. -/
def commentedShare (instructions : List Instruction) : Float :=
  Number.ofRatio false (instructions.countP Instruction.commented) instructions.length

/-- What is said when too few steps have a comment. -/
def undocumentedMessage (threshold : Float) (instructions : List Instruction) : Text :=
  Text.concat
    [Text.ofNat (instructions.countP Instruction.commented), " of ",
      Text.ofNat instructions.length, " instructions (",
      Number.percentText (commentedShare instructions),
      ") are preceded by a comment; expected at least ", Number.percentText threshold, "."]

/-- The remark on missing comments. -/
def documentationRemarks (threshold : Float) (instructions : List Instruction) : List Remark :=
  if instructions.isEmpty || threshold ≤ commentedShare instructions then []
  else [(0, undocumentedMessage threshold instructions)]

/-- The quotient of two counts. -/
def checkedShare (part whole : Nat) : Except Fault Float :=
  if whole = 0 then .error .divisionByZero else .ok (Number.ofRatio false part whole)

/-- The remark on missing comments, by a checked division. -/
def checkedDocumentationRemarks (threshold : Float) (instructions : List Instruction) :
    Except Fault (List Remark) :=
  if instructions.isEmpty then pure []
  else do
    let share ← checkedShare (instructions.countP Instruction.commented) instructions.length
    pure (if threshold ≤ share then [] else [(0, undocumentedMessage threshold instructions)])

/-- Reports when too few steps carry an explanatory comment. -/
def documented (threshold : Float) : Rule :=
  ofChecked "documented" .info (checkedDocumentationRemarks threshold)

end Drydock.Rule
