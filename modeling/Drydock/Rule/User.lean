/-
  The rule about the user that a container runs as: the last one chosen for the final stage, in the
  stages it builds on or in itself, shall not be root.
-/
import Drydock.Dockerfile.Stage
import Drydock.Rule.Basic

namespace Drydock.Rule

/-- The steps that shape the final stage, and the line of the step that opens it. -/
def finalSteps (instructions : List Instruction) : List Instruction × Nat :=
  let stages := (Stage.split instructions).stages
  match stages.getLast? with
  | none => (instructions, 0)
  | some s => ((Stage.lineage stages s).reverse.flatMap Stage.instructions, s.base.line)

/-- The user that a step chooses, with its group. -/
def chosenUser (i : Instruction) : Text := i.arguments.head?.getD []

/-- Whether a name is root's, or its number is. -/
def isRootName (name : Text) : Bool :=
  let name := Text.lower name
  name = "root" || name = "0"

/-- Whether a user is root, by name or by number; the group does not matter. -/
def isRootUser (user : Text) : Bool := isRootName (Text.cut ':' user).1

/-- What is said when no user is chosen. -/
def missingUserMessage : Text :=
  "No USER instruction in the final stage; the container runs as root."

/-- What is said when root is chosen. -/
def rootUserMessage (user : Text) : Text :=
  Text.concat
    ["Last USER instruction runs the container as '", user, "'; use a non-root user."]

/-- The remark on the user of the final stage. -/
def userRemarks (instructions : List Instruction) : List Remark :=
  let (steps, anchor) := finalSteps instructions
  match (steps.filter fun i => i.opcode = .user).getLast? with
  | none => [(anchor, missingUserMessage)]
  | some i =>
    if isRootUser (chosenUser i) then [(i.line, rootUserMessage (chosenUser i))] else []

/-- The steps that shape the final stage, and the line that opens it, by checked accesses. -/
def checkedFinalSteps (instructions : List Instruction) :
    Except Fault (List Instruction × Nat) := do
  let split ← Stages.checkedSplit instructions
  if split.stages.isEmpty then pure (instructions, 0)
  else do
    let final ← Access.last split.stages
    let steps := (Stage.lineage split.stages final).reverse.flatMap Stage.instructions
    pure (steps, final.base.line)

/-- The remark on the user of the final stage, by checked accesses. -/
def checkedUserRemarks (instructions : List Instruction) : Except Fault (List Remark) := do
  let (steps, anchor) ← checkedFinalSteps instructions
  let users := steps.filter fun i => i.opcode = .user
  if users.isEmpty then pure [((anchor : Int), missingUserMessage)]
  else do
    let i ← Access.last users
    let user ← Access.itemOr i.arguments 0 [] "tuple"
    let name ← Access.item (Text.splitOnce ':' user) 0
    pure (if isRootName name then [((i.line : Int), rootUserMessage user)] else [])

/-- Requires the final stage to switch to a user other than root. -/
def nonRootUser : Rule := ofChecked "non-root-user" .error checkedUserRemarks

end Drydock.Rule
