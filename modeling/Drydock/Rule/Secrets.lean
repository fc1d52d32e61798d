/-
  The rule about secrets: a variable whose name tells of one shall not be given a literal value.
-/
import Drydock.Dockerfile.KeyValues
import Drydock.Rule.Basic

namespace Drydock.Rule

/-- Parts of a name that tell of a secret. -/
def secretMarkers : List Text := ["PASSWORD", "PASSWD", "SECRET", "KEY", "TOKEN"]

/-- Whether a name tells of a secret. -/
def isSecretName (name : Text) : Bool :=
  secretMarkers.any fun marker => Text.includes marker (Text.upper name)

/-- Words that stand for a value to be given later. -/
def placeholderWords : List Text :=
  ["changeme", "change-me", "change_me", "placeholder", "dummy", "example", "none", "null",
    "redacted", "todo"]

/-- Whether a value is a name in angle brackets. -/
def isBracketed (t : Text) : Bool :=
  match t with
  | '<' :: rest => rest.dropWhile (· != '>') = ['>']
  | _ => false

/-- Whether a value refers to a variable. -/
def isReferring (t : Text) : Bool :=
  match t with
  | '$' :: rest => !rest.contains '\n'
  | _ => false

/-- Whether a value consists of signs that are put in place of hidden characters. -/
def isMasked (t : Text) : Bool :=
  !t.isEmpty && t.all fun c => c = '*' || c = '.' || c = 'x' || c = 'X'

/-- Whether a value is a field of a template, in double braces. -/
def isTemplate (t : Text) : Bool :=
  4 ≤ t.length && t.startsWith ['\x7b', '\x7b'] && t.endsWith ['\x7d', '\x7d'] && !t.contains '\n'

/-- Whether a value only holds the place of another. -/
def isPlaceholder (value : Text) : Bool :=
  let t := Text.strip value
  t.isEmpty || placeholderWords.contains (Text.lower t) || isBracketed t || isReferring t ||
    isMasked t || isTemplate t

/-- What is said about a secret. -/
def secretMessage (opcode : Opcode) (name : Text) : Text :=
  Text.concat
    [opcode.name, " sets secret-like variable '", name,
      "' to a literal value; inject it at runtime or use a build secret."]

/-- The names of secrets among keys and values, where the value is a literal one. -/
def secretsAmong (pairs : OrderedMap Text Text) : List Text :=
  (pairs.entries.filter fun e => isSecretName e.1 && !isPlaceholder e.2).map Prod.fst

/-- The names of secrets to which a step gives a literal value. -/
def literalSecrets (i : Instruction) : List Text :=
  if i.opcode = .env || i.opcode = .arg then secretsAmong i.keyValues else []

/-- The remark on a secret that a step sets. -/
def secretRemark (i : Instruction) (name : Text) : Remark := (i.line, secretMessage i.opcode name)

/-- Remarks on literal secrets. -/
def secretRemarks (instructions : List Instruction) : List Remark :=
  instructions.flatMap fun i => (literalSecrets i).map (secretRemark i)

/-- Remarks on the literal secrets of a step, by checked accesses. -/
def checkedSecretRemarksOf (i : Instruction) : Except Fault (List Remark) :=
  if i.opcode = .env || i.opcode = .arg then do
    let pairs ← i.checkedKeyValues
    pure ((secretsAmong pairs).map (secretRemark i))
  else pure []

/-- Remarks on literal secrets, by checked accesses. -/
def checkedSecretRemarks (instructions : List Instruction) : Except Fault (List Remark) := do
  let remarks ← instructions.mapM checkedSecretRemarksOf
  pure remarks.flatten

/-- Flags variables and build arguments that bake secrets into the image. -/
def envNoSecrets : Rule := ofChecked "env-no-secrets" .error checkedSecretRemarks

end Drydock.Rule
