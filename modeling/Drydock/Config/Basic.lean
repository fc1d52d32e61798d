/-
  Configurations, how they are read from the table of a configuration file, and their display as a
  value. Reading stops at the first entry that is not as it should be.
-/
import Drydock.Report.Render
import Drydock.Rule.Registry
import Drydock.Value

namespace Drydock

/-- What the linter is asked to do. -/
structure Config where
  format : OutputFormat := .text
  strict : Bool := false
  denylist : List Text := Rule.defaultDenylist
  threshold : Float := Rule.defaultThreshold
  deadline : Option Float := none
  workers : Option Nat := none
  /-- the rules to run; all of them if this is absent -/
  enable : Option (List Text) := none
  disable : List Text := []
  severity : OrderedMap Text Severity := .empty
  /-- the file that this was read from -/
  source : Option Text := none

/-- What is wrong with an entry of a configuration. -/
inductive ConfigError where
  | notTable (field : Text)
  | notTexts (field : Text)
  | notChoice (field : Text) (choices : List Text)
  | notInteger (field : Text)
  | notBoolean (field : Text)
  | notNumber (field : Text)
  | thresholdOutside
  | deadlineNotPositive
  | tooFewWorkers
  /-- an integer that lies beyond the largest float -/
  | beyondFloats
  /-- an integer that is too long to be written, where one of several names is asked for -/
  | unwritable
deriving DecidableEq, Repr

namespace ConfigError

/-- The wording of an error. -/
def message : ConfigError → Text
  | notTable field => field ++ " must be a table/object"
  | notTexts field => field ++ " must be a list of strings"
  | notChoice field choices =>
    Text.concat [field, " must be one of: ", Text.joinWith ", " choices]
  | notInteger field => field ++ " must be an integer"
  | notBoolean field => field ++ " must be a boolean"
  | notNumber field => field ++ " must be a number"
  | thresholdOutside => "documentation_threshold must be between 0 and 1"
  | deadlineNotPositive => "deadline_seconds must be > 0"
  | tooFewWorkers => "workers must be >= 1"
  | beyondFloats => "int too large to convert to float"
  | unwritable => Number.unwritableMessage

end ConfigError

/-- The name of a severity in a configuration. -/
def Severity.word : Severity → Text
  | error => "error"
  | warning => "warning"
  | info => "info"

namespace Config

/-! ## Entries -/

/-- The value of an entry, unless it is absent or null. -/
def given? (table : Table) (key : Text) : Option Value :=
  match table.get? key with
  | none | some .null => none
  | some v => some v

/-- Reads a table; an absent one is empty. -/
def readTable (field : Text) : Option Value → Except ConfigError Table
  | none => .ok []
  | some (.table entries) => .ok entries
  | some _ => .error (.notTable field)

/-- Reads a list of texts. -/
def readTexts (field : Text) : Value → Except ConfigError (List Text)
  | .array items =>
    match items.mapM Value.text? with
    | some texts => .ok texts
    | none => .error (.notTexts field)
  | _ => .error (.notTexts field)

/-- Reads a float, or an integer that counts as one. -/
def readFloat (field : Text) : Value → Except ConfigError Float
  | .float x => .ok x
  | .integer n =>
    match Number.ofInt? n with
    | some x => .ok x
    | none => .error .beyondFloats
  | _ => .error (.notNumber field)

/-- Reads a truth value. -/
def readBool (field : Text) : Value → Except ConfigError Bool
  | .bool b => .ok b
  | _ => .error (.notBoolean field)

/-- Reads an integer. -/
def readInteger (field : Text) : Value → Except ConfigError Int
  | .integer n => .ok n
  | _ => .error (.notInteger field)

/-- Reads one of several choices by its name, in capital or small letters. A value of another kind is
written to be compared with the names, and has none of them. -/
def readChoice {α : Type} (field : Text) (choices : List (Text × α)) (v : Value) :
    Except ConfigError α :=
  match v.text?.bind fun t => choices.lookup (Text.lower t) with
  | some choice => .ok choice
  | none =>
    .error (if v.isWritable then .notChoice field (choices.map Prod.fst) else .unwritable)

/-- The formats by name. -/
def formatChoices : List (Text × OutputFormat) := [("json", .json), ("text", .text)]

/-- The severities by name. -/
def severityChoices : List (Text × Severity) :=
  [("error", .error), ("info", .info), ("warning", .warning)]

/-- Reads an entry; an absent one counts as `usual`. -/
def readOr {α : Type} (usual : α) (read : Value → Except ConfigError α) :
    Option Value → Except ConfigError α
  | none => .ok usual
  | some v => read v

/-- Reads the threshold, which is a share. -/
def readThreshold (v : Value) : Except ConfigError Float := do
  let x ← readFloat "documentation_threshold" v
  if Rule.isShare x then .ok x else .error .thresholdOutside

/-- Reads a deadline, which is positive. -/
def readDeadline (v : Value) : Except ConfigError Float := do
  let x ← readFloat "deadline_seconds" v
  if x ≤ 0 then .error .deadlineNotPositive else .ok x

/-- Reads a number of workers, which is positive. -/
def readWorkers (v : Value) : Except ConfigError Nat := do
  let n ← readInteger "workers" v
  if n < 1 then .error .tooFewWorkers else .ok n.toNat

/-- Reads the severities that rules are given, behind those in `read`. -/
def readSeverities (read : OrderedMap Text Severity) :
    Table → Except ConfigError (OrderedMap Text Severity)
  | [] => .ok read
  | (id, v) :: rest => do
    let severity ← readChoice ("rules.severity." ++ id) severityChoices v
    readSeverities (read.insert id severity) rest

/-! ## Tables -/

/-- Reads a configuration from a table. -/
def ofTable (table : Table) (source : Option Text) : Except ConfigError Config := do
  let rules ← readTable "rules" (given? table "rules")
  let threshold ←
    readOr Rule.defaultThreshold readThreshold (table.get? "documentation_threshold")
  let deadline ← (given? table "deadline_seconds").mapM readDeadline
  let workers ← (given? table "workers").mapM readWorkers
  let denylist ←
    readOr Rule.defaultDenylist (readTexts "denylist_base_images")
      (given? table "denylist_base_images")
  let format ← readOr OutputFormat.text (readChoice "format" formatChoices) (table.get? "format")
  let strict ← readOr false (readBool "strict") (table.get? "strict")
  let enable ← (given? rules "enable").mapM (readTexts "rules.enable")
  let disable ← readOr [] (readTexts "rules.disable") (given? rules "disable")
  let severities ← readTable "rules.severity" (given? rules "severity")
  let severity ← readSeverities .empty severities
  return { format, strict, denylist, threshold, deadline, workers, enable, disable, severity,
           source }

/-- The name of the file that describes a project to its tools. -/
def projectFileName : Text := "pyproject.toml"

/-- The table of the linter in a file that other tools share. -/
def toolTable? (table : Table) : Option Table :=
  ((table.get? "tool").bind Value.table?).bind fun tool =>
    (tool.get? "docklint").bind Value.table?

/-- The table that configures the linter in a file of the given name. -/
def sectionOf (fileName : Text) (table : Table) : Table :=
  if fileName = projectFileName then (toolTable? table).getD [] else (toolTable? table).getD table

/-! ## Display -/

/-- A text as a value, and null where there is none. -/
def optionalText (t : Option Text) : Value := t.elim .null .text

/-- Texts as a value. -/
def textsValue (ts : List Text) : Value := .array (ts.map .text)

/-- The severities that rules are given, by name. -/
def severityWords (c : Config) : List (Text × Text) :=
  c.severity.entries.map fun e => (e.1, e.2.word)

/-- The entries of a configuration under their names. -/
def toTable (c : Config) : Table :=
  [("format", .text c.format.name),
    ("strict", .bool c.strict),
    ("denylist_base_images", textsValue c.denylist),
    ("documentation_threshold", .float c.threshold),
    ("deadline_seconds", c.deadline.elim .null .float),
    ("workers", c.workers.elim .null fun n => .integer n),
    ("rules", .table
      [("enable", c.enable.elim .null textsValue),
        ("disable", textsValue c.disable),
        ("severity", .table (c.severityWords.map fun e => (e.1, .text e.2)))]),
    ("source", optionalText c.source)]

/-- The selection of rules that a configuration asks for. -/
def selection (c : Config) : Selection :=
  { enable := c.enable
    disable := c.disable
    severity := .ofList c.severityWords }

/-- The options of rules that a configuration gives. -/
def ruleOptions (c : Config) (search : Rule.IgnoreSearch) : RuleOptions :=
  { denylist := c.denylist, threshold := c.threshold, search }

end Config

end Drydock
