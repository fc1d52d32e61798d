/-
  Running commands: what they print, the code they end with, and the files they write. A command
  that is refused writes nothing.
-/
import Drydock.Cli.Command
import Drydock.Config.Load
import Drydock.Config.Template
import Drydock.Seconds
import Drydock.Text.Line

namespace Drydock.Cli

/-- Why a command fails. -/
inductive Failure where
  | refused (error : CommandError)
  | file (error : FileError)
  /-- a number in a configuration that lies beyond the largest float -/
  | beyondFloats (reason : Text)
  /-- a number in a Dockerfile or in a document to be printed that has too many digits -/
  | tooManyDigits (reason : Text)
  /-- an engine that cannot be made or run -/
  | engine (reason : Text)
deriving DecidableEq, Repr

/-- The code with which a command ends that fails. -/
def Failure.exitCode : Failure → Nat
  | refused _ => 2
  | _ => 1

/-- The wording of a failure. -/
def Failure.message : Failure → Text
  | refused e => e.message
  | file e => e.message
  | beyondFloats reason | tooManyDigits reason | engine reason => reason

/-- What a command leaves behind besides files. -/
structure Outcome where
  exit : Nat := 0
  stdout : Text := []
  stderr : Text := []
  failure : Option Failure := none
deriving DecidableEq, Repr

namespace Outcome

/-- A line as it is printed; without control sequences where no terminal shows it. -/
def line (terminal : Bool) (t : Text) : Text := (if terminal then t else Text.plain t) ++ ['\n']

/-- The outcome of a command that fails behind what it has printed. -/
def failed (stdout : Text) (f : Failure) : Outcome :=
  { exit := f.exitCode, stdout, failure := some f }

end Outcome

/-- A command stops early with an outcome, or goes on. -/
abbrev Step (m : Type → Type) := ExceptT Outcome m

/-- Stops when something is refused. -/
def refuse {m : Type → Type} [Monad m] {α : Type} (hint : Option Text) (reason : Text) : Step m α :=
  throw (.failed [] (.refused (.badParameter ⟨hint, reason⟩)))

/-- Goes on unless something is refused. -/
def refuseIf {m : Type → Type} [Monad m] (refused : Bool) (hint : Option Text) (reason : Text) :
    Step m Unit :=
  if refused then refuse hint reason else pure ()

/-- What a configuration that cannot be loaded amounts to. -/
def loadFailure : LoadError → Failure
  | .unreadable e => .file e
  | .badEntry .beyondFloats => .beyondFloats ConfigError.beyondFloats.message
  | e => .refused (.badParameter ⟨some "config", e.message⟩)

/-- The format of a name in capital or small letters. -/
def formatOf? (name : Text) : Option OutputFormat := OutputFormat.ofName? (Text.lower name)

/-- What is said about a name that no format has. -/
def formatReason : Text := "format must be one of: json, text"

variable {m : Type → Type} [Monad m] [Host m]

/-- Prints a line and succeeds. -/
def say (t : Text) : Step m Outcome := do
  let terminal ← (Host.isTerminal .output : m _)
  pure { stdout := Outcome.line terminal t }

/-- Stops with a line about an error. -/
def stop {α : Type} (message : Text) : Step m α := do
  let terminal ← (Host.isTerminal .errors : m _)
  throw { exit := 2, stderr := Outcome.line terminal message }

/-- Loads the configuration, or stops. -/
def loadConfig (root : Path) (named : Option Path) : Step m Config := do
  match ← (Config.load root named : m _) with
  | .ok c => pure c
  | .error e => throw (.failed [] (loadFailure e))

/-- Reads the format, or stops. -/
def readFormat (name : Text) : Step m OutputFormat :=
  match formatOf? name with
  | some format => pure format
  | none => refuse (some "--format") formatReason

/-- Selects the rules that a configuration asks for, or stops. -/
def selectRules (c : Config) (search : Rule.IgnoreSearch) : Step m (List Rule) :=
  match c.selection.rules (c.ruleOptions search) with
  | .ok rules => pure rules
  | .error e => refuse (some "config.rules") e.message

/-! ## Checking -/

namespace LintOptions

/-- The file that is checked; there is none if the input is. -/
def file (o : LintOptions) : Option Path :=
  if o.stdin then none else some (o.dockerfile.getD (Path.ofText "Dockerfile"))

/-- The name of the format of the report; an empty one counts as none. -/
def formatName (o : LintOptions) (c : Config) : Text :=
  (o.format.filter fun name => !name.isEmpty).getD c.format.name

/-- Whether warnings count. -/
def isStrict (o : LintOptions) (c : Config) : Bool := o.strict.getD c.strict

/-- How many rules may run at once. -/
def workersFor (o : LintOptions) (c : Config) : Option Int :=
  o.workers.or (c.workers.map Int.ofNat)

/-- How long the rules may run. -/
def deadlineFor (o : LintOptions) (c : Config) : Option Float := o.deadline.or c.deadline

end LintOptions

/-- What a Dockerfile is called in messages. -/
def sourceName (file : Option Path) : Text := file.elim "stdin" Path.text

/-- What is said about a file that cannot be read. -/
def unreadableMessage (source : Text) (e : FileError) : Text :=
  Text.concat ["error: cannot read ", source, ": ", e.message]

/-- What is said about a Dockerfile that cannot be parsed. -/
def unparsedMessage (source : Text) (e : ParseError) : Text :=
  Text.concat ["error: ", source, ": ", e.message]

/-- Goes on with a Dockerfile that could be parsed, or stops; a fault may be of no reported kind. -/
def parsed (source : Text) : Except ParseError Dockerfile → Step m Dockerfile
  | .ok d => pure d
  | .error e =>
    if e.cause.isReported then stop (unparsedMessage source e)
    else throw (.failed [] (.tooManyDigits e.message))

/-- Reads a Dockerfile from a file, or from the input, whose line ends are unified. -/
def readDockerfile (stdin : Text) (file : Option Path) : Step m Dockerfile :=
  match file with
  | none => parsed (sourceName file) (Dockerfile.parse (Text.unifyLineEnds stdin))
  | some p => do
    match ← (Host.read p : m _) with
    | .error e => stop (unreadableMessage (sourceName file) e)
    | .ok octets => parsed (sourceName file) (Dockerfile.ofOctets octets)

/-- Checks the options of a run against each other, or stops. -/
def checkLint (o : LintOptions) : Step m Unit := do
  refuseIf (o.dockerfile.isSome && o.stdin) none
    "Use either a DOCKERFILE path or --stdin, not both."
  refuseIf (o.deadline.any fun d => d ≤ 0) (some "--deadline") "deadline must be > 0"
  refuseIf (o.workers.any fun n => n < 1) (some "--workers") "workers must be >= 1"

/-- The paths among those that an ignore file may have at which there is a file. -/
def presentFiles : List Path → m (List Path)
  | [] => pure []
  | p :: rest => do
    let isFile ← Host.isFile p
    let present ← presentFiles rest
    pure (if isFile then p :: present else present)

/-- What the rule about ignore files is to know. -/
def ignoreSearch (o : LintOptions) : m Rule.IgnoreSearch := do
  let search : Rule.IgnoreSearch :=
    { dockerfile := o.file, contextDir := o.context, ignoreFile := o.ignoreFile }
  let present ← presentFiles (search.candidates.toOption.getD [])
  pure { search with isFile := present.contains }

/-- The rules that threads are done with when the wait for them ends; a single worker needs none. -/
def finishedRules (rules : List Rule) (workers : Option Nat) (deadline : Option Float)
    (d : Dockerfile) : m (List Text) :=
  if workers = some 1 then pure []
  else Host.finish (rules.map fun r => (r.id, fun _ => r.inspect d.instructions)) deadline

/-- Runs rules on a Dockerfile, or stops. -/
def runRules (rules : List Rule) (workers : Option Int) (deadline : Option Float) (source : Text)
    (d : Dockerfile) : Step m Engine.Run := do
  let stop {α : Type} (e : EngineError Float) : Step m α := throw (.failed [] (.engine e.message))
  match Engine.build (rules.map Rule.inspector) workers with
  | .error e => stop e
  | .ok engine =>
    let finished ← (finishedRules rules engine.workers deadline d : m _)
    match ← (engine.analyze Host.now deadline source d fun _ => finished : m _) with
    | .error e => stop e
    | .ok run => pure run

/-- Writes a file into a directory that is made if it is missing. -/
def writeInto (p : Path) (t : Text) : m (Except FileError Unit) := do
  match ← Host.makeDirectories p.parent with
  | .error e => pure (.error e)
  | .ok () => Host.write p (Text.Utf8.encode t)

/-- Writes the document form of a report to a file, if one is named, behind what was printed. -/
def writeOutput (output : Option Path) (report : Report) (outcome : Outcome) : m Outcome :=
  match output with
  | none => pure outcome
  | some p => do
    match ← writeInto p report.renderJson with
    | .error e => pure { outcome with exit := (Failure.file e).exitCode, failure := some (.file e) }
    | .ok () => pure outcome

/-- The notes of a run as they are printed beside the report. -/
def logText (log : List LogEntry) : Text :=
  log.flatMap fun entry => "WARNING docklint.engine: " ++ entry.message ++ ['\n']

/-- A Dockerfile that has been checked: the configuration, the form of the report, and the run. -/
structure Checked where
  config : Config
  format : OutputFormat
  run : Engine.Run

/-- Loads the configuration, reads the format and checks the options, or stops. -/
def prepare (o : LintOptions) : Step m (Config × OutputFormat) := do
  let c ← loadConfig o.root o.config
  let format ← readFormat (o.formatName c)
  checkLint o
  pure (c, format)

/-- Checks a Dockerfile, or stops. -/
def check (o : LintOptions) (stdin : Text) : Step m Checked := do
  let (c, format) ← prepare o
  let d ← readDockerfile stdin o.file
  let search ← (ignoreSearch o : m _)
  let rules ← selectRules c search
  let run ← runRules rules (o.workersFor c) (o.deadlineFor c) (sourceName o.file) d
  pure ⟨c, format, run⟩

/-- Prints the report on a Dockerfile and writes it where it is asked for. -/
def deliver (o : LintOptions) (k : Checked) : m Outcome := do
  let terminal ← Host.isTerminal .output
  let outcome : Outcome :=
    { exit := k.run.report.exitCode (o.isStrict k.config)
      stdout := Outcome.line terminal (k.run.report.render k.format)
      stderr := logText k.run.log }
  writeOutput o.output k.run.report outcome

/-- Checks a Dockerfile and delivers the report. -/
def lint (o : LintOptions) (stdin : Text) : Step m Outcome := do
  let k ← check o stdin
  (deliver o k : m _)

/-! ## Showing rules -/

/-- A rule as an object of a listing. -/
def ruleValue (active : List Text) (i : RuleInfo) : Value :=
  .table
    [("rule_id", .text i.id), ("name", .text i.name), ("description", .text i.description),
      ("category", .text i.category), ("severity", .text i.severity.name),
      ("enabled", .bool (active.contains i.id))]

/-- A rule as a line of a listing. -/
def ruleLine (active : List Text) (i : RuleInfo) : Text :=
  Text.concat
    ["- ", i.id, " [", if active.contains i.id then "enabled" else "disabled", ", ",
      i.severity.name, "] - ", i.description]

/-- A value as a document, unless an integer in it is too long to be written. -/
def document (v : Value) : Except Failure Text :=
  if v.isWritable then .ok (Json.render v) else .error (.tooManyDigits Number.unwritableMessage)

/-- The listing of all rules. -/
def rulesText (format : OutputFormat) (c : Config) (active : List Text) : Except Failure Text :=
  match format with
  | .json =>
    document
      (.table
        [("rules", .array (Registry.infos.map (ruleValue active))),
          ("meta", .table [("config_source", Config.optionalText c.source)])])
  | .text =>
    .ok (Text.joinWith ['\n'] ("Available rules:" :: Registry.infos.map (ruleLine active)))

/-! ## Showing configurations -/

/-- A truth value in a listing. -/
def boolText (b : Bool) : Text := if b then "True" else "False"

/-- Texts in a listing. -/
def listText (ts : List Text) : Text :=
  Text.concat ["[", Text.joinWith ", " (ts.map Text.quoted), "]"]

/-- Texts under their keys in a listing. -/
def entriesText (es : List (Text × Text)) : Text :=
  let entryText (e : Text × Text) : Text := Text.concat [Text.quoted e.1, ": ", Text.quoted e.2]
  Text.concat [['\x7b'], Text.joinWith ", " (es.map entryText), ['\x7d']]

/-- What is written where there is no value. -/
def noneText : Text := "None"

/-- The lines of a configuration's listing. -/
def configLines (c : Config) (active : List Text) : List Text :=
  ["Resolved configuration:",
    "- source: " ++ (c.source.filter fun s => !s.isEmpty).getD "defaults",
    "- format: " ++ c.format.name,
    "- strict: " ++ boolText c.strict,
    "- documentation_threshold: " ++ Number.floatText c.threshold,
    "- denylist_base_images: " ++ listText c.denylist,
    "- deadline_seconds: " ++ c.deadline.elim noneText Number.floatText,
    "- rules.enable: " ++ c.enable.elim noneText listText,
    "- rules.disable: " ++ listText c.disable,
    "- rules.severity: " ++ entriesText c.severityWords,
    "- active_rule_ids: " ++ listText active]

/-- The listing of a configuration. -/
def configText (format : OutputFormat) (c : Config) (active : List Text) : Except Failure Text :=
  match format with
  | .json => document (.table (Table.put "active_rule_ids" (Config.textsValue active) c.toTable))
  | .text => .ok (Text.joinWith ['\n'] (configLines c active))

/-- The statement that a configuration is valid. -/
def validText (format : OutputFormat) (c : Config) (active : List Text) : Except Failure Text :=
  match format with
  | .json =>
    document
      (.table
        [("ok", .bool true), ("source", Config.optionalText c.source),
          ("active_rule_ids", Config.textsValue active)])
  | .text =>
    .ok (Text.joinWith ['\n']
      ["Config is valid.", "- source: " ++ c.source.getD noneText,
        "- active_rule_ids: " ++ listText active])

/-- Loads a configuration and shows what is to be shown of it and the rules that it selects. -/
def present (text : OutputFormat → Config → List Text → Except Failure Text) (o : ShowOptions) :
    Step m Outcome := do
  let format ← readFormat o.format
  let c ← loadConfig o.root o.config
  let rules ← selectRules c {}
  match text format c (rules.map Rule.id) with
  | .ok t => say t
  | .error failure => throw (.failed [] failure)

/-! ## Starting a configuration file -/

/-- Writes a configuration file to start from. -/
def configInit (o : InitOptions) : Step m Outcome := do
  let directory ← (Host.directory : m _)
  let target := o.out.resolve directory
  let present ← (Host.pathExists target : m _)
  if present && !o.force then
    refuse none
      (Text.concat
        ["Refusing to overwrite existing file: ", target.text, ". Use --force to overwrite."])
  match ← (writeInto target Config.template : m _) with
  | .error e => throw (.failed [] (.file e))
  | .ok () => say ("Wrote starter config: " ++ target.text)

/-! ## All commands -/

/-- The version of the linter. -/
def version : Text := "0.1.0"

/-- Runs a command. -/
def runCommand (stdin : Text) : Command → Step m Outcome
  | .version => say version
  | .lint o => lint o stdin
  | .rules o => present rulesText o
  | .config o => present configText o
  | .configInit o => configInit o
  | .configValidate o => present validText o

/-- The outcome of a step, be it that it stops early. -/
def finish (s : Step m Outcome) : m Outcome := do
  match ← s.run with
  | .ok outcome => pure outcome
  | .error outcome => pure outcome

/-- Whether a command line asks for the input. -/
def readsInput (arguments : List Text) : Bool :=
  match Command.read arguments with
  | .ok (.lint o) => o.stdin
  | _ => false

/-- Runs a command line on an input. -/
def run (arguments : List Text) (stdin : Text) : m Outcome :=
  match Command.read arguments with
  | .error e => pure (.failed [] (.refused e))
  | .ok command => finish (runCommand stdin command)

end Drydock.Cli
