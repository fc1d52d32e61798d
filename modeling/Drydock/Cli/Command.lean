/-
  Commands and how they are read from a command line.
-/
import Drydock.Cli.Options
import Drydock.Number.Read
import Drydock.Path
import Drydock.Text.Quoted

namespace Drydock.Cli

/-- What checking a Dockerfile takes. -/
structure LintOptions where
  dockerfile : Option Path
  stdin : Bool
  format : Option Text
  strict : Option Bool
  output : Option Path
  context : Option Path
  ignoreFile : Option Path
  deadline : Option Float
  workers : Option Int
  root : Path
  config : Option Path

/-- What showing rules or a configuration takes. -/
structure ShowOptions where
  root : Path
  format : Text
  config : Option Path
deriving DecidableEq, Repr

/-- What starting a configuration file takes. -/
structure InitOptions where
  out : Path
  force : Bool
deriving DecidableEq, Repr

/-- What a command line asks for. -/
inductive Command where
  | version
  | lint (options : LintOptions)
  | rules (options : ShowOptions)
  | config (options : ShowOptions)
  | configInit (options : InitOptions)
  | configValidate (options : ShowOptions)

/-- A value that a parameter does not take: how the parameter is called, and what is wrong. -/
structure BadParameter where
  hint : Option Text
  reason : Text
deriving DecidableEq, Repr

/-- The wording of a refusal. -/
def BadParameter.message (b : BadParameter) : Text :=
  match b.hint with
  | some hint => Text.concat ["Invalid value for ", hint, ": ", b.reason]
  | none => "Invalid value: " ++ b.reason

/-- Why a command line is refused. -/
inductive CommandError where
  | usage (error : UsageError)
  | badParameter (error : BadParameter)
deriving DecidableEq, Repr

/-- The wording of a refusal. -/
def CommandError.message : CommandError → Text
  | usage e => e.message
  | badParameter b => b.message

namespace Command

/-! ## Options of the commands -/

/-- The options before a command. -/
def globalSpecs : List OptionSpec := [⟨"--version", .version, some true⟩]

/-- The options of checking. -/
def lintSpecs : List OptionSpec :=
  [⟨"--stdin", .stdin, some true⟩, ⟨"--no-stdin", .stdin, some false⟩,
    ⟨"--format", .format, none⟩,
    ⟨"--strict", .strict, some true⟩, ⟨"--no-strict", .strict, some false⟩,
    ⟨"--output", .output, none⟩, ⟨"--context", .context, none⟩,
    ⟨"--ignore-file", .ignoreFile, none⟩, ⟨"--deadline", .deadline, none⟩,
    ⟨"--workers", .workers, none⟩, ⟨"--root", .root, none⟩, ⟨"--config", .config, none⟩,
    ⟨"--verbose", .verbose, some true⟩, ⟨"-v", .verbose, some true⟩]

/-- The options of showing. -/
def showSpecs : List OptionSpec :=
  [⟨"--root", .root, none⟩, ⟨"--format", .format, none⟩, ⟨"--config", .config, none⟩]

/-- The options of starting a configuration file. -/
def initSpecs : List OptionSpec := [⟨"--out", .out, none⟩, ⟨"--force", .force, some true⟩]

/-! ## Values -/

/-- The path that an option was given. -/
def path? (s : Scan) (field : Field) : Option Path := (s.text? field).map Path.ofText

/-- The refusal of a text that is no number. -/
def badNumber (name value kind : Text) : CommandError :=
  .badParameter
    ⟨some (Text.concat ["'", name, "'"]),
      Text.concat [Text.quoted value, " is not a valid ", kind, "."]⟩

/-- Checks that the text of an option is a number, if the option takes one. -/
def checkNumber (s : Scan) (field : Field) : Except CommandError Unit :=
  match field, s.text? field with
  | .workers, some value =>
    if (Number.readInt? value).isSome then .ok ()
    else .error (badNumber "--workers" value "integer")
  | .deadline, some value =>
    if (Number.readFloat? value).isSome then .ok ()
    else .error (badNumber "--deadline" value "float")
  | _, _ => .ok ()

/-- Checks the numbers in the order of their options, and then the number of other arguments. -/
def check (s : Scan) (most : Nat) : Except CommandError Unit := do
  s.fields.forM (checkNumber s)
  if most < s.arguments.length then .error (.usage (.extraArguments (s.arguments.drop most)))
  else .ok ()

/-- Reads the options of a command. -/
def scan (specs : List OptionSpec) (most : Nat) (arguments : List Text) :
    Except CommandError Scan := do
  let s ← (Scan.read specs true arguments).mapError .usage
  check s most
  return s

/-! ## Commands -/

/-- The directory in which a command is started. -/
def here : Path := Path.ofText "."

/-- Reads what checking takes. -/
def readLint (arguments : List Text) : Except CommandError Command := do
  let s ← scan lintSpecs 1 arguments
  return .lint
    { dockerfile := s.arguments.head?.map Path.ofText
      stdin := (s.switch? .stdin).getD false
      format := s.text? .format
      strict := s.switch? .strict
      output := path? s .output
      context := path? s .context
      ignoreFile := path? s .ignoreFile
      deadline := (s.text? .deadline).bind Number.readFloat?
      workers := (s.text? .workers).bind Number.readInt?
      root := (path? s .root).getD here
      config := path? s .config }

/-- Reads what showing takes, with the file that is shown unless another is named. -/
def readShow (usual : Option Path) (arguments : List Text) : Except CommandError ShowOptions := do
  let s ← scan showSpecs 0 arguments
  let root := (path? s .root).getD here
  let format := (s.text? .format).getD "text"
  return { root, format, config := (path? s .config).or usual }

/-- The file in which a configuration is kept unless another is named. -/
def usualConfig : Path := Path.ofText ".docklint.toml"

/-- Reads what starting a configuration file takes. -/
def readInit (arguments : List Text) : Except CommandError Command := do
  let s ← scan initSpecs 0 arguments
  return .configInit
    { out := (path? s .out).getD usualConfig
      force := (s.switch? .force).getD false }

/-- Reads a command line once more whose command has an unknown name that may be an option's. -/
def readUnknown (name : Text) (arguments : List Text) : Except CommandError Command := do
  let s ← (Scan.read globalSpecs false (name :: arguments)).mapError .usage
  if s.switch? .version = some true then return .version
  else .error (.usage (.noSuchCommand name))

/-- Reads the command of a name. -/
def readNamed (name : Text) (arguments : List Text) : Except CommandError Command :=
  if name = "lint" then readLint arguments
  else if name = "rules" then (readShow none arguments).map .rules
  else if name = "config" then (readShow none arguments).map .config
  else if name = "config-init" then readInit arguments
  else if name = "config-validate" then (readShow (some usualConfig) arguments).map .configValidate
  else readUnknown name arguments

/-- Reads a command line. -/
def read (arguments : List Text) : Except CommandError Command := do
  let s ← (Scan.read globalSpecs false arguments).mapError .usage
  if s.switch? .version = some true then return .version
  match s.arguments with
  | [] => .error (.usage .missingCommand)
  | name :: rest => readNamed name rest

end Command

end Drydock.Cli
