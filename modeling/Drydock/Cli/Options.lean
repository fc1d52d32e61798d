/-
  The options of a command line. An option takes the next argument whatever it looks like, or the
  text behind its equals sign; short flags may stand together; two dashes end the options.
-/
import Drydock.Text.Basic

namespace Drydock.Cli

/-- What an option sets. -/
inductive Field where
  | version
  | stdin
  | format
  | strict
  | output
  | context
  | ignoreFile
  | deadline
  | workers
  | root
  | config
  | verbose
  | out
  | force
deriving DecidableEq, Repr

/-- The value that an option was given. -/
inductive Setting where
  | switch (field : Field) (on : Bool)
  | text (field : Field) (value : Text)
deriving DecidableEq, Repr

/-- What a setting sets. -/
def Setting.field : Setting → Field
  | switch field _ | text field _ => field

/-- An option: its name with the dashes, what it sets, and to what if it takes no argument. -/
structure OptionSpec where
  name : Text
  field : Field
  flag : Option Bool := none
deriving DecidableEq, Repr

/-- What is wrong with the shape of a command line. -/
inductive UsageError where
  | missingCommand
  | noSuchCommand (name : Text)
  | extraArguments (arguments : List Text)
  | noSuchOption (name : Text)
  | missingValue (option : Text)
  | needlessValue (option : Text)
deriving DecidableEq, Repr

/-- The wording of an error. -/
def UsageError.message : UsageError → Text
  | missingCommand => "Missing command."
  | noSuchCommand name => Text.concat ["No such command '", name, "'."]
  | extraArguments arguments =>
    Text.concat ["Got unexpected extra arguments: ", Text.joinWith " " arguments]
  | noSuchOption name => "No such option: " ++ name
  | missingValue option => Text.concat ["Option '", option, "' requires an argument."]
  | needlessValue option => Text.concat ["Option '", option, "' does not take a value."]

/-- The options that were given in order, and the other arguments. -/
structure Scan where
  settings : List Setting := []
  arguments : List Text := []
deriving DecidableEq, Repr

namespace Scan

/-- Whether an argument looks like an option. -/
def isOption (argument : Text) : Bool := argument.startsWith ['-'] && 1 < argument.length

/-- Adds settings in front. -/
def withSettings (settings : List Setting) (s : Scan) : Scan :=
  { s with settings := settings ++ s.settings }

/-- Adds an argument in front. -/
def withArgument (argument : Text) (s : Scan) : Scan :=
  { s with arguments := argument :: s.arguments }

/-- The settings of a cluster of short flags. -/
def cluster (specs : List OptionSpec) : Text → Except UsageError (List Setting)
  | [] => .ok []
  | c :: rest =>
    match specs.find? fun spec => spec.name = ['-', c] with
    | none => .error (.noSuchOption ['-', c])
    | some spec => (cluster specs rest).map (.switch spec.field (spec.flag.getD true) :: ·)

/-- Reads arguments; the value of `pending` is what an option still waits for. -/
def readFrom (specs : List OptionSpec) (interspersed : Bool) (pending : Option OptionSpec) :
    List Text → Except UsageError Scan
  | [] =>
    match pending with
    | some spec => .error (.missingValue spec.name)
    | none => .ok {}
  | argument :: rest =>
    match pending with
    | some spec =>
      (readFrom specs interspersed none rest).map (withSettings [.text spec.field argument])
    | none =>
      if argument = "--" then .ok { arguments := rest }
      else if isOption argument then
        let (name, value) := Text.cut '=' argument
        match specs.find? fun spec => spec.name = name && spec.name.startsWith ['-', '-'] with
        | some spec =>
          match spec.flag, value with
          | some on, none =>
            (readFrom specs interspersed none rest).map (withSettings [.switch spec.field on])
          | some _, some _ => .error (.needlessValue spec.name)
          | none, some value =>
            (readFrom specs interspersed none rest).map (withSettings [.text spec.field value])
          | none, none => readFrom specs interspersed (some spec) rest
        | none =>
          if argument.startsWith ['-', '-'] then .error (.noSuchOption name)
          else
            match cluster specs argument.tail with
            | .error e => .error e
            | .ok settings =>
              (readFrom specs interspersed none rest).map (withSettings settings)
      else if interspersed then
        (readFrom specs interspersed none rest).map (withArgument argument)
      else .ok { arguments := argument :: rest }

/-- Reads arguments; unless options may stand among others, the first other argument ends them. -/
def read (specs : List OptionSpec) (interspersed : Bool) (arguments : List Text) :
    Except UsageError Scan :=
  readFrom specs interspersed none arguments

/-- The last text that an option was given. -/
def text? (s : Scan) (field : Field) : Option Text :=
  (s.settings.filterMap fun
    | .text f value => if f = field then some value else none
    | .switch _ _ => none).getLast?

/-- The last position that a switch was put in. -/
def switch? (s : Scan) (field : Field) : Option Bool :=
  (s.settings.filterMap fun
    | .switch f on => if f = field then some on else none
    | .text _ _ => none).getLast?

/-- What is set, in the order of the first settings. -/
def fields (s : Scan) : List Field := (s.settings.map Setting.field).eraseDups

end Scan

end Drydock.Cli
