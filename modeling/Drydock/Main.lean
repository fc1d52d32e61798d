/-
  The linter as a program: the files, the clock and the threads of the machine it runs on, and its
  entry point.
-/
import Drydock.Cli.Run

namespace Drydock

/-- What a path on the disk leads to, if anything. -/
def kindOnDisk? (p : Path) : IO (Option FileKind) := do
  let place := (← IO.currentDir) / String.ofList p.text
  if ← place.isDir then pure (some .directory)
  else if ← place.pathExists then pure (some .file)
  else pure none

/-- What the failure of an operation on a path amounts to. -/
def faultOnDisk (p : Path) (e : IO.Error) : IO FileError := do
  match e with
  | .noFileOrDirectory .. => pure .notFound
  | .alreadyExists .. => pure .alreadyExists
  | .inappropriateType .. =>
    let kind ← kindOnDisk? p
    pure (if kind = some .directory then .isDirectory else .notDirectory)
  | e => pure (.other e.toString.toList)

/-- An operation on a path, its failure being a result. -/
def attemptOnDisk {α : Type} (p : Path) (operation : String → IO α) :
    IO (Except FileError α) := do
  try
    let result ← operation (String.ofList p.text)
    pure (.ok result)
  catch e =>
    let fault ← faultOnDisk p e
    pure (.error fault)

/-- Waits for tasks until all of them have finished, but not longer than some milliseconds, and tells
the names of those that have. -/
def awaitTasks {α : Type} : (milliseconds : Nat) → List (Text × Task α) → IO (List Text)
  | milliseconds, tasks => do
    let states ← tasks.mapM fun (name, task) => do
      let isDone ← IO.hasFinished task
      pure (name, task, isDone)
    let (ended, left) := states.partition fun state => state.2.2
    let names := ended.map Prod.fst
    match milliseconds with
    | 0 => pure names
    | less + 1 =>
      if left.isEmpty then pure names
      else
        IO.sleep 1
        let others ← awaitTasks less (left.map fun state => (state.1, state.2.1))
        pure (names ++ others)

/-- Waits for tasks until all of them have finished, and tells their names. -/
def awaitAll {α : Type} (tasks : List (Text × Task α)) : IO (List Text) :=
  tasks.mapM fun (name, task) => do
    let _ ← IO.wait task
    pure name

instance : Host IO where
  directory := do
    let directory ← IO.currentDir
    pure (Path.ofText directory.toString.toList)
  kind? := kindOnDisk?
  read p := attemptOnDisk p fun name => do
    let content ← IO.FS.readBinFile name
    pure content.toList
  write p content := attemptOnDisk p fun name => IO.FS.writeBinFile name ⟨content.toArray⟩
  makeDirectory p := attemptOnDisk p fun name => IO.FS.createDir name
  now := do
    let nanoseconds ← IO.monoNanosNow
    pure (Float.ofNat nanoseconds / 1000000000)
  finish work seconds :=
    let tasks := work.map fun (name, piece) => (name, Task.spawn piece)
    match seconds with
    | none => awaitAll tasks
    | some limit => awaitTasks (limit * 1000).ceil.toUInt64.toNat tasks
  isTerminal
    | .output => do (← IO.getStdout).isTty
    | .errors => do (← IO.getStderr).isTty

/-- The program's input, if the command line asks for it. -/
def readInput (arguments : List Text) : IO (Except FileError Text) := do
  if Cli.readsInput arguments then
    let content ← IO.FS.readBinFile "/dev/stdin"
    pure ((Text.Utf8.decode content.toList).mapError fun fault => .other fault.message)
  else pure (.ok [])

/-- Runs a command line on the program's input. An input that is no text ends a check, where the
options and the configuration have not ended it before. -/
def runProgram (arguments : List Text) : IO Cli.Outcome := do
  match ← readInput arguments, Cli.Command.read arguments with
  | .error e, .ok (.lint o) =>
    Cli.finish do
      let _ ← (Cli.prepare o : Cli.Step IO _)
      throw (.failed [] (.file e))
  | stdin, _ => Cli.run arguments (stdin.toOption.getD [])

end Drydock

/-- Runs the linter, prints what it has to say, and ends with its code. -/
def main (arguments : List String) : IO UInt32 := do
  let outcome ← Drydock.runProgram (arguments.map String.toList)
  IO.print (String.ofList outcome.stdout)
  IO.eprint (String.ofList outcome.stderr)
  if let some failure := outcome.failure then
    IO.eprintln ("error: " ++ String.ofList failure.message)
  pure (UInt32.ofNat outcome.exit)
