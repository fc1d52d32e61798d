/-
  Running rules. Every rule sees the same steps and none sees another's findings; a rule that fails
  is reported in its own place and stops no other. Rules run one after the other or on threads, with
  a deadline or without, and the report lists them in the order in which they were registered.
-/
import Drydock.Dockerfile.Parser
import Drydock.Report.Basic

namespace Drydock

/-- Lengths of time: what lies between two readings of a clock, and which of two is the shorter. -/
class Duration (τ : Type) where
  zero : τ
  between : (started now : τ) → τ
  le : τ → τ → Bool
  text : τ → Text

/-- What an inspection came to. -/
abbrev Inspection := Except Fault (List Finding)

/-- A rule at work: its inspection may take time or have other effects. -/
structure Inspector (m : Type → Type) where
  id : Text
  inspect : List Instruction → m Inspection

/-- A rule whose inspection has no effects. -/
def Rule.inspector {m : Type → Type} [Monad m] (r : Rule) : Inspector m :=
  ⟨r.id, fun instructions => pure (r.inspect instructions)⟩

/-- Why an engine does not run. -/
inductive EngineError (τ : Type) where
  | tooFewWorkers (count : Int)
  | duplicateRule (id : Text)
  | deadlineNotPositive (deadline : τ)
deriving DecidableEq, Repr

/-- The wording of an error. -/
def EngineError.message {τ : Type} [Duration τ] : EngineError τ → Text
  | tooFewWorkers count => "max_workers must be >= 1, got " ++ Text.ofInt count
  | duplicateRule id => Text.concat ["Rule '", id, "' is already registered"]
  | deadlineNotPositive deadline =>
    "deadline_seconds must be > 0, got " ++ Duration.text deadline

/-- What an engine notes while it runs. -/
inductive LogEntry where
  | ruleFailed (id : Text) (fault : Fault)
  | deadlineExceeded (deadline : Text) (skipped : List Text)
deriving DecidableEq, Repr

/-- The wording of a note. -/
def LogEntry.message : LogEntry → Text
  | ruleFailed id fault => Text.concat ["Rule ", id, " failed: ", fault.kind, ": ", fault.text]
  | deadlineExceeded deadline skipped =>
    Text.concat
      ["Deadline of ", deadline, "s exceeded; skipped rules: ", Text.joinWith ", " skipped]

/-- An engine: its rules, no two of one name, and how many of them may run at once. -/
structure Engine (m : Type → Type) where
  inspectors : List (Inspector m)
  distinct : (inspectors.map Inspector.id).Nodup
  workers : Option Nat

namespace Engine

variable {m : Type → Type} {τ : Type}

/-! ## Registration -/

/-- The names of the rules. -/
def ids (e : Engine m) : List Text := e.inspectors.map Inspector.id

/-- The engine without rules. -/
def empty (workers : Option Nat) : Engine m := ⟨[], by simp, workers⟩

theorem nodup_ids_append {is : List (Inspector m)} {i : Inspector m}
    (h : (is.map Inspector.id).Nodup) (hi : i.id ∉ is.map Inspector.id) :
    ((is ++ [i]).map Inspector.id).Nodup := by
  rw [List.map_append]
  refine List.nodup_append.mpr ⟨h, by simp, ?_⟩
  intro a ha b hb hab
  simp only [List.map_cons, List.map_nil, List.mem_singleton] at hb
  exact hi (hb ▸ hab ▸ ha)

/-- Adds a rule, unless one of its name is there. -/
def register (e : Engine m) (i : Inspector m) : Except (EngineError τ) (Engine m) :=
  if h : i.id ∈ e.ids then .error (.duplicateRule i.id)
  else
    .ok
      { e with
        inspectors := e.inspectors ++ [i]
        distinct := nodup_ids_append e.distinct h }

/-- The number of workers that is asked for, unless it is too small. -/
def checkWorkers : Option Int → Except (EngineError τ) (Option Nat)
  | none => .ok none
  | some count => if count < 1 then .error (.tooFewWorkers count) else .ok (some count.toNat)

/-- The engine with the given rules. -/
def build (inspectors : List (Inspector m)) (workers : Option Int) :
    Except (EngineError τ) (Engine m) :=
  match checkWorkers workers with
  | .error e => .error e
  | .ok workers => inspectors.foldlM register (empty workers)

/-! ## Running -/

/-- The rules that have run, each with what its inspection came to. -/
abbrev Completed := List (Text × Inspection)

/-- Runs rules one after the other until the time is up, which is looked at before each of them. -/
def runWhile [Monad m] (isUp : m Bool) (instructions : List Instruction) :
    List (Inspector m) → m Completed
  | [] => pure []
  | i :: rest => do
    if ← isUp then pure []
    else
      let inspection ← i.inspect instructions
      let completed ← runWhile isUp instructions rest
      pure ((i.id, inspection) :: completed)

/-- Runs all the given rules. -/
def runAll [Monad m] (instructions : List Instruction) (inspectors : List (Inspector m)) :
    m Completed :=
  inspectors.mapM fun i => do
    let inspection ← i.inspect instructions
    pure (i.id, inspection)

/-- Whether a deadline has passed on a clock that showed `started`. -/
def isUp [Monad m] [Duration τ] (clock : m τ) (started : τ) : Option τ → m Bool
  | none => pure false
  | some deadline => do
    let now ← clock
    pure (Duration.le deadline (Duration.between started now))

/-- How threads get on with rules: of the names of those that are submitted, the ones whose rules
finish while they are waited for, in the order in which they do. -/
abbrev Schedule := List Text → List Text

/-- Whether a rule is done when the wait for it ends; without a deadline there is no end before. -/
def isDone (deadline : Option τ) (names : List Text) (id : Text) : Bool :=
  deadline.isNone || names.contains id

/-- Rules in the order of their names in a row; those that are not named come last. -/
def inOrder : (names : List Text) → List (Inspector m) → List (Inspector m)
  | [], inspectors => inspectors
  | id :: names, inspectors =>
    (inspectors.filter fun i => i.id = id) ++
      inOrder names (inspectors.filter fun i => !decide (i.id = id))

/-- Runs rules on threads, and comes to those that are done when the wait ends. A rule that is not
is given up. The deadline is taken to be one that can be waited for. -/
def runThreaded [Monad m] (deadline : Option τ) (schedule : Schedule)
    (instructions : List Instruction) (inspectors : List (Inspector m)) : m Completed :=
  let names := schedule (inspectors.map Inspector.id)
  runAll instructions (inOrder names (inspectors.filter fun i => isDone deadline names i.id))

/-- Runs an engine's rules in the way that the number of its workers asks for: a single worker looks
at the clock, and more of them are waited for. -/
def complete [Monad m] [Duration τ] (e : Engine m) (clock : m τ) (deadline : Option τ)
    (instructions : List Instruction) (schedule : Schedule := id) : m Completed := do
  if e.workers = some 1 then
    let started ← clock
    runWhile (isUp clock started deadline) instructions e.inspectors
  else runThreaded deadline schedule instructions e.inspectors

/-! ## Reporting -/

/-- The name under which a missed deadline is reported. -/
def timeoutId : Text := "timeout"

/-- The name under which unknown keywords are reported. -/
def unknownInstructionId : Text := "unknown-instruction"

/-- The finding about a rule that failed. -/
def faultFinding (id : Text) (fault : Fault) : Finding :=
  ⟨id, .error, 0, Text.concat ["internal rule fault: ", fault.kind, ": ", fault.text]⟩

/-- The findings of a rule, be it that it failed. -/
def isolated (id : Text) : Inspection → List Finding
  | .ok findings => findings
  | .error fault => [faultFinding id fault]

/-- The finding about a missed deadline. -/
def timeoutFinding (deadline : Text) (skipped : List Text) : Finding :=
  ⟨timeoutId, .error, 0,
    Text.concat
      ["TIMEOUT: analysis deadline of ", deadline, "s exceeded; skipped rules: ",
        Text.joinWith ", " skipped]⟩

/-- The results of those rules that have run, in the order of registration. -/
def resultsOf (ids : List Text) (completed : Completed) : OrderedMap Text (List Finding) :=
  .ofList (ids.filterMap fun id => (completed.lookup id).map fun i => (id, isolated id i))

/-- The rules that have not run. -/
def skippedOf (ids : List Text) (completed : Completed) : List Text :=
  ids.filter fun id => (completed.lookup id).isNone

/-- The report on the rules that have run, in whatever order they did. -/
def reportOf (ids : List Text) (deadline : Text) (source : Text) (completed : Completed) : Report :=
  let results := resultsOf ids completed
  let skipped := skippedOf ids completed
  { results :=
      if skipped.isEmpty then results
      else results.insert timeoutId [timeoutFinding deadline skipped]
    timedOut := !skipped.isEmpty
    skipped
    source }

/-- What is noted about the rules that failed and those that did not run. -/
def logOf (ids : List Text) (deadline : Text) (completed : Completed) : List LogEntry :=
  let failures := completed.filterMap fun (id, inspection) =>
    match inspection with
    | .ok _ => none
    | .error fault => some (.ruleFailed id fault)
  let skipped := skippedOf ids completed
  failures ++ if skipped.isEmpty then [] else [.deadlineExceeded deadline skipped]

/-- The text of a deadline. -/
def deadlineText [Duration τ] (deadline : Option τ) : Text :=
  deadline.elim [] Duration.text

/-- A report and what was noted while it was made. -/
structure Run where
  report : Report
  log : List LogEntry
deriving DecidableEq, Repr

/-- Runs an engine on steps, provided that the deadline leaves it any time. -/
def run [Monad m] [Duration τ] (e : Engine m) (clock : m τ) (deadline : Option τ) (source : Text)
    (instructions : List Instruction) (schedule : Schedule := id) :
    m (Except (EngineError τ) Run) := do
  match deadline.filter fun d => Duration.le d Duration.zero with
  | some d => pure (.error (.deadlineNotPositive d))
  | none =>
    let completed ← e.complete clock deadline instructions schedule
    let limit := deadlineText deadline
    pure (.ok ⟨reportOf e.ids limit source completed, logOf e.ids limit completed⟩)

/-! ## Analysis of Dockerfiles -/

/-- The findings about unknown keywords. -/
def unknownInstructionFindings (warnings : List UnknownKeyword) : List Finding :=
  warnings.map fun w => ⟨unknownInstructionId, .warning, w.line, w.message⟩

/-- A report with the unknown keywords in front. -/
def withWarnings (warnings : List UnknownKeyword) (r : Report) : Report :=
  if warnings.isEmpty then r
  else
    { r with
      results := .ofList
        ((unknownInstructionId, unknownInstructionFindings warnings) :: r.results.entries) }

/-- Runs an engine on a Dockerfile and reports its unknown keywords as well. -/
def analyze [Monad m] [Duration τ] (e : Engine m) (clock : m τ) (deadline : Option τ)
    (source : Text) (d : Dockerfile) (schedule : Schedule := id) :
    m (Except (EngineError τ) Run) := do
  let result ← e.run clock deadline source d.instructions schedule
  pure (result.map fun run => { run with report := withWarnings d.warnings run.report })

end Engine

end Drydock
