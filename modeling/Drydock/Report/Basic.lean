/-
  Reports: the findings of all rules that ran, by rule in the order of registration, and what became
  of the others.
-/
import Drydock.Rule.Basic

namespace Drydock

/-- The outcome of a report. -/
inductive Status where
  | error
  | warning
  | pass
deriving DecidableEq, Repr

/-- The name of an outcome. -/
def Status.name : Status → Text
  | error => "ERROR"
  | warning => "WARNING"
  | pass => "PASS"

/-- The findings of one analysis. -/
structure Report where
  results : OrderedMap Text (List Finding)
  timedOut : Bool := false
  skipped : List Text := []
  source : Text := "<text>"
deriving DecidableEq, Repr

namespace Report

/-- All findings in order. -/
def findings (r : Report) : List Finding := r.results.values.flatten

/-- The findings of one severity. -/
def ofSeverity (r : Report) (s : Severity) : List Finding :=
  r.findings.filter fun f => f.severity = s

/-- How many findings have a severity. -/
def count (r : Report) (s : Severity) : Nat := (r.ofSeverity s).length

/-- The worst that was found; remarks for information do not count. -/
def status (r : Report) : Status :=
  if r.findings.any fun f => f.severity = .error then .error
  else if r.findings.any fun f => f.severity = .warning then .warning
  else .pass

/-- Whether a rule ran and found nothing. -/
def passed (r : Report) (id : Text) : Bool := (r.results.get? id).any List.isEmpty

/-- The code with which a process ends that made this report. -/
def exitCode (r : Report) (strict : Bool) : Nat :=
  if r.timedOut then 2
  else match r.status with
    | .error => 1
    | .warning => if strict then 1 else 0
    | .pass => 0

end Report

end Drydock
