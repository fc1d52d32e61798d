/-
  Reports as text for readers and as a document for programs. The text groups findings by severity
  and sorts each group by line; the document keeps their order.
-/
import Drydock.Json.Writer
import Drydock.Report.Basic
import Drydock.Report.Style

namespace Drydock

/-- The forms in which a report is written. -/
inductive OutputFormat where
  | text
  | json
deriving DecidableEq, Repr

namespace OutputFormat

/-- The name of a format. -/
def name : OutputFormat → Text
  | text => "text"
  | json => "json"

/-- The format of a name. -/
def ofName? (name : Text) : Option OutputFormat :=
  [text, json].find? fun format => format.name = name

/-- What is said about a name that no format has. -/
def unknownMessage (name : Text) : Text :=
  Text.concat ["Unknown output format '", name, "'. Expected one of: json, text"]

end OutputFormat

/-- A finding on a line of its own. -/
def Finding.text (f : Finding) : Text :=
  Text.concat [Text.ofInt f.line, ": [", f.severity.name, "] ", f.ruleId, ": ", f.message]

/-- The colour of a severity. -/
def Severity.colour : Severity → Colour
  | error => .red
  | warning => .yellow
  | info => .cyan

/-- The colour of an outcome. -/
def Status.colour : Status → Colour
  | error => .red
  | warning => .yellow
  | pass => .green

/-- A line of the text form. -/
inductive ReportLine where
  | header (severity : Severity) (count : Nat)
  | finding (f : Finding)
  | noFindings
  | summary (status : Status) (errors warnings infos : Nat) (timedOut : Bool)
deriving DecidableEq, Repr

namespace ReportLine

/-- The characters of a line. -/
def text : ReportLine → Text
  | header severity count => Text.concat [severity.name, " (", Text.ofNat count, "):"]
  | finding f => f.text
  | noFindings => "No findings."
  | summary status errors warnings infos timedOut =>
    Text.concat
      ["Status: ", status.name, " (", Text.ofNat errors, " errors, ", Text.ofNat warnings,
        " warnings, ", Text.ofNat infos, " info)", if timedOut then " [TIMEOUT]" else []]

/-- The characters of a line with its colour. -/
def styled (line : ReportLine) : Text :=
  match line with
  | header severity _ => severity.colour.bold line.text
  | summary status .. => status.colour.bold line.text
  | _ => line.text

end ReportLine

namespace Report

/-- The findings of one severity by line; findings on one line keep their order. -/
def sorted (r : Report) (s : Severity) : List Finding :=
  (r.ofSeverity s).mergeSort fun a b => a.line ≤ b.line

/-- The lines about one severity. -/
def groupLines (r : Report) (s : Severity) : List ReportLine :=
  if (r.sorted s).isEmpty then [] else .header s (r.count s) :: (r.sorted s).map .finding

/-- The last line. -/
def summaryLine (r : Report) : ReportLine :=
  .summary r.status (r.count .error) (r.count .warning) (r.count .info) r.timedOut

/-- The lines of the text form. -/
def lines (r : Report) : List ReportLine :=
  Severity.all.flatMap r.groupLines ++
    (if r.findings.isEmpty then [.noFindings] else []) ++ [r.summaryLine]

/-- The text form with colours. -/
def renderText (r : Report) : Text := Text.joinWith ['\n'] (r.lines.map ReportLine.styled)

/-- A finding as an object. -/
def findingValue (f : Finding) : Value :=
  .table
    [("rule_id", .text f.ruleId), ("severity", .text f.severity.name), ("line", .integer f.line),
      ("message", .text f.message)]

/-- The document form. -/
def renderJson (r : Report) : Text := Json.render (.array (r.findings.map findingValue))

/-- A report in either form. -/
def render (r : Report) : OutputFormat → Text
  | .text => r.renderText
  | .json => r.renderJson

end Report

end Drydock
