/-
  What a check leaves behind. The lines that are printed, the document that is written and the code
  of the process all show one report (`Describes`), be the report on rules that have all run or on
  those that a deadline has let run.
-/
import Drydock.Proofs.Cli.Step
import Drydock.Proofs.Report.Document

namespace Drydock.Cli

variable {o : LintOptions} {k : Checked} {t t' : FileTree} {outcome : Outcome}

/-! ## Formats -/

theorem name_of_formatOf? {name : Text} {format : OutputFormat} (h : formatOf? name = some format) :
    format.name = Text.lower name := by
  simpa using List.find?_some h

/-! ## Writing -/

theorem eq_ok_of_change {f : FileTree → Except FileError FileTree}
    (h : FileTree.change f t = (.ok (), t')) : f t = .ok t' := by
  unfold FileTree.change at h
  split at h
  · next hchange =>
    rw [hchange]
    exact congrArg Except.ok (Prod.mk.inj h).2
  · exact absurd (Prod.mk.inj h).1 (by simp)

/-- What is written into a directory, be it there already or not, is read from the file. -/
theorem read_of_writeInto {p : Path} {content : Text}
    (h : (writeInto p content : StateM FileTree _) t = (.ok (), t')) :
    t'.read p = .ok (Text.Utf8.encode content) := by
  rcases hmade : (Host.makeDirectories p.parent : StateM FileTree _) t with ⟨made, between⟩
  have hsteps := (FileTree.bind_of_eq hmade _).symm.trans h
  cases made with
  | error e => exact absurd (Prod.mk.inj hsteps).1 (by simp)
  | ok _ => exact FileTree.read_of_write (eq_ok_of_change hsteps)

/-- A document that is requested is written, or the outcome is a failure. -/
theorem read_of_writeOutput {output : Option Path} {report : Report} {printed : Outcome}
    (h : (writeOutput output report printed : StateM FileTree _) t = (outcome, t'))
    (hwritten : outcome.failure = none) : outcome = printed ∧
      ∀ p ∈ output, t'.read p = .ok (Text.Utf8.encode report.renderJson) := by
  cases output with
  | none => exact ⟨(Prod.mk.inj h).1.symm, fun p hp => absurd hp (by simp)⟩
  | some p =>
    rcases hinto : (writeInto p report.renderJson : StateM FileTree _) t with ⟨result, between⟩
    have hsteps := (FileTree.bind_of_eq hinto _).symm.trans h
    cases result with
    | error e =>
      obtain rfl := (Prod.mk.inj hsteps).1
      exact absurd hwritten (by simp)
    | ok _ =>
      obtain ⟨rfl, rfl⟩ := Prod.mk.inj hsteps
      refine ⟨rfl, fun q hq => ?_⟩
      obtain rfl := Option.some.inj hq
      exact read_of_writeInto hinto

/-! ## Delivering -/

/-- What is left behind shows one report: the lines in the format that is asked for, by an option
that is not empty or else by the configuration; the document; and the code, which the document
decides, but for the time and for whether warnings count. -/
structure Describes (o : LintOptions) (k : Checked) (t t' : FileTree) (outcome : Outcome) :
    Prop where
  format : k.format.name =
    Text.lower ((o.format.filter fun name => !name.isEmpty).getD k.config.format.name)
  stdout : outcome.stdout =
    (if k.format = .json ∨ .output ∈ t.terminals then k.run.report.render k.format
      else Text.plain (k.run.report.render k.format)) ++ ['\n']
  document : ∀ p ∈ o.output, t'.read p = .ok (Text.Utf8.encode k.run.report.renderJson)
  exit : outcome.exit =
    if k.run.report.timedOut then 2
    else if (∃ f ∈ k.run.report.findings, f.severity = .error) ∨
        (o.strict.getD k.config.strict = true ∧
          ∃ f ∈ k.run.report.findings, f.severity = .warning) then 1
    else 0
  decided : ∀ p ∈ o.output, ∀ octets, t'.read p = .ok octets →
    Report.codeOfDocument? octets k.run.report.timedOut (o.strict.getD k.config.strict) =
      some outcome.exit

/-- What is printed before anything is written. -/
def printed (o : LintOptions) (k : Checked) (t : FileTree) : Outcome :=
  { exit := k.run.report.exitCode (o.isStrict k.config)
    stdout := Outcome.line (t.terminals.contains .output) (k.run.report.render k.format)
    stderr := logText k.run.log }

theorem deliver_eq (o : LintOptions) (k : Checked) (t : FileTree) :
    (deliver o k : StateM FileTree _) t =
      (writeOutput o.output k.run.report (printed o k t) : StateM FileTree _) t := rfl

/-- A document is printed alike on a terminal and off one. -/
theorem stdout_printed (o : LintOptions) (k : Checked) (t : FileTree) :
    (printed o k t).stdout =
      (if k.format = .json ∨ .output ∈ t.terminals then k.run.report.render k.format
        else Text.plain (k.run.report.render k.format)) ++ ['\n'] := by
  unfold printed Outcome.line
  by_cases hterminal : .output ∈ t.terminals
  · simp [hterminal]
  · cases hformat : k.format with
    | text => simp [hterminal]
    | json =>
      have hplain := Report.plain_of_isPlainAscii (Report.isPlainAscii_renderJson k.run.report)
      simp [hterminal, Report.render, hplain]

theorem describes_of_deliver
    (hprepare : execute (prepare o) t = (.ok (k.config, k.format), t))
    (hdeliver : (deliver o k : StateM FileTree _) t = (outcome, t'))
    (hwritten : outcome.failure = none) : Describes o k t t' outcome := by
  obtain ⟨⟨hformat, -⟩, -⟩ := (settles_prepare o).of_ok hprepare
  obtain ⟨rfl, hdocument⟩ := read_of_writeOutput ((deliver_eq o k t).symm.trans hdeliver) hwritten
  refine ⟨name_of_formatOf? hformat, stdout_printed o k t, hdocument,
    Report.exitCode_eq_codeOf _ _, fun p hp octets hread => ?_⟩
  obtain rfl := Except.ok.inj ((hdocument p hp).symm.trans hread)
  exact Report.codeOfDocument?_renderJson _ _

/--
What a check leaves behind that comes to print its report, and whose document is written if it is
requested, shows that report; and whatever rules have run within whatever deadline, what is
delivered shows the report on them.
-/
theorem outputs_describe_report (o : LintOptions) (t : FileTree) :
    (∀ stdin outcome t', execute (lint o stdin) t = (.ok outcome, t') → outcome.failure = none →
      ∃ k, execute (check o stdin) t = (.ok k, t) ∧ Describes o k t t' outcome) ∧
    ∀ k outcome t', execute (prepare o) t = (.ok (k.config, k.format), t) →
      (deliver o k : StateM FileTree _) t = (outcome, t') → outcome.failure = none →
      Describes o k t t' outcome := by
  refine ⟨fun stdin outcome t' hlint hwritten => ?_, fun k outcome t' => describes_of_deliver⟩
  obtain ⟨k, between, hcheck, hdeliver⟩ := exists_of_execute_bind hlint
  obtain ⟨-, rfl⟩ := (settles_check o stdin).of_ok hcheck
  obtain ⟨hresult, hleft⟩ := Prod.mk.inj hdeliver
  exact ⟨k, hcheck, describes_of_deliver (execute_prepare_of_check hcheck)
    (Prod.ext (Except.ok.inj hresult) hleft) hwritten⟩

/-- A warning in a strict run with its document in a new directory, and a run whose time is up. -/
theorem outputs_describe_report_of_strict_run :
    ∃ (o : LintOptions) (t t' : FileTree) (k late : Checked) (outcome missed : Outcome),
      execute (check o []) t = (.ok k, t) ∧ Describes o k t t' outcome ∧ outcome.exit = 1 ∧
      late.run.report.timedOut = true ∧ Describes { o with output := none } late t t missed ∧
      missed.exit = 2 := by
  let o : LintOptions :=
    { LintOptions.usual with
      format := some "JSON", strict := some true, output := some (Path.ofText "out/report.json") }
  let t : FileTree :=
    { nodes := .ofList
        [(["Dockerfile"], .file (Text.Utf8.encode "FROM a:1\nTRY x\n")),
          ([".docklint.toml"], .file (Text.Utf8.encode "[rules]\nenable = [\"explicit-tag\"]\n"))] }
  have hlinted : ((execute (lint o []) t).1.toOption.map fun outcome =>
      (outcome.exit, outcome.failure)) = some (1, none) := by decide +kernel
  clear_value o t
  obtain ⟨outcome, hlint, hresult⟩ := exists_of_toOption_eq hlinted
  obtain ⟨hexit, hwritten⟩ := Prod.mk.inj hresult
  obtain ⟨k, hcheck, hdescribes⟩ :=
    (outputs_describe_report o t).1 [] outcome _ (Prod.ext hlint rfl) hwritten
  have hprepare : execute (prepare o) t = (.ok (k.config, k.format), t) :=
    execute_prepare_of_check hcheck
  let late : Checked :=
    { k with run := ⟨{ results := .ofList [("timeout", [])], timedOut := true }, []⟩ }
  have hmissed : Describes { o with output := none } late t t (printed o late t) :=
    (outputs_describe_report { o with output := none } t).2 late _ t hprepare rfl rfl
  exact ⟨o, t, _, k, late, outcome, _, hcheck, hdescribes, hexit, rfl, hmissed, rfl⟩

/-- Off a terminal the text form of a report is printed without its colours. -/
theorem colours_lost_off_terminal :
    ∃ (o : LintOptions) (t : FileTree) (k : Checked) (outcome : Outcome),
      execute (check o []) t = (.ok k, t) ∧ execute (lint o []) t = (.ok outcome, t) ∧
      outcome.failure = none ∧ outcome.stdout ≠ k.run.report.render k.format ++ ['\n'] := by
  let o : LintOptions := .usual
  let t : FileTree :=
    { nodes := .ofList
        [(["Dockerfile"], .file (Text.Utf8.encode "FROM a:1\n")),
          ([".docklint.toml"], .file (Text.Utf8.encode "[rules]\nenable = [\"explicit-tag\"]\n"))] }
  let report : Report := { results := .ofList [("explicit-tag", [])], source := "Dockerfile" }
  have hchecked : ((execute (check o []) t).1.toOption.map fun k => (k.format, k.run)) =
      some (.text, ⟨report, []⟩) := by decide +kernel
  have hlost : Text.plain (report.render .text) ≠ report.render .text := by decide +kernel
  have houtput : o.output = none := rfl
  have hterminals : t.terminals = [] := rfl
  clear_value o t report
  obtain ⟨k, hchecked, hk⟩ := exists_of_toOption_eq hchecked
  obtain ⟨hformat, hrun⟩ := Prod.mk.inj hk
  obtain ⟨-, hsame⟩ := (settles_check o []).of_ok (Prod.ext hchecked rfl)
  have hcheck : execute (check o []) t = (.ok k, t) := Prod.ext hchecked hsame
  have hdeliver : (deliver o k : StateM FileTree _) t = (printed o k t, t) := by
    rw [deliver_eq, houtput]
    rfl
  refine ⟨o, t, k, printed o k t, hcheck,
    (execute_bind_of_ok hcheck _).trans (execute_lift_of_eq hdeliver), rfl, ?_⟩
  rw [stdout_printed, hformat, hrun, hterminals, if_neg (by simp)]
  exact fun h => hlost (List.append_cancel_right h)

end Drydock.Cli
