/-
  Checking the input and checking a file. A Dockerfile is read alike from both, and of what follows
  only the search for an ignore file looks at where it comes from. So both are refused alike, stop
  at the same error, or report the same under every name but that of the rule that makes the search
  (`lint_input_like_file`). At a number that is too long both stop as well, but with another code
  and without a line about it (`long_number_not_reported`).
-/
import Drydock.Proofs.Cli.Step
import Drydock.Proofs.Dockerfile.LongNumber
import Drydock.Proofs.Dockerfile.Source
import Drydock.Proofs.Engine.Findings
import Drydock.Proofs.Rule.Search

namespace Drydock.Cli

/-- The options with the input in place of a file. -/
def LintOptions.onInput (o : LintOptions) : LintOptions :=
  { o with stdin := true, dockerfile := none }

/-- What stopping at a Dockerfile that cannot be parsed amounts to. -/
def unparsed (t : FileTree) (source : Text) (e : ParseError) : Outcome :=
  { exit := 2
    stderr := Outcome.line (t.terminals.contains .errors) (unparsedMessage source e) }

/-- What stopping at a fault amounts to, be it reported as one of a Dockerfile or not. -/
def stopped (t : FileTree) (source : Text) (e : ParseError) : Outcome :=
  if e.cause.isReported then unparsed t source e else .failed [] (.tooManyDigits e.message)

/-- What a configuration that selects no rules amounts to. -/
def unselected (e : SelectionError) : Outcome :=
  .failed [] (.refused (.badParameter ⟨some "config.rules", e.message⟩))

/-- What is reported without a deadline: the unknown keywords, if any, and then the rules. -/
def reported (d : Dockerfile) (rules : List Rule) : List (Text × List Finding) :=
  (if d.warnings.isEmpty then []
    else [(Engine.unknownInstructionId, Engine.unknownInstructionFindings d.warnings)]) ++
    rules.map (Rule.entry d.instructions)

/-- What a report says under every name but that of the rule that looks for an ignore file. -/
def besidesSearch (r : Report) : List (Text × List Finding) :=
  r.results.entries.filter (·.1 ≠ Rule.searchId)

/-! ## Reading -/

section Reading

variable {t : FileTree} {text : Text}

theorem execute_parsed_ok (source : Text) (d : Dockerfile) :
    execute (parsed source (.ok d)) t = (.ok d, t) := rfl

theorem execute_parsed_error (source : Text) (e : ParseError) :
    execute (parsed source (.error e) : Step _ Dockerfile) t =
      (.error (stopped t source e), t) := by
  unfold parsed stopped
  dsimp only
  split <;> rfl

/-- The text of the input is parsed whatever its line ends are. -/
theorem readDockerfile_input (text : Text) :
    (readDockerfile text none : Step (StateM FileTree) Dockerfile) =
      parsed (sourceName none) (Dockerfile.parse text) := by
  rw [readDockerfile, Dockerfile.parse_unifyLineEnds]

/-- The text that a file holds is parsed. -/
theorem execute_readDockerfile_file {p : Path} (hread : t.read p = .ok (Text.Utf8.encode text))
    (stdin : Text) :
    execute (readDockerfile stdin (some p)) t =
      execute (parsed (sourceName (some p)) (Dockerfile.parse text)) t := by
  have hfound : (Host.read p : StateM FileTree _) t = (.ok (Text.Utf8.encode text), t) :=
    congrArg (fun octets => (octets, t)) hread
  rw [readDockerfile, execute_bind_of_ok (execute_lift_of_eq hfound)]
  dsimp only
  rw [Dockerfile.ofOctets_encode]

end Reading

/-! ## Running -/

section Running

variable {rules : List Rule} {workers : Option Int} {t : FileTree}

theorem glance_now (workers : Option Nat) (t : FileTree) :
    Engine.glance workers (Host.now : StateM FileTree Float) t = ((), t) := by
  unfold Engine.glance
  split <;> rfl

/-- An engine with the rules of a selection reports the unknown keywords, and then the rules. -/
theorem exists_analyze_now {s : Selection} {o : RuleOptions} (hrules : s.rules o = .ok rules)
    {e : Engine (StateM FileTree)} (he : e.inspectors = rules.map Rule.inspector) (source : Text)
    (d : Dockerfile) (schedule : Engine.Schedule) (t : FileTree) : ∃ run : Engine.Run,
    e.analyze (Host.now : StateM FileTree Float) none source d schedule t = (.ok run, t) ∧
      run.report.results.entries = reported d rules := by
  obtain ⟨log, hanalyze⟩ := Engine.analyze_without_deadline he Host.now source d schedule
  refine ⟨⟨_, log⟩, ?_, Engine.entries_of_all hrules d [] source⟩
  rw [hanalyze]
  exact congrArg (fun glanced => (_, glanced.2)) (glance_now e.workers t)

theorem exists_build_of_selection {s : Selection} {o : RuleOptions}
    (hrules : s.rules o = .ok rules) (hworkers : ∀ n ∈ workers, 1 ≤ n) :
    ∃ e : Engine (StateM FileTree),
      Engine.build (rules.map Rule.inspector) workers = (.ok e : Except (EngineError Float) _) := by
  have hids : ((rules.map Rule.inspector : List (Inspector (StateM FileTree))).map
      Inspector.id).Nodup := by
    rw [Engine.map_id_inspector]
    exact Engine.nodup_ids_of_rules hrules
  obtain ⟨e, hbuild, -⟩ := Engine.exists_build hids hworkers
  exact ⟨e, hbuild⟩

/-- Rules that are selected run. -/
theorem exists_execute_runRules {s : Selection} {o : RuleOptions} (hrules : s.rules o = .ok rules)
    (hworkers : ∀ n ∈ workers, 1 ≤ n) (source : Text) (d : Dockerfile) (t : FileTree) :
    ∃ run : Engine.Run, execute (runRules rules workers none source d) t = (.ok run, t) ∧
      run.report.results.entries = reported d rules := by
  obtain ⟨e, hbuild⟩ := exists_build_of_selection hrules hworkers
  let finished : StateM FileTree (List Text) := finishedRules rules e.workers none d
  obtain ⟨run, hrun, hentries⟩ := exists_analyze_now hrules (Engine.inspectors_of_build hbuild)
    source d (fun _ => (finished t).1) t
  refine ⟨run, ?_, hentries⟩
  rw [runRules, hbuild]
  have hfinished := (onlyLooks_finishedRules rules e.workers none d).eq t
  exact (execute_bind_of_ok (execute_lift_of_eq hfinished) _).trans
    (execute_bind_of_ok (execute_lift_of_eq hrun) _)

end Running

/-! ## Checking -/

section Checking

variable {o : LintOptions} {stdin text : Text} {t : FileTree} {c : Config} {format : OutputFormat}

theorem execute_check_of_refused {outcome : Outcome}
    (h : execute (prepare o) t = (.error outcome, t)) :
    execute (check o stdin) t = (.error outcome, t) :=
  execute_bind_of_error h _

/-- The text that is parsed is what is read, be it from the input or from a file. -/
def ReadsText (o : LintOptions) (stdin : Text) (t : FileTree) (text : Text) : Prop :=
  execute (readDockerfile stdin o.file) t =
    execute (parsed (sourceName o.file) (Dockerfile.parse text)) t

theorem readsText_onInput (o : LintOptions) (t : FileTree) (text : Text) :
    ReadsText o.onInput text t text :=
  congrArg (execute · t) (readDockerfile_input text)

theorem readsText_of_file {p : Path} (hfile : o.file = some p)
    (hread : t.read p = .ok (Text.Utf8.encode text)) (stdin : Text) :
    ReadsText o stdin t text := by
  rw [ReadsText, hfile]
  exact execute_readDockerfile_file hread stdin

theorem execute_check_of_stopped {e : ParseError} (hreads : ReadsText o stdin t text)
    (hprepare : execute (prepare o) t = (.ok (c, format), t))
    (hparse : Dockerfile.parse text = .error e) :
    execute (check o stdin) t = (.error (stopped t (sourceName o.file) e), t) := by
  rw [ReadsText, hparse, execute_parsed_error] at hreads
  exact (execute_bind_of_ok hprepare _).trans (execute_bind_of_error hreads _)

/-- A check goes on to the rules with whatever the search for an ignore file has found. -/
theorem exists_execute_check_eq {d : Dockerfile} (hreads : ReadsText o stdin t text)
    (hprepare : execute (prepare o) t = (.ok (c, format), t))
    (hparse : Dockerfile.parse text = .ok d) : ∃ search,
    execute (check o stdin) t = execute (do
      let rules ← selectRules c search
      let run ← runRules rules (o.workersFor c) (o.deadlineFor c) (sourceName o.file) d
      pure ⟨c, format, run⟩) t := by
  rw [ReadsText, hparse, execute_parsed_ok] at hreads
  refine ⟨((ignoreSearch o : StateM FileTree _) t).1, (execute_bind_of_ok hprepare _).trans ?_⟩
  refine (execute_bind_of_ok hreads _).trans ?_
  exact execute_bind_of_ok (execute_lift_of_eq ((onlyLooks_ignoreSearch o).eq t)) _

theorem rules_ruleOptions (c : Config) (search : Rule.IgnoreSearch) :
    c.selection.rules (c.ruleOptions search) =
      (c.selection.rules (c.ruleOptions {})).map (List.map (Rule.searching search)) :=
  c.selection.rules_searching (c.ruleOptions {}) search

theorem execute_check_of_unselected {d : Dockerfile} {e : SelectionError}
    (hreads : ReadsText o stdin t text)
    (hprepare : execute (prepare o) t = (.ok (c, format), t))
    (hparse : Dockerfile.parse text = .ok d)
    (hrules : c.selection.rules (c.ruleOptions {}) = .error e) :
    execute (check o stdin) t = (.error (unselected e), t) := by
  obtain ⟨search, hcheck⟩ := exists_execute_check_eq hreads hprepare hparse
  have hselect : execute (selectRules c search : Step (StateM FileTree) (List Rule)) t =
      (.error (unselected e), t) := by
    rw [selectRules, rules_ruleOptions, hrules]
    rfl
  exact hcheck.trans (execute_bind_of_error hselect _)

/-- A check without a deadline reports what the rules say, whatever the search has found. -/
theorem exists_execute_check {d : Dockerfile} {rules : List Rule}
    (hreads : ReadsText o stdin t text)
    (hprepare : execute (prepare o) t = (.ok (c, format), t))
    (hworkers : ∀ n ∈ o.workersFor c, 1 ≤ n) (hdeadline : o.deadlineFor c = none)
    (hparse : Dockerfile.parse text = .ok d)
    (hrules : c.selection.rules (c.ruleOptions {}) = .ok rules) : ∃ run : Engine.Run,
    execute (check o stdin) t = (.ok ⟨c, format, run⟩, t) ∧
      besidesSearch run.report = (reported d rules).filter (·.1 ≠ Rule.searchId) := by
  obtain ⟨search, hcheck⟩ := exists_execute_check_eq hreads hprepare hparse
  have hsearching : c.selection.rules (c.ruleOptions search) =
      .ok (rules.map (Rule.searching search)) := by
    rw [rules_ruleOptions, hrules]
    rfl
  have hselect : execute (selectRules c search : Step (StateM FileTree) (List Rule)) t =
      (.ok (rules.map (Rule.searching search)), t) := by
    rw [selectRules, hsearching]
    rfl
  obtain ⟨run, hrun, hentries⟩ :=
    exists_execute_runRules hsearching hworkers (sourceName o.file) d t
  refine ⟨run, ?_, ?_⟩
  · rw [hcheck, hdeadline]
    exact (execute_bind_of_ok hselect _).trans (execute_bind_of_ok hrun _)
  · rw [besidesSearch, hentries, reported, List.filter_append, reported, List.filter_append,
      Rule.filter_entry_searching]

/-! ## Both -/

theorem prepare_onInput (h : o.stdin = false) :
    (prepare o.onInput : Step (StateM FileTree) _) = prepare o := by
  have hcheck : (checkLint o.onInput : Step (StateM FileTree) Unit) = checkLint o := by
    simp [checkLint, LintOptions.onInput, h]
  rw [prepare, hcheck, prepare]
  rfl

theorem stdin_of_file {p : Path} (h : o.file = some p) : o.stdin = false := by
  unfold LintOptions.file at h
  split at h
  · exact absurd h (by simp)
  · next hstdin => exact Bool.eq_false_iff.mpr hstdin

/--
To check the input is like checking a file that holds its text, with the same further options. Where
the configuration or an option is refused, both are refused alike. Otherwise both stop at the same
error of the text, with code 2 and each with the name of its source, unless a step of the text stops
at a number that is too long; or both are refused as no rules can be selected; or, without a
deadline, both run and report the same under the same names in the same order, but for the rule that
looks for an ignore file.
-/
theorem lint_input_like_file {p : Path} (hfile : o.file = some p)
    (hread : t.read p = .ok (Text.Utf8.encode text)) (stdin : Text) :
    match (execute (prepare o) t).1 with
    | .error outcome =>
      execute (lint o.onInput text) t = (.error outcome, t) ∧
        execute (lint o stdin) t = (.error outcome, t)
    | .ok (c, format) =>
      match Dockerfile.parse text with
      | .error e =>
        (e.cause.isReported = false ↔
          Dockerfile.MeetsLongNumber (Dockerfile.physicalLines text)) ∧
        execute (lint o.onInput text) t = (.error (stopped t "stdin" e), t) ∧
          execute (lint o stdin) t = (.error (stopped t p.text e), t)
      | .ok _ =>
        match c.selection.rules (c.ruleOptions {}) with
        | .error e =>
          execute (lint o.onInput text) t = (.error (unselected e), t) ∧
            execute (lint o stdin) t = (.error (unselected e), t)
        | .ok _ =>
          o.deadlineFor c = none → ∃ run run' : Engine.Run,
            execute (check o.onInput text) t = (.ok ⟨c, format, run⟩, t) ∧
            execute (check o stdin) t = (.ok ⟨c, format, run'⟩, t) ∧
            besidesSearch run.report = besidesSearch run'.report := by
  have hinput := readsText_onInput o t text
  have hholds := readsText_of_file hfile hread stdin
  have hsame := prepare_onInput (stdin_of_file hfile)
  rcases settles_prepare o t with ⟨outcome, hprepare⟩ | ⟨⟨c, format⟩, ⟨-, hworkers⟩, hprepare⟩
  · have hprepare' := hsame ▸ hprepare
    rw [hprepare]
    exact ⟨execute_bind_of_error (execute_check_of_refused hprepare') _,
      execute_bind_of_error (execute_check_of_refused hprepare) _⟩
  · have hprepare' := hsame ▸ hprepare
    rw [hprepare]
    dsimp only
    cases hparse : Dockerfile.parse text with
    | error e =>
      have hstop := execute_check_of_stopped hholds hprepare hparse
      rw [hfile] at hstop
      exact ⟨Dockerfile.isReported_iff_of_parse hparse,
        execute_bind_of_error (execute_check_of_stopped hinput hprepare' hparse) _,
        execute_bind_of_error hstop _⟩
    | ok d =>
      dsimp only
      cases hrules : c.selection.rules (c.ruleOptions {}) with
      | error e =>
        exact ⟨execute_bind_of_error (execute_check_of_unselected hinput hprepare' hparse hrules) _,
          execute_bind_of_error (execute_check_of_unselected hholds hprepare hparse hrules) _⟩
      | ok rules =>
        intro hdeadline
        obtain ⟨run, hrun, hreport⟩ :=
          exists_execute_check hinput hprepare' hworkers hdeadline hparse hrules
        obtain ⟨run', hrun', hreport'⟩ :=
          exists_execute_check hholds hprepare hworkers hdeadline hparse hrules
        exact ⟨run, run', hrun, hrun', hreport.trans hreport'.symm⟩

/-- Line ends of three kinds, a keyword that no builder knows, and no ignore file. -/
theorem lint_input_like_file_of_mixed_line_ends :
    ∃ (o : LintOptions) (t : FileTree) (text : Text) (checked checked' : Checked),
      text = "FROM a:1\r\nTRY x\rUSER root\n" ∧ o.file = some (Path.ofText "Dockerfile") ∧
      t.read (Path.ofText "Dockerfile") = .ok (Text.Utf8.encode text) ∧
      execute (check o.onInput text) t = (.ok checked, t) ∧
      execute (check o []) t = (.ok checked', t) ∧
      besidesSearch checked.run.report = besidesSearch checked'.run.report := by
  let text : Text := "FROM a:1\r\nTRY x\rUSER root\n"
  let o : LintOptions := { LintOptions.usual with workers := some 1 }
  let table : Text := "[rules]\nenable = [\"non-root-user\", \"dockerignore-present\"]\n"
  let t : FileTree :=
    { nodes := .ofList
        [(["Dockerfile"], .file (Text.Utf8.encode text)),
          ([".docklint.toml"], .file (Text.Utf8.encode table))] }
  let s : Selection := { enable := some ["non-root-user", "dockerignore-present"] }
  have htext : text = "FROM a:1\r\nTRY x\rUSER root\n" := rfl
  have hfile : o.file = some (Path.ofText "Dockerfile") := by decide +kernel
  have hread : t.read (Path.ofText "Dockerfile") = .ok (Text.Utf8.encode text) := by decide +kernel
  have hoptions : o.deadline = none := rfl
  have hprepared : ((execute (prepare o) t).1.toOption.map fun prepared =>
      (prepared.1.selection, prepared.1.deadline.isNone)) = some (s, true) := by decide +kernel
  have hparsed : (Dockerfile.parse text).toOption.map (fun _ => ()) = some () := by decide +kernel
  have hrules : ∀ options, ∃ rules, s.rules options = .ok rules := by
    have hknown : s.unknown.isEmpty = true := by decide +kernel
    intro options
    rw [Selection.rules, if_pos hknown]
    exact ⟨_, rfl⟩
  -- The values are known well enough; to look into them again would run the program.
  clear_value o t s text
  obtain ⟨⟨c, format⟩, hprepare, hconfig⟩ := exists_of_toOption_eq hprepared
  obtain ⟨d, hparse, -⟩ := exists_of_toOption_eq hparsed
  obtain ⟨hselection, hdeadline⟩ := Prod.mk.inj hconfig
  obtain ⟨rules, hmade⟩ := hrules (c.ruleOptions {})
  have hlimit : o.deadlineFor c = none := by
    rw [LintOptions.deadlineFor, hoptions, Option.none_or]
    exact Option.isNone_iff_eq_none.mp hdeadline
  have hboth := lint_input_like_file hfile hread []
  simp only [hprepare, hparse, hselection, hmade] at hboth
  obtain ⟨run, run', hrun, hrun', hsame⟩ := hboth hlimit
  exact ⟨o, t, text, _, _, htext, hfile, hread, hrun, hrun', hsame⟩

/-- An array with a number that is too long ends both checks with code 1, and with no line about a
fault of the Dockerfile. -/
theorem long_number_not_reported :
    ∃ (o : LintOptions) (t : FileTree) (text : Text) (outcome : Outcome),
      text = ("FROM a\n" : Text) ++ (Dockerfile.longStep "x" ++ ['\n']) ∧
      o.file = some (Path.ofText "Dockerfile") ∧
      t.read (Path.ofText "Dockerfile") = .ok (Text.Utf8.encode text) ∧
      execute (lint o.onInput text) t = (.error outcome, t) ∧
      execute (lint o []) t = (.error outcome, t) ∧
      outcome.exit = 1 ∧ outcome.stderr = [] := by
  let text : Text := ("FROM a\n" : Text) ++ (Dockerfile.longStep "x" ++ ['\n'])
  let o : LintOptions := .usual
  let t : FileTree := { nodes := .ofList [(["Dockerfile"], .file (Text.Utf8.encode text))] }
  have hfile : o.file = some (Path.ofText "Dockerfile") := by decide +kernel
  have hholder (octets : Text.Octets) :
      ({ nodes := .ofList [(["Dockerfile"], .file octets)] } : FileTree).read
        (Path.ofText "Dockerfile") = .ok octets := rfl
  have hread : t.read (Path.ofText "Dockerfile") = .ok (Text.Utf8.encode text) := hholder _
  have hprepared : ((execute (prepare o) t).1.toOption.map fun _ => ()) = some () := by
    decide +kernel
  have hparse : Dockerfile.parse text = .error ⟨2, .tooManyDigits 4301⟩ :=
    Dockerfile.parse_longStep (by decide) []
  have hwithout : o.stdin = false := rfl
  have htext : text = ("FROM a\n" : Text) ++ (Dockerfile.longStep "x" ++ ['\n']) := rfl
  clear_value o t text
  obtain ⟨⟨c, format⟩, hgoes, -⟩ := exists_of_toOption_eq hprepared
  have hsame : (execute (prepare o) t).2 = t :=
    ((settles_prepare o).of_ok (Prod.ext hgoes rfl)).2
  have hprepare : execute (prepare o) t = (.ok (c, format), t) := Prod.ext hgoes hsame
  have hinput := execute_check_of_stopped (readsText_onInput o t text)
    (prepare_onInput hwithout ▸ hprepare) hparse
  have hholds := execute_check_of_stopped (readsText_of_file hfile hread []) hprepare hparse
  exact ⟨o, t, text, _, htext, hfile, hread, execute_bind_of_error hinput _,
    execute_bind_of_error hholds _, rfl, rfl⟩

end Checking

end Drydock.Cli
