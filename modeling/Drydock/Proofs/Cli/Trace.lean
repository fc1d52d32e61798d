/-
  What commands leave behind in the tree. A command that is rejected prints nothing to the output
  and leaves the tree as it is, as those do that only show something; and a command that writes a
  file changes nothing else but for directories on the way there (`rejected_without_trace`).
-/
import Drydock.Proofs.Cli.Output
import Drydock.Proofs.Cli.Refusal
import Drydock.Proofs.Files.Change

namespace Drydock.Cli

open FileTree (ChangesOnly)

variable {t t' : FileTree} {outcome : Outcome}

/-! ## Rejections -/

/-- A line says that a Dockerfile cannot be read, or that it cannot be parsed. -/
def TellsOfFault (line : Text) : Prop :=
  ∃ (terminal : Bool) (source message : Text), line = Outcome.line terminal message ∧
    ((∃ e, message = unreadableMessage source e) ∨ ∃ e, message = unparsedMessage source e)

/-- A command line or a parameter was refused, or a Dockerfile could not be read or parsed. -/
def IsRejected (outcome : Outcome) : Prop :=
  (∃ e, outcome.failure = some (.refused e)) ∨ TellsOfFault outcome.stderr

section Rejected

/-- A line of the two begins with the word for an error. -/
theorem head?_of_tellsOfFault {line : Text} (h : TellsOfFault line) : line.head? = some 'e' := by
  obtain ⟨terminal, source, message, rfl, hmessage⟩ := h
  obtain ⟨rest, rfl⟩ : ∃ rest, message = 'e' :: rest := by
    rcases hmessage with ⟨e, rfl⟩ | ⟨e, rfl⟩
    · exact ⟨_, rfl⟩
    · exact ⟨_, rfl⟩
  unfold Outcome.line
  cases terminal with
  | true => rfl
  | false =>
    rw [if_neg (by simp), Text.plain_cons (by decide)]
    rfl

theorem not_isRejected (hfailure : ∀ e, outcome.failure ≠ some (.refused e))
    (hstderr : outcome.stderr.head? ≠ some 'e') : ¬IsRejected outcome := by
  rintro (⟨e, he⟩ | hfault)
  · exact hfailure e he
  · exact hstderr (head?_of_tellsOfFault hfault)

/-- The notes of a run begin with the word for a warning. -/
theorem head?_logText (log : List LogEntry) : (logText log).head? ≠ some 'e' := by
  cases log with
  | nil => simp [logText]
  | cons entry log =>
    have hfirst : (logText (entry :: log)).head? = some 'W' := rfl
    rw [hfirst]
    decide

end Rejected

/-- If a command was rejected, nothing was printed to the output and the tree is as it was. -/
def IsTraceless (t : FileTree) (left : Outcome × FileTree) : Prop :=
  IsRejected left.1 → left.2 = t ∧ left.1.stdout = []

theorem isTraceless_of_silent (h : outcome.stdout = []) : IsTraceless t (outcome, t) :=
  fun _ => ⟨rfl, h⟩

theorem isTraceless_of_not_rejected (h : ¬IsRejected outcome) : IsTraceless t (outcome, t') :=
  fun hrejected => absurd hrejected h

/-! ## Steps -/

theorem finish_of_ok {s : Step (StateM FileTree) Outcome}
    (h : execute s t = (.ok outcome, t')) : (finish s : StateM FileTree _) t = (outcome, t') := by
  have hrun : (s.run : StateM FileTree _) t = (.ok outcome, t') := h
  rw [finish, FileTree.bind_of_eq hrun]
  rfl

theorem finish_of_error {s : Step (StateM FileTree) Outcome}
    (h : execute s t = (.error outcome, t')) :
    (finish s : StateM FileTree _) t = (outcome, t') := by
  have hrun : (s.run : StateM FileTree _) t = (.error outcome, t') := h
  rw [finish, FileTree.bind_of_eq hrun]
  rfl

/-- What is said in the end. -/
def said (t : FileTree) (text : Text) : Outcome :=
  { stdout := Outcome.line (t.terminals.contains .output) text }

theorem execute_say (text : Text) (t : FileTree) :
    execute (say text : Step (StateM FileTree) Outcome) t = (.ok (said t text), t) := rfl

theorem not_isRejected_said (t : FileTree) (text : Text) : ¬IsRejected (said t text) :=
  not_isRejected (fun _ => nofun) nofun

theorem settles_say (text : Text) :
    Settles (fun outcome => ¬IsRejected outcome) (say text : Step (StateM FileTree) Outcome) :=
  fun t => Or.inr ⟨said t text, not_isRejected_said t text, execute_say text t⟩

/-- A step that only looks, stops silently and does not end with a rejection leaves no trace. -/
theorem finish_of_settles {s : Step (StateM FileTree) Outcome}
    (hs : Settles (fun outcome => ¬IsRejected outcome) s) (hsilent : StopsSilently s)
    (t : FileTree) :
    IsTraceless t ((finish s : StateM FileTree _) t) ∧
      ((finish s : StateM FileTree _) t).2 = t := by
  rcases hs t with ⟨outcome, hstop⟩ | ⟨outcome, haccepted, hgo⟩
  · rw [finish_of_error hstop]
    exact ⟨isTraceless_of_silent (hsilent t outcome t hstop), rfl⟩
  · rw [finish_of_ok hgo]
    exact ⟨isTraceless_of_not_rejected haccepted, rfl⟩

theorem settles_present (text : OutputFormat → Config → List Text → Except Failure Text)
    (o : ShowOptions) : Settles (fun outcome => ¬IsRejected outcome) (present text o) := by
  refine (settles_readFormat o.format).bind fun format _ => ?_
  refine (settles_loadConfig o.root o.config).bind fun c _ => ?_
  refine (settles_selectRules c {}).bind fun rules _ => ?_
  split
  · exact settles_say _
  · exact Settles.throw _

/-! ## Writing -/

theorem changesOnly_writeInto (p : Path) (content : Text) (t : FileTree) :
    ChangesOnly p t ((writeInto p content : StateM FileTree _) t).2 := by
  have hway := FileTree.onlyMakesWay_makeDirectories p.parent t
  rcases hmade : (Host.makeDirectories p.parent : StateM FileTree _) t with ⟨made, between⟩
  rw [hmade] at hway
  rw [writeInto, FileTree.bind_of_eq hmade]
  cases made with
  | error e => exact hway.changesOnly
  | ok _ =>
    show ChangesOnly p t (FileTree.change (fun t => t.write p _) between).2
    unfold FileTree.change
    split
    · next hwrite => exact hway.changesOnly_write hwrite
    · exact hway.changesOnly

/-- The trees differ at most by what a path leads to, if there is one. -/
def ChangesAtMost (p? : Option Path) (t t' : FileTree) : Prop :=
  match p? with
  | none => t' = t
  | some p => ChangesOnly p t t'

theorem ChangesAtMost.refl (p? : Option Path) (t : FileTree) : ChangesAtMost p? t t := by
  cases p? with
  | none => exact rfl
  | some p => exact ChangesOnly.refl p t

/-- To write a document changes nothing but where it is written to. -/
theorem changesAtMost_writeOutput (output : Option Path) (report : Report) (printed : Outcome)
    (t : FileTree) :
    ChangesAtMost output t ((writeOutput output report printed : StateM FileTree _) t).2 := by
  cases output with
  | none => exact rfl
  | some p =>
    have hinto := changesOnly_writeInto p report.renderJson t
    rcases hwritten : (writeInto p report.renderJson : StateM FileTree _) t with ⟨result, between⟩
    rw [hwritten] at hinto
    rw [writeOutput, FileTree.bind_of_eq hwritten]
    cases result <;> exact hinto

/-- Whether a document can be written or not, that is no rejection. -/
theorem not_isRejected_writeOutput (output : Option Path) (report : Report) {printed : Outcome}
    (hprinted : printed.failure = none) (hstderr : printed.stderr.head? ≠ some 'e')
    (t : FileTree) :
    ¬IsRejected ((writeOutput output report printed : StateM FileTree _) t).1 := by
  have haccepted : ¬IsRejected printed :=
    not_isRejected (fun e => by rw [hprinted]; simp) hstderr
  cases output with
  | none => exact haccepted
  | some p =>
    rcases hwritten : (writeInto p report.renderJson : StateM FileTree _) t with ⟨result, between⟩
    rw [writeOutput, FileTree.bind_of_eq hwritten]
    cases result with
    | error e => exact not_isRejected (fun e => nofun) hstderr
    | ok _ => exact haccepted

/-! ## Checking -/

/-- A check that stops leaves no trace. -/
theorem finish_lint_of_error {o : LintOptions} {stdin : Text}
    (h : (execute (check o stdin) t).1 = .error outcome) :
    (finish (lint o stdin) : StateM FileTree _) t = (outcome, t) ∧ outcome.stdout = [] := by
  rcases settles_check o stdin t with ⟨found, hstop⟩ | ⟨k, -, hgo⟩
  · rw [hstop] at h
    obtain rfl := Except.error.inj h
    have hlint : execute (lint o stdin) t = (.error found, t) := execute_bind_of_error hstop _
    exact ⟨finish_of_error hlint, stopsSilently_check o stdin t found t hstop⟩
  · rw [hgo] at h
    exact absurd h (by simp)

/-- A check that does not stop ends with what is delivered. -/
theorem finish_lint_of_ok {o : LintOptions} {stdin : Text} {k : Checked}
    (h : (execute (check o stdin) t).1 = .ok k) :
    (finish (lint o stdin) : StateM FileTree _) t = (deliver o k : StateM FileTree _) t := by
  obtain ⟨-, hsame⟩ := (settles_check o stdin).of_ok (Prod.ext h rfl)
  have hcheck : execute (check o stdin) t = (.ok k, t) := Prod.ext h hsame
  have hlint : execute (lint o stdin) t =
      (.ok ((deliver o k : StateM FileTree _) t).1, ((deliver o k : StateM FileTree _) t).2) :=
    (execute_bind_of_ok hcheck _).trans (execute_lift _ t)
  exact finish_of_ok hlint

theorem finish_lint (o : LintOptions) (stdin : Text) (t : FileTree) :
    IsTraceless t ((finish (lint o stdin) : StateM FileTree _) t) ∧
      ChangesAtMost o.output t ((finish (lint o stdin) : StateM FileTree _) t).2 := by
  cases hcheck : (execute (check o stdin) t).1 with
  | error outcome =>
    obtain ⟨hlint, hsilent⟩ := finish_lint_of_error hcheck
    rw [hlint]
    exact ⟨isTraceless_of_silent hsilent, ChangesAtMost.refl _ t⟩
  | ok k =>
    have haccepted : ¬IsRejected ((deliver o k : StateM FileTree _) t).1 :=
      not_isRejected_writeOutput _ _ rfl (head?_logText _) t
    rw [finish_lint_of_ok hcheck]
    exact ⟨isTraceless_of_not_rejected haccepted, changesAtMost_writeOutput _ _ _ t⟩

/-! ## Starting a configuration file -/

/-- The path of the file that is started. -/
def InitOptions.target (o : InitOptions) (t : FileTree) : Path := o.out.resolve ⟨.root, t.directory⟩

/-- The refusal to write over a file. -/
def overwriteRefusal (target : Path) : Failure :=
  .refused (.badParameter ⟨none, Text.concat
    ["Refusing to overwrite existing file: ", target.text, ". Use --force to overwrite."]⟩)

/-- What is there already is not written over, unless that is forced. -/
theorem execute_configInit (o : InitOptions) (t : FileTree) :
    execute (configInit o) t =
      if (t.find (o.target t)).toOption.isSome && !o.force then
        (.error (.failed [] (overwriteRefusal (o.target t))), t)
      else
        match (writeInto (o.target t) Config.template : StateM FileTree _) t with
        | (.error e, t') => (.error (.failed [] (.file e)), t')
        | (.ok (), t') => (.ok (said t' ("Wrote starter config: " ++ (o.target t).text)), t') := by
  have hdirectory : (Host.directory : StateM FileTree Path) t = (⟨.root, t.directory⟩, t) := rfl
  have htarget : o.out.resolve ⟨.root, t.directory⟩ = o.target t := rfl
  have hexists : (Host.pathExists (o.target t) : StateM FileTree Bool) t =
      ((t.find (o.target t)).toOption.isSome, t) := by
    rw [← Option.isSome_map]
    rfl
  unfold configInit
  rw [execute_bind_of_ok (execute_lift_of_eq hdirectory)]
  dsimp only
  rw [htarget, execute_bind_of_ok (execute_lift_of_eq hexists)]
  split
  · exact execute_bind_of_error rfl _
  · rcases hwritten : (writeInto (o.target t) Config.template : StateM FileTree _) t with
      ⟨result, t'⟩
    rw [execute_bind_of_ok (execute_lift_of_eq hwritten)]
    cases result <;> rfl

section Init

variable {o : InitOptions} {found : List Text × FileNode}

theorem finish_configInit_of_exists (hforce : o.force = false)
    (hfound : t.find (o.target t) = .ok found) :
    (finish (configInit o) : StateM FileTree _) t =
      (.failed [] (overwriteRefusal (o.target t)), t) := by
  have hinit := execute_configInit o t
  rw [hfound, hforce] at hinit
  exact finish_of_error hinit

/-- A file that is started is all that changes. -/
theorem finish_configInit (o : InitOptions) (t : FileTree) :
    IsTraceless t ((finish (configInit o) : StateM FileTree _) t) ∧
      ChangesOnly (o.target t) t ((finish (configInit o) : StateM FileTree _) t).2 := by
  have hinit := execute_configInit o t
  split at hinit
  · rw [finish_of_error hinit]
    exact ⟨isTraceless_of_silent rfl, ChangesOnly.refl _ t⟩
  · have hchanges := changesOnly_writeInto (o.target t) Config.template t
    rcases hwritten : (writeInto (o.target t) Config.template : StateM FileTree _) t with
      ⟨result, t'⟩
    rw [hwritten] at hinit hchanges
    cases result with
    | error e =>
      rw [finish_of_error hinit]
      exact ⟨isTraceless_of_not_rejected (not_isRejected (fun _ => nofun) nofun), hchanges⟩
    | ok _ =>
      rw [finish_of_ok hinit]
      exact ⟨isTraceless_of_not_rejected (not_isRejected_said t' _), hchanges⟩

end Init

/-! ## All commands -/

/-- A command line that is read is run. -/
theorem run_of_read {arguments : List Text} {command : Command}
    (h : Command.read arguments = .ok command) (stdin : Text) :
    (run arguments stdin : StateM FileTree Outcome) = finish (runCommand stdin command) := by
  rw [run, h]

/--
A run that ends with a rejection leaves the tree as it was and prints nothing to the output. So does
every check that stops, whatever it stops at, and the start of a configuration file where there is
something already, unless that is forced. All that a check ever changes is where its document is
written to, if it is, and all that the start of a configuration file does is that file; and no other
command line changes anything.
-/
theorem rejected_without_trace (arguments : List Text) (stdin : Text) (t : FileTree) :
    let left := (run arguments stdin : StateM FileTree Outcome) t
    (IsRejected left.1 → left.2 = t ∧ left.1.stdout = []) ∧
      match Command.read arguments with
      | .ok (.lint o) =>
        (∀ outcome, (execute (check o stdin) t).1 = .error outcome →
          left = (outcome, t) ∧ outcome.stdout = []) ∧
        ChangesAtMost o.output t left.2
      | .ok (.configInit o) =>
        (o.force = false → (∃ found, t.find (o.target t) = .ok found) →
          left = (.failed [] (overwriteRefusal (o.target t)), t)) ∧
        ChangesOnly (o.target t) t left.2
      | _ => left.2 = t := by
  intro left
  have hstays {s : Step (StateM FileTree) Outcome} (h : left = (finish s : StateM FileTree _) t)
      (hs : Settles (fun outcome => ¬IsRejected outcome) s) (hsilent : StopsSilently s) :
      IsTraceless t left ∧ left.2 = t := h ▸ finish_of_settles hs hsilent t
  cases hread : Command.read arguments with
  | error e =>
    have hleft : left = (.failed [] (.refused e), t) := by
      show (run arguments stdin : StateM FileTree Outcome) t = _
      rw [run, hread]
      rfl
    rw [hleft]
    exact ⟨isTraceless_of_silent rfl, rfl⟩
  | ok command =>
    have hleft : left = (finish (runCommand stdin command) : StateM FileTree _) t :=
      congrFun (run_of_read hread stdin) t
    cases command with
    | lint o =>
      obtain ⟨htrace, hchanges⟩ := finish_lint o stdin t
      rw [hleft]
      exact ⟨htrace, fun outcome h => finish_lint_of_error h, hchanges⟩
    | configInit o =>
      obtain ⟨htrace, hchanges⟩ := finish_configInit o t
      rw [hleft]
      refine ⟨htrace, fun hforce hthere => ?_, hchanges⟩
      obtain ⟨found, hfound⟩ := hthere
      exact finish_configInit_of_exists hforce hfound
    | version => exact hstays hleft (settles_say version) (stopsSilently_say version)
    | rules o => exact hstays hleft (settles_present _ o) (stopsSilently_present _ o)
    | config o => exact hstays hleft (settles_present _ o) (stopsSilently_present _ o)
    | configValidate o => exact hstays hleft (settles_present _ o) (stopsSilently_present _ o)

/-- A Dockerfile that cannot be parsed, and a configuration file that is there already. -/
theorem rejected_without_trace_of_broken_dockerfile :
    ∃ (t : FileTree) (o : LintOptions) (i : InitOptions) (outcome : Outcome),
      o.output = some (Path.ofText "out/report.json") ∧
      (execute (check o []) t).1 = .error outcome ∧ IsRejected outcome ∧ outcome.stdout = [] ∧
      (run ["lint", "--output", "out/report.json"] [] : StateM FileTree _) t = (outcome, t) ∧
      i.force = false ∧ (∃ found, t.find (i.target t) = .ok found) ∧
      (run ["config-init"] [] : StateM FileTree _) t =
        (.failed [] (overwriteRefusal (i.target t)), t) := by
  let t : FileTree :=
    { nodes := .ofList
        [(["Dockerfile"], .file (Text.Utf8.encode "FROM\n")), ([".docklint.toml"], .file [])] }
  obtain ⟨o, hlint, houtput, hstops⟩ : ∃ o,
      Command.read ["lint", "--output", "out/report.json"] = .ok (.lint o) ∧
      o.output = some (Path.ofText "out/report.json") ∧
      (execute (check o []) t).1.toOption.isNone = true := by
    refine ⟨_, rfl, ?_, ?_⟩ <;> decide +kernel
  obtain ⟨i, hinit, hforce, hthere⟩ : ∃ i, Command.read ["config-init"] = .ok (.configInit i) ∧
      i.force = false ∧ t.find (i.target t) = .ok ([".docklint.toml"], .file []) := by
    refine ⟨_, rfl, rfl, ?_⟩
    decide +kernel
  have htold : ((run ["lint", "--output", "out/report.json"] [] : StateM FileTree _) t).1.stderr =
      Outcome.line false (unparsedMessage "Dockerfile" ⟨1, .missingBaseImage⟩) := by
    decide +kernel
  clear_value t
  have hchecked := rejected_without_trace ["lint", "--output", "out/report.json"] [] t
  have hstarted := rejected_without_trace ["config-init"] [] t
  rw [hlint] at hchecked
  rw [hinit] at hstarted
  obtain ⟨outcome, hstop⟩ : ∃ outcome, (execute (check o []) t).1 = .error outcome := by
    cases hcheck : (execute (check o []) t).1 with
    | error outcome => exact ⟨outcome, rfl⟩
    | ok k =>
      rw [hcheck] at hstops
      exact absurd hstops (by simp [Except.toOption])
  obtain ⟨hleft, hsilent⟩ := hchecked.2.1 outcome hstop
  have hrejected : IsRejected outcome := by
    rw [hleft] at htold
    exact Or.inr ⟨false, _, _, htold, Or.inr ⟨_, rfl⟩⟩
  exact ⟨t, o, i, outcome, houtput, hstop, hrejected, hsilent, hleft, hforce, ⟨_, hthere⟩,
    hstarted.2.1 hforce ⟨_, hthere⟩⟩

end Drydock.Cli
