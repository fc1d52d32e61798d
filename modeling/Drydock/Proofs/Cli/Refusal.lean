/-
  How commands stop early. Nothing is printed to the output by a check that stops
  (`stopsSilently_check`). A configuration that cannot be loaded is refused as a parameter is, but
  for a file that cannot be read, and but for an integer that no float is near
  (`load_error_refused`).
-/
import Drydock.Proofs.Cli.Step
import Drydock.Proofs.Config.Rejection

namespace Drydock.Cli

/-! ## Nothing printed -/

/-- Where a step stops, nothing has been printed to the output. -/
def StopsSilently {α : Type} (s : Step (StateM FileTree) α) : Prop :=
  ∀ t outcome t', execute s t = (.error outcome, t') → outcome.stdout = []

namespace StopsSilently

variable {α β : Type}

theorem pure (a : α) : StopsSilently (Pure.pure a) := by
  intro t outcome t' h
  exact absurd (Prod.mk.inj h).1 (by simp)

theorem throw {outcome : Outcome} (h : outcome.stdout = []) :
    StopsSilently (MonadExcept.throw outcome : Step (StateM FileTree) α) := by
  intro t found t' hstop
  obtain rfl := Except.error.inj (Prod.mk.inj hstop).1
  exact h

theorem lift (x : StateM FileTree α) : StopsSilently (liftM x) := by
  intro t outcome t' h
  rw [execute_lift] at h
  exact absurd (Prod.mk.inj h).1 (by simp)

theorem bind {s : Step (StateM FileTree) α} {f : α → Step (StateM FileTree) β}
    (hs : StopsSilently s) (hf : ∀ a, StopsSilently (f a)) : StopsSilently (s >>= f) := by
  intro t outcome t' h
  rw [execute_bind] at h
  split at h
  · next a between hgo => exact hf a between outcome t' h
  · next found between hstop =>
    obtain ⟨hsame, rfl⟩ := Prod.mk.inj h
    obtain rfl := Except.error.inj hsame
    exact hs t found between hstop

end StopsSilently

section Silent

theorem stopsSilently_refuse {α : Type} (hint : Option Text) (reason : Text) :
    StopsSilently (refuse hint reason : Step (StateM FileTree) α) := StopsSilently.throw rfl

theorem stopsSilently_refuseIf (refused : Bool) (hint : Option Text) (reason : Text) :
    StopsSilently (refuseIf refused hint reason) := by
  unfold refuseIf
  cases refused with
  | true => exact stopsSilently_refuse hint reason
  | false => exact StopsSilently.pure ()

theorem stopsSilently_stop {α : Type} (message : Text) :
    StopsSilently (stop message : Step (StateM FileTree) α) :=
  (StopsSilently.lift _).bind fun _ => StopsSilently.throw rfl

theorem stopsSilently_loadConfig (root : Path) (named : Option Path) :
    StopsSilently (loadConfig root named) := by
  refine (StopsSilently.lift _).bind fun loaded => ?_
  cases loaded with
  | ok c => exact StopsSilently.pure c
  | error e => exact StopsSilently.throw rfl

theorem stopsSilently_readFormat (name : Text) : StopsSilently (readFormat name) := by
  unfold readFormat
  split
  · exact StopsSilently.pure _
  · exact stopsSilently_refuse _ _

theorem stopsSilently_checkLint (o : LintOptions) : StopsSilently (checkLint o) :=
  (stopsSilently_refuseIf _ _ _).bind fun _ =>
    (stopsSilently_refuseIf _ _ _).bind fun _ => stopsSilently_refuseIf _ _ _

theorem stopsSilently_prepare (o : LintOptions) : StopsSilently (prepare o) :=
  (stopsSilently_loadConfig _ _).bind fun _ =>
    (stopsSilently_readFormat _).bind fun _ =>
      (stopsSilently_checkLint o).bind fun _ => StopsSilently.pure _

theorem stopsSilently_parsed (source : Text) (result : Except ParseError Dockerfile) :
    StopsSilently (parsed source result) := by
  cases result with
  | ok d => exact StopsSilently.pure d
  | error e =>
    unfold parsed
    dsimp only
    split
    · exact stopsSilently_stop _
    · exact StopsSilently.throw rfl

theorem stopsSilently_readDockerfile (stdin : Text) (file : Option Path) :
    StopsSilently (readDockerfile stdin file) := by
  cases file with
  | none => exact stopsSilently_parsed _ _
  | some p =>
    refine (StopsSilently.lift _).bind fun octets => ?_
    cases octets with
    | ok octets => exact stopsSilently_parsed _ _
    | error e => exact stopsSilently_stop _

theorem stopsSilently_selectRules (c : Config) (search : Rule.IgnoreSearch) :
    StopsSilently (selectRules c search) := by
  unfold selectRules
  split
  · exact StopsSilently.pure _
  · exact stopsSilently_refuse _ _

theorem stopsSilently_runRules (rules : List Rule) (workers : Option Int)
    (deadline : Option Float) (source : Text) (d : Dockerfile) :
    StopsSilently (runRules rules workers deadline source d) := by
  unfold runRules
  dsimp only
  split
  · exact StopsSilently.throw rfl
  · refine (StopsSilently.lift _).bind fun finished => ?_
    refine (StopsSilently.lift _).bind fun result => ?_
    cases result with
    | ok run => exact StopsSilently.pure run
    | error e => exact StopsSilently.throw rfl

/-- A check that stops has printed nothing to the output. -/
theorem stopsSilently_check (o : LintOptions) (stdin : Text) : StopsSilently (check o stdin) := by
  refine (stopsSilently_prepare o).bind fun prepared => ?_
  refine (stopsSilently_readDockerfile stdin o.file).bind fun d => ?_
  refine (StopsSilently.lift _).bind fun search => ?_
  refine (stopsSilently_selectRules _ search).bind fun rules => ?_
  exact (stopsSilently_runRules rules _ _ _ d).bind fun run => StopsSilently.pure _

theorem stopsSilently_say (text : Text) :
    StopsSilently (say text : Step (StateM FileTree) Outcome) :=
  (StopsSilently.lift _).bind fun _ => StopsSilently.pure _

theorem stopsSilently_present (text : OutputFormat → Config → List Text → Except Failure Text)
    (o : ShowOptions) : StopsSilently (present text o) := by
  refine (stopsSilently_readFormat o.format).bind fun format => ?_
  refine (stopsSilently_loadConfig o.root o.config).bind fun c => ?_
  refine (stopsSilently_selectRules c {}).bind fun rules => ?_
  split
  · exact stopsSilently_say _
  · exact StopsSilently.throw rfl

end Silent

/-! ## Configurations that cannot be loaded -/

section Loading

/-- How a command ends on an error of loading. It is refused as a parameter, but for a file that
cannot be read, and but for an integer that no float is near. -/
def EndsOn (e : LoadError) (outcome : Outcome) : Prop :=
  match e with
  | .unreadable f => outcome.exit = 1 ∧ outcome.failure = some (.file f)
  | .badEntry .beyondFloats =>
    outcome.exit = 1 ∧ outcome.failure = some (.beyondFloats "int too large to convert to float")
  | e => outcome.exit = 2 ∧
    outcome.failure = some (.refused (.badParameter ⟨some "config", e.message⟩))

theorem endsOn_loadFailure (e : LoadError) : EndsOn e (.failed [] (loadFailure e)) := by
  cases e with
  | badEntry entry => cases entry <;> exact ⟨rfl, rfl⟩
  | _ => exact ⟨rfl, rfl⟩

theorem execute_loadConfig (root : Path) (named : Option Path) (t : FileTree) :
    execute (loadConfig root named) t =
      match ((Config.load root named : StateM FileTree _) t).1 with
      | .ok c => (.ok c, t)
      | .error e => (.error (.failed [] (loadFailure e)), t) := by
  have hload := execute_lift_of_eq ((Config.finds_load root named).eq t)
  rw [loadConfig, execute_bind_of_ok hload]
  cases ((Config.load root named : StateM FileTree _) t).1 <;> rfl

/--
A table is rejected for an integer beyond the floats just if one is met in it. A configuration that
cannot be loaded stops a command before it prints or writes anything, for something that is wrong
with a file, and as an error of the kind that this is; else the command goes on with it.
-/
theorem load_error_refused (root : Path) (named : Option Path) (t : FileTree) :
    (∀ table source, Config.ofTable table source = .error .beyondFloats ↔
      Config.MeetsBeyondFloats table) ∧
    match ((Config.load root named : StateM FileTree _) t).1 with
    | .ok c => execute (loadConfig root named) t = (.ok c, t)
    | .error e => Config.ComesFrom t e ∧ ∃ outcome,
      execute (loadConfig root named) t = (.error outcome, t) ∧
        outcome.stdout = [] ∧ outcome.stderr = [] ∧ EndsOn e outcome := by
  have hexecute := execute_loadConfig root named t
  have hcomes := Config.errsBy_load root named t
  refine ⟨fun _ _ => Config.ofTable_eq_beyondFloats_iff, ?_⟩
  cases hload : ((Config.load root named : StateM FileTree _) t).1 with
  | ok c => rwa [hload] at hexecute
  | error e =>
    rw [hload] at hexecute
    exact ⟨hcomes e hload, _, hexecute, rfl, rfl, endsOn_loadFailure e⟩

/-- A threshold of more than three hundred digits is rejected, but not refused as a parameter. -/
theorem great_threshold_not_refused :
    ∃ (n : Int) (t : FileTree) (outcome : Outcome), n = 10 ^ 309 ∧
      Config.ofTable [("documentation_threshold", .integer n)] (some ".docklint.toml") =
        .error .beyondFloats ∧
      t.read (Path.ofText ".docklint.toml") =
        .ok (Text.Utf8.encode (("documentation_threshold = " : Text) ++ Text.ofInt n)) ∧
      execute (loadConfig (Path.ofText ".") none) t = (.error outcome, t) ∧
      outcome.exit = 1 ∧ ∀ error, outcome.failure ≠ some (.refused error) := by
  let document : Text := ("documentation_threshold = " : Text) ++ Text.ofInt (10 ^ 309)
  let t : FileTree :=
    { nodes := .ofList [([".docklint.toml"], .file (Text.Utf8.encode document))] }
  have htable : Config.MeetsBeyondFloats [("documentation_threshold", .integer (10 ^ 309))] := by
    have hbeyond : Number.leastBeyond ≤ ((10 : Int) ^ 309).natAbs := by decide +kernel
    have hrules : Config.given? [("documentation_threshold", .integer (10 ^ 309))] "rules" = none :=
      rfl
    refine ⟨fun v h => ?_, Or.inl ⟨_, rfl, hbeyond⟩⟩
    exact absurd (hrules.symm.trans h) (by simp)
  have hread : t.read (Path.ofText ".docklint.toml") = .ok (Text.Utf8.encode document) := by
    decide +kernel
  have hload : ((Config.load (Path.ofText ".") none : StateM FileTree _) t).1.map (fun _ => ()) =
      .error (.badEntry .beyondFloats) := by
    decide +kernel
  refine ⟨_, t, .failed [] (loadFailure (.badEntry .beyondFloats)), rfl,
    Config.ofTable_eq_beyondFloats_iff.mpr htable, hread, ?_, rfl, ?_⟩
  · rw [execute_loadConfig, eq_error_of_map hload]
  · intro error
    exact fun h => nomatch h

end Loading

end Drydock.Cli
