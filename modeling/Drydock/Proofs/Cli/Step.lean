/-
  Commands on a tree of files. A step goes on with the tree that the one before it has left, unless
  that one stops (`execute_bind`). All that comes before a report only looks at files, from the
  configuration (`settles_prepare`) to the run of the rules (`settles_check`).
-/
import Drydock.Cli.Run
import Drydock.Proofs.Config.Load
import Drydock.Proofs.Engine.Findings

namespace Drydock.Cli

open FileTree (Finds OnlyLooks)

/-- What a step comes to on a tree, and the tree behind it. -/
def execute {α : Type} (s : Step (StateM FileTree) α) (t : FileTree) :
    Except Outcome α × FileTree :=
  s.run t

/-- The options of a check that is asked for nothing in particular. -/
def LintOptions.usual : LintOptions where
  dockerfile := none
  stdin := false
  format := none
  strict := none
  output := none
  context := none
  ignoreFile := none
  deadline := none
  workers := none
  root := Path.ofText "."
  config := none

/-! ## Steps -/

section Execute

variable {α β : Type}

theorem execute_lift (x : StateM FileTree α) (t : FileTree) :
    execute (liftM x) t = (.ok (x t).1, (x t).2) := rfl

theorem execute_lift_of_eq {x : StateM FileTree α} {t t' : FileTree} {a : α}
    (h : x t = (a, t')) : execute (liftM x) t = (.ok a, t') := by
  rw [execute_lift, h]

/-- A step goes on with the tree that the one before it has left, unless that one stops. -/
theorem execute_bind (s : Step (StateM FileTree) α) (f : α → Step (StateM FileTree) β)
    (t : FileTree) : execute (s >>= f) t =
      match execute s t with
      | (.ok a, t') => execute (f a) t'
      | (.error outcome, t') => (.error outcome, t') := by
  unfold execute
  rw [run_bind]
  rcases s.run t with ⟨_ | _, t'⟩ <;> rfl

theorem execute_bind_of_ok {s : Step (StateM FileTree) α} {t t' : FileTree} {a : α}
    (h : execute s t = (.ok a, t')) (f : α → Step (StateM FileTree) β) :
    execute (s >>= f) t = execute (f a) t' := by
  rw [execute_bind, h]

theorem execute_bind_of_error {s : Step (StateM FileTree) α} {t t' : FileTree} {outcome : Outcome}
    (h : execute s t = (.error outcome, t')) (f : α → Step (StateM FileTree) β) :
    execute (s >>= f) t = (.error outcome, t') := by
  rw [execute_bind, h]

theorem exists_of_execute_bind {s : Step (StateM FileTree) α}
    {f : α → Step (StateM FileTree) β} {t t' : FileTree} {b : β}
    (h : execute (s >>= f) t = (.ok b, t')) :
    ∃ a between, execute s t = (.ok a, between) ∧ execute (f a) between = (.ok b, t') := by
  rw [execute_bind] at h
  split at h
  · next a between hs => exact ⟨a, between, hs, h⟩
  · exact absurd (Prod.mk.inj h).1 (by simp)

end Execute

/-! ## Steps that only look -/

/-- A step leaves the tree as it is, and goes on only with what has a property. -/
def Settles {α : Type} (P : α → Prop) (s : Step (StateM FileTree) α) : Prop :=
  ∀ t, (∃ outcome, execute s t = (.error outcome, t)) ∨ ∃ a, P a ∧ execute s t = (.ok a, t)

namespace Settles

variable {α β : Type} {P : α → Prop} {Q : β → Prop}

theorem pure {a : α} (h : P a) : Settles P (Pure.pure a) := fun _ => Or.inr ⟨a, h, rfl⟩

theorem throw (outcome : Outcome) : Settles P (MonadExcept.throw outcome) :=
  fun _ => Or.inl ⟨outcome, rfl⟩

theorem lift {x : StateM FileTree α} (h : Finds P x) : Settles P (liftM x) := by
  intro t
  exact Or.inr ⟨(x t).1, (h t).1, execute_lift_of_eq (h.eq t)⟩

theorem imp {R : α → Prop} {s : Step (StateM FileTree) α} (hs : Settles P s)
    (h : ∀ a, P a → R a) : Settles R s :=
  fun t => (hs t).imp_right fun ⟨a, ha, hgo⟩ => ⟨a, h a ha, hgo⟩

theorem bind {s : Step (StateM FileTree) α} {f : α → Step (StateM FileTree) β} (hs : Settles P s)
    (hf : ∀ a, P a → Settles Q (f a)) : Settles Q (s >>= f) := by
  intro t
  rcases hs t with ⟨outcome, hstop⟩ | ⟨a, ha, hgo⟩
  · exact Or.inl ⟨outcome, execute_bind_of_error hstop f⟩
  · rw [execute_bind_of_ok hgo]
    exact hf a ha t

theorem of_ok {s : Step (StateM FileTree) α} (hs : Settles P s) {t t' : FileTree} {a : α}
    (h : execute s t = (.ok a, t')) : P a ∧ t' = t := by
  rcases hs t with ⟨outcome, hstop⟩ | ⟨b, hb, hgo⟩
  · exact absurd (hstop.symm.trans h) (by simp)
  · obtain ⟨hsame, rfl⟩ := Prod.mk.inj (hgo.symm.trans h)
    exact ⟨Except.ok.inj hsame ▸ hb, rfl⟩

end Settles

/-! ## What comes before a report -/

theorem settles_refuse {α : Type} {P : α → Prop} (hint : Option Text) (reason : Text) :
    Settles P (refuse hint reason) := Settles.throw _

theorem settles_loadConfig (root : Path) (named : Option Path) :
    Settles Config.IsStated (loadConfig root named) := by
  refine (Settles.lift (Config.finds_load root named)).bind fun loaded hloaded => ?_
  cases loaded with
  | ok c => exact Settles.pure (hloaded c rfl)
  | error e => exact Settles.throw _

theorem settles_readFormat (name : Text) :
    Settles (fun format => formatOf? name = some format) (readFormat name) := by
  unfold readFormat
  cases formatOf? name with
  | some format => exact Settles.pure rfl
  | none => exact settles_refuse _ _

theorem settles_refuseIf (refused : Bool) (hint : Option Text) (reason : Text) :
    Settles (fun _ => refused = false) (refuseIf refused hint reason) := by
  unfold refuseIf
  cases refused with
  | true => exact settles_refuse hint reason
  | false => exact Settles.pure rfl

/-- Options that are not refused ask for one worker or more, if they say how many. -/
theorem settles_checkLint (o : LintOptions) :
    Settles (fun _ => ∀ n ∈ o.workers, 1 ≤ n) (checkLint o) := by
  refine (settles_refuseIf _ _ _).bind fun _ _ => (settles_refuseIf _ _ _).bind fun _ _ => ?_
  refine (settles_refuseIf _ _ _).imp fun _ hworkers n hn => ?_
  rw [hn, Option.any_some, decide_eq_false_iff_not] at hworkers
  omega

theorem one_le_workersFor {o : LintOptions} {c : Config} (ho : ∀ n ∈ o.workers, 1 ≤ n)
    (hc : ∀ n ∈ c.workers, 1 ≤ n) : ∀ n ∈ o.workersFor c, 1 ≤ n := by
  intro n hn
  rw [LintOptions.workersFor] at hn
  cases hnamed : o.workers with
  | some count =>
    rw [hnamed] at hn
    exact ho n (hnamed.trans hn)
  | none =>
    rw [hnamed, Option.none_or] at hn
    obtain ⟨count, hcount, rfl⟩ := Option.map_eq_some_iff.mp hn
    exact Int.ofNat_le.mpr (hc count hcount)

/-- What is prepared: the format that is asked for, and a configuration that leaves one worker or
more, if it is said how many. -/
def IsPrepared (o : LintOptions) (prepared : Config × OutputFormat) : Prop :=
  formatOf? (o.formatName prepared.1) = some prepared.2 ∧ ∀ n ∈ o.workersFor prepared.1, 1 ≤ n

/-- To prepare for checking only looks at files. -/
theorem settles_prepare (o : LintOptions) : Settles (IsPrepared o) (prepare o) := by
  refine (settles_loadConfig o.root o.config).bind fun c hc => ?_
  refine (settles_readFormat _).bind fun format hformat => ?_
  refine (settles_checkLint o).bind fun _ hworkers => Settles.pure ⟨hformat, ?_⟩
  exact one_le_workersFor hworkers hc.one_le_workers

theorem onlyLooks_presentFiles (paths : List Path) :
    OnlyLooks (presentFiles paths : StateM FileTree (List Path)) := by
  induction paths with
  | nil => exact Finds.pure trivial
  | cons p rest ih =>
    exact (FileTree.onlyLooks_isFile p).bind fun _ _ => ih.bind fun _ _ => Finds.pure trivial

theorem onlyLooks_ignoreSearch (o : LintOptions) :
    OnlyLooks (ignoreSearch o : StateM FileTree Rule.IgnoreSearch) :=
  (onlyLooks_presentFiles _).bind fun _ _ => Finds.pure trivial

/-! ## Checking -/

section Checking

theorem settles_stop {α : Type} {P : α → Prop} (message : Text) : Settles P (stop message) :=
  (Settles.lift (FileTree.onlyLooks_isTerminal .errors)).bind fun _ _ => Settles.throw _

theorem settles_parsed (source : Text) (result : Except ParseError Dockerfile) :
    Settles (fun _ => True) (parsed source result) := by
  cases result with
  | ok d => exact Settles.pure trivial
  | error e =>
    unfold parsed
    dsimp only
    split
    · exact settles_stop _
    · exact Settles.throw _

theorem settles_readDockerfile (stdin : Text) (file : Option Path) :
    Settles (fun _ => True) (readDockerfile stdin file) := by
  cases file with
  | none => exact settles_parsed _ _
  | some p =>
    refine (Settles.lift (FileTree.onlyLooks_read p)).bind fun octets _ => ?_
    cases octets with
    | ok octets => exact settles_parsed _ _
    | error e => exact settles_stop _

theorem settles_selectRules (c : Config) (search : Rule.IgnoreSearch) :
    Settles (fun _ => True) (selectRules c search) := by
  unfold selectRules
  split
  · exact Settles.pure trivial
  · exact settles_refuse _ _

theorem onlyLooks_isUp (started : Float) (deadline : Option Float) :
    OnlyLooks (Engine.isUp Host.now started deadline) := by
  cases deadline with
  | none => exact Finds.pure trivial
  | some limit => exact FileTree.onlyLooks_now.bind fun _ _ => Finds.pure trivial

theorem onlyLooks_runWhile {isUp : StateM FileTree Bool} (h : OnlyLooks isUp)
    (instructions : List Instruction) (rules : List Rule) :
    OnlyLooks (Engine.runWhile isUp instructions (rules.map Rule.inspector)) := by
  induction rules with
  | nil => exact Finds.pure trivial
  | cons r rules ih =>
    refine h.bind fun up _ => ?_
    cases up with
    | true => exact Finds.pure trivial
    | false =>
      have hinspect : OnlyLooks (r.inspector.inspect instructions) := Finds.pure trivial
      exact hinspect.bind fun _ _ => ih.bind fun _ _ => Finds.pure trivial

/-- Rules look at steps, not at files. -/
theorem onlyLooks_analyze {e : Engine (StateM FileTree)} {rules : List Rule}
    (he : e.inspectors = rules.map Rule.inspector) (deadline : Option Float) (source : Text)
    (d : Dockerfile) (schedule : Engine.Schedule) :
    OnlyLooks (e.analyze Host.now deadline source d schedule) := by
  have hcomplete : OnlyLooks (e.complete Host.now deadline d.instructions schedule) := by
    unfold Engine.complete
    rw [he]
    split
    · exact FileTree.onlyLooks_now.bind fun started _ =>
        onlyLooks_runWhile (onlyLooks_isUp started deadline) _ _
    · obtain ⟨completed, -, hthreads⟩ := Engine.exists_runThreaded (m := StateM FileTree)
        deadline schedule d.instructions rules
      rw [hthreads]
      exact Finds.pure trivial
  have hrun : OnlyLooks (e.run Host.now deadline source d.instructions schedule) := by
    unfold Engine.run
    split
    · exact Finds.pure trivial
    · exact hcomplete.bind fun _ _ => Finds.pure trivial
  exact hrun.bind fun _ _ => Finds.pure trivial

theorem onlyLooks_finishedRules (rules : List Rule) (workers : Option Nat)
    (deadline : Option Float) (d : Dockerfile) :
    OnlyLooks (finishedRules rules workers deadline d : StateM FileTree (List Text)) := by
  unfold finishedRules
  split
  · exact Finds.pure trivial
  · exact FileTree.onlyLooks_finish _ _

theorem settles_runRules (rules : List Rule) (workers : Option Int) (deadline : Option Float)
    (source : Text) (d : Dockerfile) :
    Settles (fun _ => True) (runRules rules workers deadline source d) := by
  unfold runRules
  dsimp only
  split
  · exact Settles.throw _
  · next e hbuild =>
    refine (Settles.lift (onlyLooks_finishedRules rules e.workers deadline d)).bind
      fun finished _ => ?_
    have hlooks := onlyLooks_analyze (Engine.inspectors_of_build hbuild) deadline source d
      fun _ => finished
    refine (Settles.lift hlooks).bind fun result _ => ?_
    cases result with
    | ok run => exact Settles.pure trivial
    | error e => exact Settles.throw _

/-- A check goes by the configuration and the format that were prepared. -/
theorem execute_prepare_of_check {o : LintOptions} {stdin : Text} {t t' : FileTree} {k : Checked}
    (h : execute (check o stdin) t = (.ok k, t')) :
    execute (prepare o) t = (.ok (k.config, k.format), t) := by
  obtain ⟨prepared, between, hprepare, h⟩ := exists_of_execute_bind h
  obtain ⟨d, _, -, h⟩ := exists_of_execute_bind h
  obtain ⟨search, _, -, h⟩ := exists_of_execute_bind h
  obtain ⟨rules, _, -, h⟩ := exists_of_execute_bind h
  obtain ⟨run, _, -, h⟩ := exists_of_execute_bind h
  obtain rfl := Except.ok.inj (Prod.mk.inj h).1
  rw [hprepare, ((settles_prepare o).of_ok hprepare).2]

/-- To check a Dockerfile only looks at files. -/
theorem settles_check (o : LintOptions) (stdin : Text) :
    Settles (fun k => IsPrepared o (k.config, k.format)) (check o stdin) := by
  refine (settles_prepare o).bind fun prepared hprepared => ?_
  refine (settles_readDockerfile stdin o.file).bind fun d _ => ?_
  refine (Settles.lift (onlyLooks_ignoreSearch o)).bind fun search _ => ?_
  refine (settles_selectRules prepared.1 search).bind fun rules _ => ?_
  exact (settles_runRules rules _ _ _ d).bind fun run _ => Settles.pure hprepared

end Checking

end Drydock.Cli
