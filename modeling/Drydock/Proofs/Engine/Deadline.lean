/-
  One worker under a deadline. It looks at the clock before each rule and at no other time, so it
  begins rules as long as those before have left it some time (`timely`): the longest row of rules
  each of which is begun in time. A rule that is begun is finished, however long it takes. Hence
  what is reported is known from the costs alone, and more time adds rules and takes none away
  (`run_within_deadline`).
-/
import Drydock.Proofs.Engine.Report
import Drydock.Rule.BuildContext
import Drydock.Rule.IgnoreFile
import Drydock.Rule.User
import Mathlib.Algebra.Order.Group.Int
import Mathlib.Algebra.Order.Group.Unbundled.Basic
import Mathlib.Tactic.Abel

namespace Drydock

/-- Lengths of time that are reckoned without rounding. -/
class Duration.IsExact (τ : Type) [AddCommGroup τ] [LinearOrder τ] [Duration τ] : Prop where
  zero_eq : (Duration.zero : τ) = 0
  between_eq (started now : τ) : Duration.between started now = now - started
  le_iff (a b : τ) : Duration.le a b = true ↔ a ≤ b

/-- Whole seconds. -/
instance : Duration Int where
  zero := 0
  between started now := now - started
  le a b := a ≤ b
  text := Text.ofInt

instance : Duration.IsExact Int where
  zero_eq := rfl
  between_eq _ _ := rfl
  le_iff _ _ := decide_eq_true_iff

namespace Engine

/-- A rule, and how much time it takes over steps, whether it then fails or not. -/
structure TimedRule (τ : Type) where
  rule : Rule
  cost : List Instruction → τ

namespace TimedRule

variable {τ : Type}

/-- The name of the rule. -/
def id (t : TimedRule τ) : Text := t.rule.id

/-- The name of the rule, and what its inspection comes to. -/
def outcome (instructions : List Instruction) (t : TimedRule τ) : Text × Inspection :=
  t.rule.outcome instructions

/-- The name of the rule, and what is reported of it. -/
def entry (instructions : List Instruction) (t : TimedRule τ) : Text × List Finding :=
  t.rule.entry instructions

theorem map_id_rule (ts : List (TimedRule τ)) :
    (ts.map TimedRule.rule).map Rule.id = ts.map TimedRule.id :=
  List.map_map

theorem map_outcome_rule (instructions : List Instruction) (ts : List (TimedRule τ)) :
    (ts.map TimedRule.rule).map (Rule.outcome instructions) =
      ts.map (TimedRule.outcome instructions) :=
  List.map_map

theorem map_entry_rule (instructions : List Instruction) (ts : List (TimedRule τ)) :
    (ts.map TimedRule.rule).map (Rule.entry instructions) =
      ts.map (TimedRule.entry instructions) :=
  List.map_map

end TimedRule

/-- The time, and the names of the rules that have been begun so far. -/
structure Watch (τ : Type) where
  now : τ
  begun : List Text

section Deadlines

variable {τ : Type} [AddCommGroup τ]

/-- The time that rules take together. -/
def spent (instructions : List Instruction) (ts : List (TimedRule τ)) : τ :=
  (ts.map fun t => t.cost instructions).sum

/-- What the watch shows when rules have run. -/
def Watch.after (w : Watch τ) (instructions : List Instruction) (ts : List (TimedRule τ)) :
    Watch τ :=
  ⟨w.now + spent instructions ts, w.begun ++ ts.map TimedRule.id⟩

/-- Reads the time. -/
def Watch.clock : StateM (Watch τ) τ := do
  let w ← get
  pure w.now

/-- The rule at work: nothing but the rules moves the clock on. -/
def TimedRule.inspector (t : TimedRule τ) : Inspector (StateM (Watch τ)) where
  id := t.id
  inspect instructions := do
    modify fun w => w.after instructions [t]
    pure (t.rule.inspect instructions)

variable {instructions : List Instruction} {ts : List (TimedRule τ)} {t : TimedRule τ}
  {w : Watch τ}

@[simp] theorem spent_nil : spent instructions ([] : List (TimedRule τ)) = 0 := rfl

@[simp] theorem spent_cons :
    spent instructions (t :: ts) = t.cost instructions + spent instructions ts :=
  List.sum_cons

@[simp] theorem Watch.after_nil : w.after instructions [] = w := by
  simp [Watch.after]

theorem Watch.after_after :
    (w.after instructions [t]).after instructions ts = w.after instructions (t :: ts) := by
  simp [Watch.after, add_assoc]

theorem TimedRule.run_inspect (t : TimedRule τ) (w : Watch τ) :
    (t.inspector.inspect instructions).run w =
      pure (t.rule.inspect instructions, w.after instructions [t]) :=
  rfl

/-! ## Rules that are begun in time -/

variable [LinearOrder τ]

/-- All rules are begun in time: what those before each of them take is less than the limit. -/
def AllBegunWithin (instructions : List Instruction) (limit : τ) (ts : List (TimedRule τ)) : Prop :=
  ∀ front t back, ts = front ++ t :: back → spent instructions front < limit

/-- The rules that are begun when some time is left. -/
def timely (instructions : List Instruction) : (left : τ) → List (TimedRule τ) → List (TimedRule τ)
  | _, [] => []
  | left, t :: ts =>
    if left ≤ 0 then [] else t :: timely instructions (left - t.cost instructions) ts

theorem allBegunWithin_nil (limit : τ) :
    AllBegunWithin instructions limit ([] : List (TimedRule τ)) := by
  intro front t back h
  exact absurd h.symm (by simp)

theorem timely_isPrefix (left : τ) (ts : List (TimedRule τ)) :
    timely instructions left ts <+: ts := by
  induction ts generalizing left with
  | nil => exact List.nil_prefix
  | cons t ts ih =>
    rw [timely]
    split
    · exact List.nil_prefix
    · exact (List.prefix_cons_inj t).mpr (ih _)

theorem timely_ne_nil {left : τ} (h : 0 < left) (hts : ts ≠ []) :
    timely instructions left ts ≠ [] := by
  cases ts with
  | nil => exact absurd rfl hts
  | cons t ts => simp [timely, not_le.mpr h]

/-! ## What is reported of them -/

section Reporting

variable [Duration τ]

/-- What is reported of rules with a limited time: the longest row of them that is begun in time,
each rule with its own findings, behind them the missed deadline, if any rule is left, and the rules
that are left. -/
structure ReportsTimely (instructions : List Instruction) (limit : τ)
    (timed ran left : List (TimedRule τ)) (r : Report) : Prop where
  registered : timed = ran ++ left
  begun : AllBegunWithin instructions limit ran
  longest : ∀ other, other <+: timed → AllBegunWithin instructions limit other → other <+: ran
  results : r.results.entries = ran.map (TimedRule.entry instructions) ++
    if left.isEmpty then [] else [(timeoutId, [timeoutFinding (Duration.text limit) r.skipped])]
  skipped : r.skipped = left.map TimedRule.id
  timedOut : r.timedOut = true ↔ left ≠ []

/-- It makes no difference what the last rule takes. -/
theorem ReportsTimely.timedOut_iff {limit : τ} {ran left : List (TimedRule τ)} {r : Report}
    (h : ReportsTimely instructions limit ts ran left r) :
    r.timedOut = true ↔ ¬AllBegunWithin instructions limit ts := by
  rw [h.timedOut, not_iff_not]
  constructor
  · rintro rfl
    rw [h.registered, List.append_nil]
    exact h.begun
  · intro hall
    have hlength := (h.longest ts List.prefix_rfl hall).length_le
    rw [h.registered, List.length_append] at hlength
    exact List.eq_nil_of_length_eq_zero (by omega)

theorem ReportsTimely.get?_results {limit : τ} {ran left : List (TimedRule τ)} {r : Report}
    (h : ReportsTimely instructions limit ts ran left r) (ht : t ∈ ran) :
    r.results.get? t.id = some (t.entry instructions).2 := by
  rw [OrderedMap.get?_eq_some_iff, h.results]
  exact List.mem_append_left _ (List.mem_map_of_mem (f := TimedRule.entry instructions) ht)

end Reporting

/-! ## The longest row -/

variable [IsOrderedAddMonoid τ]

theorem allBegunWithin_cons {limit : τ} :
    AllBegunWithin instructions limit (t :: ts) ↔
      0 < limit ∧ AllBegunWithin instructions (limit - t.cost instructions) ts := by
  constructor
  · intro h
    refine ⟨h [] t ts rfl, fun front other back hts => ?_⟩
    have hfront := h (t :: front) other back (by rw [hts, List.cons_append])
    rw [spent_cons] at hfront
    exact lt_sub_iff_add_lt'.mpr hfront
  · rintro ⟨hpos, hrest⟩ front other back hts
    cases front with
    | nil => exact hpos
    | cons first front =>
      obtain ⟨rfl, hback⟩ := List.cons.inj hts
      rw [spent_cons]
      exact lt_sub_iff_add_lt'.mp (hrest front other back hback)

theorem allBegunWithin_timely (left : τ) (ts : List (TimedRule τ)) :
    AllBegunWithin instructions left (timely instructions left ts) := by
  induction ts generalizing left with
  | nil => exact allBegunWithin_nil left
  | cons t ts ih =>
    rw [timely]
    split
    · exact allBegunWithin_nil left
    · rename_i hleft
      exact allBegunWithin_cons.mpr ⟨not_le.mp hleft, ih _⟩

/-- No longer row of the rules is begun in time. -/
theorem isPrefix_timely {left : τ} {other ts : List (TimedRule τ)} (hfront : other <+: ts)
    (h : AllBegunWithin instructions left other) : other <+: timely instructions left ts := by
  induction ts generalizing left other with
  | nil => exact hfront
  | cons t ts ih =>
    cases other with
    | nil => exact List.nil_prefix
    | cons first other =>
      obtain ⟨rfl, hothers⟩ := List.cons_prefix_cons.mp hfront
      obtain ⟨hpos, hrest⟩ := allBegunWithin_cons.mp h
      rw [timely, if_neg (not_le.mpr hpos)]
      exact List.cons_prefix_cons.mpr ⟨rfl, ih hothers hrest⟩

theorem timely_mono {left longer : τ} (h : left ≤ longer) (ts : List (TimedRule τ)) :
    timely instructions left ts <+: timely instructions longer ts := by
  refine isPrefix_timely (timely_isPrefix left ts) fun front t back hts => ?_
  exact lt_of_lt_of_le (allBegunWithin_timely left ts front t back hts) h

/-! ## The run -/

variable [Duration τ]

/-- The report on the rules that are begun in time. -/
theorem exists_reportsTimely (hids : (ts.map TimedRule.id).Nodup)
    (htimeout : timeoutId ∉ ts.map TimedRule.id) (instructions : List Instruction) (limit : τ)
    (source : Text) :
    ∃ left, ReportsTimely instructions limit ts (timely instructions limit ts) left
      (reportOf (ts.map TimedRule.id) (Duration.text limit) source
        ((timely instructions limit ts).map (TimedRule.outcome instructions))) := by
  obtain ⟨left, hts⟩ : timely instructions limit ts <+: ts := timely_isPrefix limit ts
  have hnames : ts.map TimedRule.id =
      ((timely instructions limit ts).map TimedRule.rule ++
        left.map TimedRule.rule).map Rule.id := by
    rw [← List.map_append, hts, TimedRule.map_id_rule]
  rw [hnames] at hids htimeout ⊢
  rw [← TimedRule.map_outcome_rule]
  obtain ⟨hresults, hskipped, htimed⟩ := merges_of_append instructions hids htimeout
    (Duration.text limit) source
  rw [TimedRule.map_entry_rule, List.isEmpty_map] at hresults
  rw [TimedRule.map_id_rule] at hskipped
  rw [ne_eq, List.map_eq_nil_iff] at htimed
  exact ⟨left,
    { registered := hts.symm
      begun := allBegunWithin_timely limit ts
      longest := fun other => isPrefix_timely
      results := hresults
      skipped := hskipped
      timedOut := htimed }⟩

variable [Duration.IsExact τ]

theorem isUp_clock (started limit : τ) (w : Watch τ) :
    (isUp Watch.clock started (some limit)).run w =
      pure (decide (limit - (w.now - started) ≤ 0), w) := by
  have hup : Duration.le limit (Duration.between started w.now) =
      decide (limit - (w.now - started) ≤ 0) := by
    rw [Bool.eq_iff_iff, Duration.IsExact.le_iff, Duration.IsExact.between_eq, decide_eq_true_iff,
      sub_nonpos]
  rw [← hup]
  rfl

/-- The worker goes through the rules that are begun in time. -/
theorem runWhile_timed (started limit : τ) (ts : List (TimedRule τ)) (w : Watch τ) :
    (runWhile (isUp Watch.clock started (some limit)) instructions
        (ts.map TimedRule.inspector)).run w =
      let ran := timely instructions (limit - (w.now - started)) ts
      pure (ran.map (TimedRule.outcome instructions), w.after instructions ran) := by
  induction ts generalizing w with
  | nil => simp [runWhile, timely]
  | cons t ts ih =>
    have hleft : limit - (w.now - started) - t.cost instructions =
        limit - ((w.after instructions [t]).now - started) := by
      simp only [Watch.after, spent_cons, spent_nil, add_zero]
      abel
    rw [List.map_cons, runWhile, StateT.run_bind, isUp_clock, timely, pure_bind]
    by_cases hup : limit - (w.now - started) ≤ 0
    · simp [hup]
    · dsimp only
      rw [if_neg (by simpa using hup), if_neg hup, StateT.run_bind, TimedRule.run_inspect,
        pure_bind, StateT.run_bind, ih, ← hleft]
      dsimp only
      rw [Watch.after_after]
      rfl

variable {e : Engine (StateM (Watch τ))}

/-- A run begins the rules that it can begin in time and reports on them. -/
theorem run_timed (he : e.inspectors = ts.map TimedRule.inspector) (hworkers : e.workers = some 1)
    {limit : τ} (hlimit : 0 < limit) (source : Text) (w : Watch τ) :
    (e.run Watch.clock (some limit) source instructions).run w =
      let ran := timely instructions limit ts
      let completed := ran.map (TimedRule.outcome instructions)
      pure (.ok ⟨reportOf e.ids (Duration.text limit) source completed,
        logOf e.ids (Duration.text limit) completed⟩, w.after instructions ran) := by
  have hdeadline : ∀ d ∈ some limit, Duration.le d Duration.zero = false := by
    rintro d ⟨rfl⟩
    rw [← Bool.not_eq_true, Duration.IsExact.le_iff, Duration.IsExact.zero_eq]
    exact not_le.mpr hlimit
  have hclock : Watch.clock.run w = pure (w.now, w) := rfl
  rw [run_eq_map_complete e _ hdeadline, StateT.run_map, complete, if_pos hworkers, he,
    StateT.run_bind, hclock, pure_bind]
  rw [runWhile_timed, sub_self, sub_zero]
  rfl

/--
A worker with a limited time begins the longest row of its rules in which what those before each
rule take is less than the limit, and if it has a rule it begins one. The report holds these rules
in the order of registration, each with its own findings, and behind them the missed deadline, if
any rule is left; those that are left are skipped. With a longer limit no rule is taken away, and
what has been found stays.
-/
theorem run_within_deadline (he : e.inspectors = ts.map TimedRule.inspector)
    (hworkers : e.workers = some 1) (htimeout : timeoutId ∉ e.ids)
    (instructions : List Instruction) (source : Text) (w : Watch τ) {limit : τ}
    (hlimit : 0 < limit) : ∃ (ran left : List (TimedRule τ)) (run : Run),
      (e.run Watch.clock (some limit) source instructions).run w =
        pure (.ok run, w.after instructions ran) ∧
      ReportsTimely instructions limit ts ran left run.report ∧
      (ts ≠ [] → ran ≠ []) ∧
      (run.report.timedOut = true ↔ ¬AllBegunWithin instructions limit ts) ∧
      ∀ longer, limit ≤ longer → ∃ (more left' : List (TimedRule τ)) (run' : Run),
        (e.run Watch.clock (some longer) source instructions).run w =
          pure (.ok run', w.after instructions more) ∧
        ReportsTimely instructions longer ts more left' run'.report ∧
        ran <+: more ∧
        ∀ t ∈ ran, run'.report.results.get? t.id = run.report.results.get? t.id := by
  have hnames : e.ids = ts.map TimedRule.id := by
    rw [ids, he, List.map_map]
    rfl
  have hids : (ts.map TimedRule.id).Nodup := hnames ▸ e.distinct
  rw [hnames] at htimeout
  have hrun : ∀ d, 0 < d → ∃ (left : List (TimedRule τ)) (run : Run),
      (e.run Watch.clock (some d) source instructions).run w =
        pure (.ok run, w.after instructions (timely instructions d ts)) ∧
      ReportsTimely instructions d ts (timely instructions d ts) left run.report := by
    intro d hd
    obtain ⟨left, hreport⟩ := exists_reportsTimely hids htimeout instructions d source
    rw [← hnames] at hreport
    exact ⟨left, _, run_timed he hworkers hd source w, hreport⟩
  obtain ⟨left, run, hresult, hreport⟩ := hrun limit hlimit
  refine ⟨_, left, run, hresult, hreport, timely_ne_nil hlimit, hreport.timedOut_iff,
    fun longer hlonger => ?_⟩
  obtain ⟨left', run', hresult', hreport'⟩ := hrun longer (lt_of_lt_of_le hlimit hlonger)
  have hmore : timely instructions limit ts <+: timely instructions longer ts :=
    timely_mono hlonger ts
  refine ⟨_, left', run', hresult', hreport', hmore, fun t ht => ?_⟩
  rw [hreport.get?_results ht, hreport'.get?_results (hmore.subset ht)]

end Deadlines

/-- Of three rules one fails, and the last would be begun at the very end of the time. With more
time it is begun and may take as long as it likes. -/
theorem run_within_deadline_of_late_rule :
    ∃ (ts : List (TimedRule Int)) (e : Engine (StateM (Watch Int))) (run run' : Run),
      e.inspectors = ts.map TimedRule.inspector ∧ e.workers = some 1 ∧ timeoutId ∉ e.ids ∧
      (0 : Int) < 3 ∧
      (e.run Watch.clock (some 3) "<text>" []).run ⟨10, []⟩ =
        pure (.ok run, ⟨13, ["specific-copy", "dockerignore-present"]⟩) ∧
      run.report.results.keys = (["specific-copy", "dockerignore-present", "timeout"] : List Text) ∧
      run.report.skipped = (["non-root-user"] : List Text) ∧
      (e.run Watch.clock (some 4) "<text>" []).run ⟨10, []⟩ =
        pure (.ok run', ⟨18, ["specific-copy", "dockerignore-present", "non-root-user"]⟩) ∧
      run'.report.timedOut = false := by
  let unnamed : Rule := Rule.dockerignorePresent { dockerfile := some (Path.ofText "/") }
  let ts : List (TimedRule Int) :=
    [⟨Rule.specificCopy, fun _ => 1⟩, ⟨unnamed, fun _ => 2⟩, ⟨Rule.nonRootUser, fun _ => 5⟩]
  let e : Engine (StateM (Watch Int)) := ⟨ts.map TimedRule.inspector, by decide, some 1⟩
  have htimeout : timeoutId ∉ e.ids := by decide
  obtain ⟨ran, left, run, hrun, -, -, -, hlonger⟩ :=
    run_within_deadline (e := e) rfl rfl htimeout [] "<text>" ⟨10, []⟩
      (show (0 : Int) < 3 by decide)
  obtain ⟨more, left', run', hrun', -⟩ := hlonger 4 (by decide)
  -- What the two runs come to is found by running them.
  let outcome (x : Id (Except (EngineError Int) Run × Watch Int)) : Option Run × Watch Int :=
    (x.run.1.toOption, x.run.2)
  have hends : Watch.after ⟨10, []⟩ [] ran =
        (⟨13, ["specific-copy", "dockerignore-present"]⟩ : Watch Int) ∧
      Watch.after ⟨10, []⟩ [] more =
        (⟨18, ["specific-copy", "dockerignore-present", "non-root-user"]⟩ : Watch Int) :=
    ⟨congrArg (fun x => (outcome x).2) hrun.symm, congrArg (fun x => (outcome x).2) hrun'.symm⟩
  have hkeys : some run.report.results.keys =
      some (["specific-copy", "dockerignore-present", "timeout"] : List Text) :=
    congrArg (fun x => (outcome x).1.map fun r : Run => r.report.results.keys) hrun.symm
  have hskipped : some run.report.skipped = some (["non-root-user"] : List Text) :=
    congrArg (fun x => (outcome x).1.map fun r : Run => r.report.skipped) hrun.symm
  have htimedOut : some run'.report.timedOut = some false :=
    congrArg (fun x => (outcome x).1.map fun r : Run => r.report.timedOut) hrun'.symm
  rw [hends.1] at hrun
  rw [hends.2] at hrun'
  exact ⟨ts, e, run, run', rfl, rfl, htimeout, by decide, hrun, Option.some.inj hkeys,
    Option.some.inj hskipped, hrun', Option.some.inj htimedOut⟩

end Engine

end Drydock
