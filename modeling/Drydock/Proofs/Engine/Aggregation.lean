/-
  What becomes of all findings. A report keeps them by name, and two names are given by the engine
  itself: one for unknown keywords, one for a missed deadline. A rule may bear either, since only
  the rules' names among each other are compared. What a report then lacks is said exactly
  (`overwritten`), and hence when nothing is lost (`findings_of_analysis`).
-/
import Drydock.Proofs.Engine.Deadline
import Mathlib.Algebra.Order.Monoid.Canonical.Defs
import Mathlib.Data.Multiset.Bind
import Mathlib.Data.Multiset.OrderedMonoid

namespace Drydock.Engine

/-! ## Rules at work -/

section Running

variable {m : Type → Type} [Monad m] {τ : Type} [Duration τ]

/-- An inspector comes to what a rule comes to, whatever else it does meanwhile. -/
def Performs (instructions : List Instruction) (i : Inspector m) (r : Rule) : Prop :=
  i.id = r.id ∧ ∃ work : m Unit, i.inspect instructions = (fun _ => r.inspect instructions) <$> work

variable {instructions : List Instruction} {inspectors : List (Inspector m)} {rules : List Rule}

theorem performs_timed {σ : Type} [AddCommGroup σ] (t : TimedRule σ) :
    Performs instructions t.inspector t.rule :=
  ⟨rfl, modify fun w => w.after instructions [t], rfl⟩

theorem ids_of_performs (h : List.Forall₂ (Performs instructions) inspectors rules) :
    inspectors.map Inspector.id = rules.map Rule.id := by
  induction h with
  | nil => rfl
  | cons hfirst _ ih => rw [List.map_cons, List.map_cons, hfirst.1, ih]

variable [LawfulMonad m]

theorem performs_inspector (instructions : List Instruction) (r : Rule) :
    Performs instructions (r.inspector : Inspector m) r :=
  ⟨rfl, pure (), by rw [map_pure]; rfl⟩

theorem performs_inspectors (instructions : List Instruction) (rules : List Rule) :
    List.Forall₂ (Performs instructions) (rules.map Rule.inspector : List (Inspector m)) rules :=
  List.forall₂_map_left_iff.mpr (List.forall₂_same.mpr fun r _ => performs_inspector _ r)

/-- Rules that run until the time is up are a front of all rules. -/
theorem exists_runWhile_eq (isUp : m Bool)
    (h : List.Forall₂ (Performs instructions) inspectors rules) : ∃ count : m Nat,
      runWhile isUp instructions inspectors =
        (fun k => (rules.take k).map (Rule.outcome instructions)) <$> count := by
  induction h with
  | nil => exact ⟨pure 0, by simp [runWhile]⟩
  | @cons i r _ rules hfirst _ ih =>
    obtain ⟨hid, work, hwork⟩ := hfirst
    obtain ⟨count, hcount⟩ := ih
    refine ⟨do if ← isUp then pure 0 else do { work; Nat.succ <$> count }, ?_⟩
    rw [runWhile, hcount, hwork, map_bind]
    refine bind_congr fun up => ?_
    cases up with
    | true => simp
    | false => simp [hid, Rule.outcome]

theorem exists_runAll_eq (h : List.Forall₂ (Performs instructions) inspectors rules) :
    ∃ work : m Unit, runAll instructions inspectors =
      (fun _ => rules.map (Rule.outcome instructions)) <$> work := by
  induction h with
  | nil => exact ⟨pure (), by simp [runAll]⟩
  | @cons i r _ rules hfirst _ ih =>
    obtain ⟨hid, work, hwork⟩ := hfirst
    obtain ⟨others, hothers⟩ := ih
    refine ⟨do { work; others }, ?_⟩
    rw [runAll, List.mapM_cons, ← runAll, hothers, hwork]
    simp [hid, Rule.outcome]

/-- What a single worker completes is a front of its rules, however much time it has. -/
theorem exists_complete_of_worker {e : Engine m}
    (h : List.Forall₂ (Performs instructions) e.inspectors rules) (hworkers : e.workers = some 1)
    (clock : m τ) (deadline : Option τ) (schedule : Schedule) : ∃ count : m Nat,
      e.complete clock deadline instructions schedule =
        (fun k => (rules.take k).map (Rule.outcome instructions)) <$> count := by
  choose count hcount using fun started => exists_runWhile_eq (isUp clock started deadline) h
  refine ⟨clock >>= count, ?_⟩
  rw [complete, if_pos hworkers, map_bind]
  exact bind_congr hcount

/-- What threads complete is what they are done with when the wait for them ends, in some order. -/
theorem exists_complete_of_threads {e : Engine m}
    (h : List.Forall₂ (Performs instructions) e.inspectors rules) (hworkers : e.workers ≠ some 1)
    (clock : m τ) (deadline : Option τ) (schedule : Schedule) :
    ∃ (work : m Unit) (completed : Completed),
      completed.Perm ((rules.filter fun r =>
        isDone deadline (schedule e.ids) r.id).map (Rule.outcome instructions)) ∧
      e.complete clock deadline instructions schedule = (fun _ => completed) <$> work := by
  obtain ⟨order, hperm, horder⟩ := exists_forall₂_inOrder (fun i r hir => hir.1) h
    (isDone deadline (schedule e.ids)) (schedule e.ids)
  obtain ⟨work, hwork⟩ := exists_runAll_eq horder
  refine ⟨work, _, hperm.map _, ?_⟩
  rw [complete, if_neg hworkers, runThreaded]
  exact hwork

end Running

/-! ## All that is found -/

/-- What rules find. -/
def foundBy (instructions : List Instruction) (rules : List Rule) : Multiset Finding :=
  (rules.map fun r => ((r.entry instructions).2 : Multiset Finding)).sum

/-- All that is found when some rules have finished: what is said about unknown keywords, what these
rules find, and the missed deadline, if another rule is left. -/
def found (d : Dockerfile) (rules : List Rule) (finished : Text → Bool) (limit : Text) :
    Multiset Finding :=
  (unknownInstructionFindings d.warnings : Multiset Finding) +
    foundBy d.instructions (rules.filter fun r => finished r.id) +
    if rules.all fun r => finished r.id then 0
    else {timeoutFinding limit ((rules.filter fun r => !finished r.id).map Rule.id)}

/-- What is found under a name that is given twice: a rule that bears the name of the unknown
keywords takes their place, and the missed deadline takes that of a rule that bears its name. -/
def overwritten (d : Dockerfile) (rules : List Rule) (finished : Text → Bool) :
    Multiset Finding :=
  (if rules.any fun r => finished r.id && r.id = unknownInstructionId then
      (unknownInstructionFindings d.warnings : Multiset Finding)
    else 0) +
  if rules.all fun r => finished r.id then 0
  else foundBy d.instructions (rules.filter fun r => finished r.id && r.id = timeoutId)

/-- The report of an analysis in which some rules have run. -/
def reportOn (d : Dockerfile) (ids : List Text) (limit source : Text) (completed : Completed) :
    Report :=
  withWarnings d.warnings (reportOf ids limit source completed)

theorem coe_findings (r : Report) :
    (r.findings : Multiset Finding) = OrderedMap.weight Multiset.ofList r.results.entries := by
  rw [Report.findings, ← Multiset.coe_join, Multiset.join, Multiset.sum_coe, OrderedMap.values,
    List.map_map]
  rfl

theorem weight_entries (instructions : List Instruction) (rules : List Rule) :
    OrderedMap.weight Multiset.ofList (rules.map (Rule.entry instructions)) =
      foundBy instructions rules := by
  rw [OrderedMap.weight, List.map_map]
  rfl

theorem isolated_eq_nil_iff {id : Text} {inspection : Inspection} :
    isolated id inspection = [] ↔ inspection = .ok [] := by
  cases inspection <;> simp [isolated]

theorem foundBy_eq_zero_iff {instructions : List Instruction} {rules : List Rule} :
    foundBy instructions rules = 0 ↔ ∀ r ∈ rules, r.inspect instructions = .ok [] := by
  induction rules with
  | nil => simp [foundBy]
  | cons r rules ih =>
    rw [foundBy, List.map_cons, List.sum_cons, add_eq_zero, ← foundBy, ih, Multiset.coe_eq_zero,
      Rule.entry, isolated_eq_nil_iff, List.forall_mem_cons]

/-! ## What the names leave of it -/

/-- Unknown keywords are lost to a rule that bears their name. -/
theorem findings_withWarnings (warnings : List UnknownKeyword) (r : Report) :
    ((withWarnings warnings r).findings : Multiset Finding) +
        (if unknownInstructionId ∈ r.results.keys then
          (unknownInstructionFindings warnings : Multiset Finding) else 0) =
      unknownInstructionFindings warnings + (r.findings : Multiset Finding) := by
  rw [coe_findings, coe_findings]
  by_cases hempty : warnings.isEmpty = true
  · obtain rfl := List.isEmpty_iff.mp hempty
    simp [withWarnings, unknownInstructionFindings]
  · rw [withWarnings, if_neg hempty]
    convert OrderedMap.weight_ofList_cons Multiset.ofList unknownInstructionId
      (unknownInstructionFindings warnings) r.results.distinct
    rfl

section Names

variable {rules : List Rule} {d : Dockerfile} {finished : Text → Bool} {completed : Completed}

theorem findings_reportOf (hids : (rules.map Rule.id).Nodup)
    (hperm : completed.Perm
      ((rules.filter fun r => finished r.id).map (Rule.outcome d.instructions)))
    (limit source : Text) :
    ((reportOf (rules.map Rule.id) limit source completed).findings : Multiset Finding) +
        (if rules.all fun r => finished r.id then 0
          else foundBy d.instructions (rules.filter fun r => finished r.id && r.id = timeoutId)) =
      foundBy d.instructions (rules.filter fun r => finished r.id) +
        if rules.all fun r => finished r.id then 0
        else {timeoutFinding limit ((rules.filter fun r => !finished r.id).map Rule.id)} := by
  have hskipped := skippedOf_completed hids hperm
  have hentries := entries_resultsOf hids hperm
  have hempty : (skippedOf (rules.map Rule.id) completed).isEmpty =
      rules.all fun r => finished r.id := by
    rw [hskipped, isEmpty_skipped]
  rw [coe_findings]
  dsimp only [reportOf]
  rw [hempty, hskipped]
  cases rules.all fun r => finished r.id with
  | true => simp [hentries, weight_entries]
  | false =>
    have hlost : ((resultsOf (rules.map Rule.id) completed).get? timeoutId).elim 0
        Multiset.ofList =
        foundBy d.instructions (rules.filter fun r => finished r.id && r.id = timeoutId) := by
      rw [OrderedMap.elim_get?_eq_weight, hentries, List.filter_map, weight_entries,
        List.filter_filter]
      exact congrArg _ (List.filter_congr fun r _ => Bool.and_comm _ _)
    have hinsert := OrderedMap.weight_insert Multiset.ofList
      (resultsOf (rules.map Rule.id) completed) timeoutId
      [timeoutFinding limit ((rules.filter fun r => !finished r.id).map Rule.id)]
    rw [hlost, hentries, weight_entries] at hinsert
    exact hinsert

theorem mem_keys_reportOf_iff (hids : (rules.map Rule.id).Nodup)
    (hperm : completed.Perm
      ((rules.filter fun r => finished r.id).map (Rule.outcome d.instructions)))
    (limit source : Text) :
    unknownInstructionId ∈ (reportOf (rules.map Rule.id) limit source completed).results.keys ↔
      ∃ r ∈ rules, finished r.id = true ∧ r.id = unknownInstructionId := by
  have hkeys : unknownInstructionId ∈ (resultsOf (rules.map Rule.id) completed).keys ↔
      ∃ r ∈ rules, finished r.id = true ∧ r.id = unknownInstructionId := by
    rw [OrderedMap.keys, entries_resultsOf hids hperm, map_fst_entry]
    simp [and_assoc]
  rw [← hkeys]
  dsimp only [reportOf]
  split
  · rfl
  · have hother : unknownInstructionId ≠ timeoutId := by decide
    rw [OrderedMap.keys_insert]
    split
    · rfl
    · simp [hother]

/-- What is reported and what is lost is all that is found. -/
theorem findings_reportOn (hids : (rules.map Rule.id).Nodup)
    (hperm : completed.Perm
      ((rules.filter fun r => finished r.id).map (Rule.outcome d.instructions)))
    (limit source : Text) :
    ((reportOn d (rules.map Rule.id) limit source completed).findings : Multiset Finding) +
      overwritten d rules finished = found d rules finished limit := by
  have hwarnings := findings_withWarnings d.warnings
    (reportOf (rules.map Rule.id) limit source completed)
  have hrules := findings_reportOf hids hperm limit source
  have hname : (unknownInstructionId ∈
      (reportOf (rules.map Rule.id) limit source completed).results.keys) ↔
      (rules.any fun r => finished r.id && r.id = unknownInstructionId) = true := by
    rw [mem_keys_reportOf_iff hids hperm]
    simp
  rw [if_congr hname rfl rfl] at hwarnings
  rw [reportOn, overwritten, ← add_assoc, hwarnings, add_assoc, hrules, found, add_assoc]

theorem overwritten_eq_zero_iff :
    overwritten d rules finished = 0 ↔
      ((∃ r ∈ rules, finished r.id = true ∧ r.id = unknownInstructionId) → d.warnings = []) ∧
      ((∃ r ∈ rules, finished r.id = false) →
        ∀ r ∈ rules, finished r.id = true → r.id = timeoutId →
          r.inspect d.instructions = .ok []) := by
  have hunknown : (rules.any fun r => finished r.id && r.id = unknownInstructionId) = true ↔
      ∃ r ∈ rules, finished r.id = true ∧ r.id = unknownInstructionId := by
    simp
  have hleft : (rules.all fun r => finished r.id) = true ↔ ¬∃ r ∈ rules, finished r.id = false := by
    simp
  rw [overwritten, add_eq_zero]
  refine and_congr ?_ ?_
  · rw [ite_eq_right_iff, hunknown, Multiset.coe_eq_zero, unknownInstructionFindings,
      List.map_eq_nil_iff]
  · rw [ite_eq_left_iff, hleft, not_not, foundBy_eq_zero_iff]
    simp

theorem perm_take (hids : (rules.map Rule.id).Nodup) (instructions : List Instruction) (k : Nat) :
    ((rules.take k).map (Rule.outcome instructions)).Perm
      ((rules.filter fun r => isAmong (rules.take k) r.id).map (Rule.outcome instructions)) := by
  have happend : rules.take k ++ rules.drop k = rules := List.take_append_drop k rules
  have hfilter := (filter_of_append (happend.symm ▸ hids)).1
  rw [happend] at hfilter
  rw [hfilter]

end Names

/-! ## Analyses -/

section Analyses

variable {m : Type → Type} [Monad m] [LawfulMonad m] {τ : Type} [Duration τ]

/-- What an analysis comes to in which some rules have run. -/
def runOn (d : Dockerfile) (ids : List Text) (limit source : Text) (completed : Completed) : Run :=
  ⟨reportOn d ids limit source completed, logOf ids limit completed⟩

/-- An analysis to which the deadline leaves any time reports on the rules that are completed. -/
theorem analyze_eq_map_complete (e : Engine m) (clock : m τ) {deadline : Option τ}
    (hdeadline : ∀ limit ∈ deadline, Duration.le limit Duration.zero = false) (source : Text)
    (d : Dockerfile) (schedule : Schedule) :
    e.analyze clock deadline source d schedule =
      (fun completed => .ok (runOn d e.ids (deadlineText deadline) source completed)) <$>
        e.complete clock deadline d.instructions schedule := by
  rw [analyze, run_eq_map_complete e clock hdeadline, bind_pure_comp, Functor.map_map]
  rfl

/--
Whatever rules have finished, and in whatever order, all that is found is reported but for what
stands under a name that is given twice. So nothing is lost just if no rule that has finished bears
the name of unknown keywords that there are, and none that has found something bears the name of a
deadline that is missed. So it is for the report of an analysis: one worker has finished a front of
the rules, and threads those that are done when the wait for them ends.
-/
theorem findings_of_analysis {e : Engine m} {rules : List Rule} {d : Dockerfile}
    (he : List.Forall₂ (Performs d.instructions) e.inspectors rules) (source : Text) :
    (∀ (finished : Text → Bool) (completed : Completed) (limit : Text),
      completed.Perm
        ((rules.filter fun r => finished r.id).map (Rule.outcome d.instructions)) →
      ((reportOn d e.ids limit source completed).findings : Multiset Finding) +
          overwritten d rules finished = found d rules finished limit ∧
      (((reportOn d e.ids limit source completed).findings : Multiset Finding) =
          found d rules finished limit ↔
        ((∃ r ∈ rules, finished r.id = true ∧ r.id = unknownInstructionId) → d.warnings = []) ∧
        ((∃ r ∈ rules, finished r.id = false) →
          ∀ r ∈ rules, finished r.id = true → r.id = timeoutId →
            r.inspect d.instructions = .ok []))) ∧
    ∀ (clock : m τ) (deadline : Option τ) (schedule : Schedule),
      (∀ limit ∈ deadline, Duration.le limit Duration.zero = false) →
      (e.workers = some 1 → ∃ (count : m Nat) (run : Nat → Run),
        e.analyze clock deadline source d schedule = (fun k => .ok (run k)) <$> count ∧
        ∀ k, (run k).report =
            reportOn d e.ids (deadlineText deadline) source
              ((rules.take k).map (Rule.outcome d.instructions)) ∧
          ((run k).report.findings : Multiset Finding) +
              overwritten d rules (isAmong (rules.take k)) =
            found d rules (isAmong (rules.take k)) (deadlineText deadline)) ∧
      (e.workers ≠ some 1 → ∃ (work : m Unit) (run : Run),
        e.analyze clock deadline source d schedule = (fun _ => .ok run) <$> work ∧
        (∃ completed : Completed,
          completed.Perm ((rules.filter fun r =>
            isDone deadline (schedule e.ids) r.id).map (Rule.outcome d.instructions)) ∧
          run.report = reportOn d e.ids (deadlineText deadline) source completed) ∧
        (run.report.findings : Multiset Finding) +
            overwritten d rules (isDone deadline (schedule e.ids)) =
          found d rules (isDone deadline (schedule e.ids)) (deadlineText deadline)) := by
  have hnames : e.ids = rules.map Rule.id := ids_of_performs he
  have hids : (rules.map Rule.id).Nodup := hnames ▸ e.distinct
  have hfindings (finished : Text → Bool) (completed : Completed) (limit : Text)
      (hperm : completed.Perm
        ((rules.filter fun r => finished r.id).map (Rule.outcome d.instructions))) :
      ((reportOn d e.ids limit source completed).findings : Multiset Finding) +
        overwritten d rules finished = found d rules finished limit := by
    rw [hnames]
    exact findings_reportOn hids hperm limit source
  refine ⟨fun finished completed limit hperm => ?_,
    fun clock deadline schedule hdeadline => ⟨fun hworkers => ?_, fun hworkers => ?_⟩⟩
  · have hall := hfindings finished completed limit hperm
    refine ⟨hall, ?_⟩
    rw [← hall, left_eq_add, overwritten_eq_zero_iff]
  · obtain ⟨count, hcount⟩ := exists_complete_of_worker he hworkers clock deadline schedule
    refine ⟨count, fun k => runOn d e.ids (deadlineText deadline) source
      ((rules.take k).map (Rule.outcome d.instructions)), ?_,
      fun k => ⟨rfl, hfindings _ _ _ (perm_take hids _ k)⟩⟩
    rw [analyze_eq_map_complete e clock hdeadline, hcount, Functor.map_map]
  · obtain ⟨work, completed, hperm, hwork⟩ :=
      exists_complete_of_threads he hworkers clock deadline schedule
    refine ⟨work, runOn d e.ids (deadlineText deadline) source completed, ?_,
      ⟨completed, hperm, rfl⟩, hfindings _ _ _ hperm⟩
    rw [analyze_eq_map_complete e clock hdeadline, hwork, Functor.map_map]

end Analyses

/-- A rule that always comes to the same findings. -/
def constantRule (id : Text) (findings : List Finding) : Rule :=
  ⟨id, .warning, fun _ => .ok findings⟩

/-- Two rules bear the names that the engine gives, and a third has not finished. -/
theorem findings_of_analysis_of_clashing_names :
    ∃ (e : Engine (StateM (Watch Int))) (rules : List Rule) (d : Dockerfile)
      (completed : Completed) (finished : Text → Bool),
      Dockerfile.parse "FROM a\nTRY x\n" = .ok d ∧
      List.Forall₂ (Performs d.instructions) e.inspectors rules ∧
      completed.Perm
        ((rules.filter fun r => finished r.id).map (Rule.outcome d.instructions)) ∧
      overwritten d rules finished =
        {⟨unknownInstructionId, .warning, 2, UnknownKeyword.message ⟨2, "TRY"⟩⟩,
          ⟨timeoutId, .warning, 1, "slow"⟩} ∧
      ((reportOn d e.ids "1" "<text>" completed).findings : Multiset Finding) +
        overwritten d rules finished = found d rules finished "1" ∧
      (∀ limit ∈ some (1 : Int), Duration.le limit Duration.zero = false) ∧
      ∃ (count : StateM (Watch Int) Nat) (run : Nat → Run),
        e.analyze Watch.clock (some 1) "<text>" d = (fun k => .ok (run k)) <$> count ∧
        ((run 2).report.findings : Multiset Finding) +
            overwritten d rules (isAmong (rules.take 2)) =
          found d rules (isAmong (rules.take 2)) "1" := by
  let d : Dockerfile :=
    { instructions :=
        [{ opcode := .base, arguments := ["a"], line := 1, endLine := 1, raw := "a" },
          { opcode := .other "TRY", arguments := ["x"], line := 2, endLine := 2, raw := "x" }]
      warnings := [⟨2, "TRY"⟩]
      escape := .backslash }
  let slow := constantRule timeoutId [⟨timeoutId, .warning, 1, "slow"⟩]
  let silent := constantRule unknownInstructionId []
  let late := constantRule "late" []
  let ts : List (TimedRule Int) := [⟨slow, fun _ => 0⟩, ⟨silent, fun _ => 1⟩, ⟨late, fun _ => 1⟩]
  let rules : List Rule := ts.map TimedRule.rule
  let finished : Text → Bool := fun id => id ≠ ("late" : Text)
  let completed : Completed := [silent.outcome d.instructions, slow.outcome d.instructions]
  let e : Engine (StateM (Watch Int)) := ⟨ts.map TimedRule.inspector, by decide, some 1⟩
  have hperforms : List.Forall₂ (Performs d.instructions) e.inspectors rules :=
    List.forall₂_map_left_iff.mpr (List.forall₂_map_right_iff.mpr
      (List.forall₂_same.mpr fun t _ => performs_timed t))
  have hperm : completed.Perm
      ((rules.filter fun r => finished r.id).map (Rule.outcome d.instructions)) :=
    List.Perm.swap _ _ _
  have hdeadline : ∀ limit ∈ some (1 : Int), Duration.le limit Duration.zero = false := by
    rintro limit ⟨rfl⟩
    rfl
  obtain ⟨hpartial, htimed⟩ := findings_of_analysis (τ := Int) hperforms "<text>"
  obtain ⟨count, run, hrun, hall⟩ := (htimed Watch.clock (some (1 : Int)) id hdeadline).1 rfl
  exact ⟨e, rules, d, completed, finished, by decide +kernel, hperforms, hperm, by decide,
    (hpartial finished completed "1" hperm).1, hdeadline, count, run, hrun, (hall 2).2⟩

/-- Rules that bear the names which the engine gives can be registered. One of them finds nothing
and takes the place of an unknown keyword; the finding of the other gives way to the deadline. -/
theorem findings_lost_under_one_name :
    (∃ (rules : List Rule) (e : Engine Id) (d : Dockerfile) (run : Run),
      (build (rules.map Rule.inspector) none : Except (EngineError Int) (Engine Id)) = .ok e ∧
      Dockerfile.parse "FROM a\nTRY x\n" = .ok d ∧
      e.analyze (pure (0 : Int)) none "<text>" d = pure (.ok run) ∧
      (run.report.findings : Multiset Finding) ≠ found d rules (fun _ => true) []) ∧
    ∃ (ts : List (TimedRule Int)) (e : Engine (StateM (Watch Int))) (d : Dockerfile) (run : Run)
      (w : Watch Int),
      (build (ts.map TimedRule.inspector) (some 1) : Except (EngineError Int) _) = .ok e ∧
      Dockerfile.parse "FROM a\n" = .ok d ∧
      (e.analyze Watch.clock (some 1) "<text>" d).run ⟨0, []⟩ = pure (.ok run, w) ∧
      w.begun = ([timeoutId] : List Text) ∧
      (run.report.findings : Multiset Finding) ≠
        found d (ts.map TimedRule.rule) (fun id => id ∈ w.begun) "1" := by
  let base : Instruction :=
    { opcode := .base, arguments := ["a"], line := 1, endLine := 1, raw := "a" }
  let unknown : Instruction :=
    { opcode := .other "TRY", arguments := ["x"], line := 2, endLine := 2, raw := "x" }
  constructor
  · let d : Dockerfile :=
      { instructions := [base, unknown]
        warnings := [⟨2, "TRY"⟩]
        escape := .backslash }
    let rules : List Rule := [constantRule unknownInstructionId []]
    let e : Engine Id := ⟨rules.map Rule.inspector, by decide, none⟩
    exact ⟨rules, e, d, _, rfl, by decide +kernel, rfl, by decide⟩
  · let d : Dockerfile := { instructions := [base], warnings := [], escape := .backslash }
    let ts : List (TimedRule Int) :=
      [⟨constantRule timeoutId [⟨timeoutId, .warning, 1, "slow"⟩], fun _ => 1⟩,
        ⟨constantRule "late" [], fun _ => 1⟩]
    let e : Engine (StateM (Watch Int)) := ⟨ts.map TimedRule.inspector, by decide, some 1⟩
    exact ⟨ts, e, d, _, _, rfl, by decide +kernel, rfl, rfl, by decide⟩

end Drydock.Engine
