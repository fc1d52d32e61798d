/-
  What a report says about the rules that have run. The rules are known by their names, so a report
  depends only on which of them have run and not on the order in which they did
  (`merges_reportOf`). Threads come to those that are done in time (`exists_run_threaded`); without a
  deadline all of them run, whatever the number of workers (`exists_run_untimed`).
-/
import Drydock.Engine
import Drydock.Proofs.OrderedMap
import Mathlib.Data.List.Nodup

namespace Drydock

/-- The name of a rule, and what its inspection of steps comes to. -/
def Rule.outcome (instructions : List Instruction) (r : Rule) : Text × Inspection :=
  (r.id, r.inspect instructions)

/-- The name of a rule, and what is reported of it. -/
def Rule.entry (instructions : List Instruction) (r : Rule) : Text × List Finding :=
  (r.id, Engine.isolated r.id (r.inspect instructions))

namespace Engine

/-! ## Looking up what has run -/

theorem lookup_eq_some_iff_of_nodup {completed : Completed}
    (h : (completed.map Prod.fst).Nodup) {id : Text} {inspection : Inspection} :
    completed.lookup id = some inspection ↔ (id, inspection) ∈ completed := by
  induction completed with
  | nil => simp
  | cons first completed ih =>
    obtain ⟨key, value⟩ := first
    obtain ⟨hfresh, hrest⟩ := List.nodup_cons.mp h
    rw [List.lookup_cons, List.mem_cons, Prod.mk.injEq]
    by_cases hkey : id = key
    · subst hkey
      have hnot : (id, inspection) ∉ completed := fun hmem => 
        hfresh (List.mem_map.mpr ⟨_, hmem, rfl⟩)
      simp [hnot, eq_comm]
    · rw [beq_eq_false_iff_ne.mpr hkey]
      simp [hkey, ih hrest]

section Merging

variable {rules : List Rule} {instructions : List Instruction} {finished : Text → Bool}
  {completed : Completed}

theorem map_fst_outcome (rules : List Rule) (instructions : List Instruction) :
    (rules.map (Rule.outcome instructions)).map Prod.fst = rules.map Rule.id := by
  rw [List.map_map]
  rfl

theorem map_fst_entry (rules : List Rule) (instructions : List Instruction) :
    (rules.map (Rule.entry instructions)).map Prod.fst = rules.map Rule.id := by
  rw [List.map_map]
  rfl

theorem nodup_ids_filter (hids : (rules.map Rule.id).Nodup) (p : Rule → Bool) :
    ((rules.filter p).map Rule.id).Nodup :=
  List.Sublist.nodup (List.filter_sublist.map _) hids

/-- A rule is found among those that have run just if it is one of them. -/
theorem lookup_completed (finished : Text → Bool) (hids : (rules.map Rule.id).Nodup)
    (hperm : completed.Perm
      ((rules.filter fun r => finished r.id).map (Rule.outcome instructions)))
    {r : Rule} (hr : r ∈ rules) :
    completed.lookup r.id = if finished r.id then some (r.inspect instructions) else none := by
  have hnodup : (completed.map Prod.fst).Nodup := by
    rw [(hperm.map Prod.fst).nodup_iff, map_fst_outcome]
    exact nodup_ids_filter hids _
  cases hfinished : finished r.id with
  | true =>
    rw [if_pos rfl, lookup_eq_some_iff_of_nodup hnodup, hperm.mem_iff]
    exact List.mem_map_of_mem (f := Rule.outcome instructions)
      (List.mem_filter.mpr ⟨hr, hfinished⟩)
  | false =>
    rw [if_neg (by simp), Option.eq_none_iff_forall_ne_some]
    intro inspection hlookup
    rw [lookup_eq_some_iff_of_nodup hnodup, hperm.mem_iff] at hlookup
    obtain ⟨other, hother, heq⟩ := List.mem_map.mp hlookup
    have hid : other.id = r.id := congrArg Prod.fst heq
    exact absurd (List.mem_filter.mp hother).2 (by simp [hid, hfinished])

theorem entries_resultsOf (hids : (rules.map Rule.id).Nodup)
    (hperm : completed.Perm
      ((rules.filter fun r => finished r.id).map (Rule.outcome instructions))) :
    (resultsOf (rules.map Rule.id) completed).entries =
      (rules.filter fun r => finished r.id).map (Rule.entry instructions) := by
  have hlist : ((rules.map Rule.id).filterMap fun id =>
      (completed.lookup id).map fun i => (id, isolated id i)) =
        (rules.filter fun r => finished r.id).map (Rule.entry instructions) := by
    rw [List.filterMap_map, ← List.filterMap_eq_map, List.filterMap_filter]
    refine List.filterMap_congr fun r hr => ?_
    dsimp only [Function.comp]
    rw [lookup_completed finished hids hperm hr]
    cases finished r.id <;> rfl
  rw [resultsOf, hlist]
  refine OrderedMap.entries_ofList ?_
  rw [map_fst_entry]
  exact nodup_ids_filter hids _

theorem skippedOf_completed (hids : (rules.map Rule.id).Nodup)
    (hperm : completed.Perm
      ((rules.filter fun r => finished r.id).map (Rule.outcome instructions))) :
    skippedOf (rules.map Rule.id) completed =
      (rules.filter fun r => !finished r.id).map Rule.id := by
  rw [skippedOf, List.filter_map]
  congr 1
  refine List.filter_congr fun r hr => ?_
  dsimp only [Function.comp]
  rw [lookup_completed finished hids hperm hr]
  cases finished r.id <;> rfl

/--
A report on rules some of which have finished: these in the order of registration, each with its own
findings, and behind them the missed deadline, if any rule is left.
-/
structure Merges (rules : List Rule) (instructions : List Instruction) (finished : Text → Bool)
    (limit : Text) (r : Report) : Prop where
  results : r.results.entries =
    (rules.filter fun rule => finished rule.id).map (Rule.entry instructions) ++
      if rules.all fun rule => finished rule.id then []
      else [(timeoutId, [timeoutFinding limit r.skipped])]
  skipped : r.skipped = (rules.filter fun rule => !finished rule.id).map Rule.id
  timedOut : r.timedOut = true ↔ r.skipped ≠ []

theorem isEmpty_skipped (rules : List Rule) (finished : Text → Bool) :
    ((rules.filter fun r => !finished r.id).map Rule.id).isEmpty =
      rules.all fun r => finished r.id := by
  induction rules with
  | nil => rfl
  | cons r rules ih => cases h : finished r.id <;> simp_all

/-- In whatever order some rules have run, the report lists them as they were registered. -/
theorem merges_reportOf (hids : (rules.map Rule.id).Nodup)
    (htimeout : timeoutId ∉ rules.map Rule.id)
    (hperm : completed.Perm
      ((rules.filter fun r => finished r.id).map (Rule.outcome instructions)))
    (limit source : Text) :
    Merges rules instructions finished limit
      (reportOf (rules.map Rule.id) limit source completed) := by
  have hskipped := skippedOf_completed hids hperm
  have hempty : (skippedOf (rules.map Rule.id) completed).isEmpty =
      rules.all fun r => finished r.id := by
    rw [hskipped, isEmpty_skipped]
  have hentries := entries_resultsOf hids hperm
  refine ⟨?_, hskipped, by simp [reportOf]⟩
  dsimp only [reportOf]
  rw [hempty]
  cases hall : rules.all fun r => finished r.id with
  | true => rw [if_pos rfl, if_pos rfl, hentries, List.append_nil]
  | false =>
    have hfresh : timeoutId ∉ (resultsOf (rules.map Rule.id) completed).keys := by
      rw [OrderedMap.keys, hentries, map_fst_entry]
      exact fun hmem => htimeout ((List.filter_sublist.map _).subset hmem)
    rw [if_neg (by simp), if_neg (by simp), OrderedMap.entries_insert_of_not_mem hfresh, hentries]

theorem reportOf_congr {ids : List Text} {other : Completed}
    (h : ∀ id ∈ ids, completed.lookup id = other.lookup id) (limit source : Text) :
    reportOf ids limit source completed = reportOf ids limit source other := by
  have hresults : resultsOf ids completed = resultsOf ids other := by
    unfold resultsOf
    congr 1
    exact List.filterMap_congr fun id hid => by rw [h id hid]
  have hskipped : skippedOf ids completed = skippedOf ids other :=
    List.filter_congr fun id hid => by rw [h id hid]
  unfold reportOf
  rw [hresults, hskipped]

/-- The order in which rules have run makes no difference to the report on them. -/
theorem reportOf_of_perm {other : Completed} (hnodup : (completed.map Prod.fst).Nodup)
    (hperm : completed.Perm other) (ids : List Text) (limit source : Text) :
    reportOf ids limit source completed = reportOf ids limit source other := by
  have hnodup' : (other.map Prod.fst).Nodup := (hperm.map Prod.fst).nodup_iff.mp hnodup
  refine reportOf_congr (fun id _ => Option.ext fun inspection => ?_) limit source
  rw [lookup_eq_some_iff_of_nodup hnodup, lookup_eq_some_iff_of_nodup hnodup', hperm.mem_iff]

theorem nodup_fst_of_perm (hids : (rules.map Rule.id).Nodup)
    (hperm : completed.Perm (rules.map (Rule.outcome instructions))) :
    (completed.map Prod.fst).Nodup := by
  rwa [(hperm.map Prod.fst).nodup_iff, map_fst_outcome]

/-- If all rules have run, they are what is reported. -/
theorem entries_reportOf_all (hids : (rules.map Rule.id).Nodup) (limit source : Text) :
    let report := reportOf (rules.map Rule.id) limit source (rules.map (Rule.outcome instructions))
    report.results.entries = rules.map (Rule.entry instructions) ∧ report.skipped = [] ∧
      report.timedOut = false := by
  have hall : (rules.map (Rule.outcome instructions)).Perm
      ((rules.filter fun _ => true).map (Rule.outcome instructions)) := by
    rw [List.filter_true]
  have hentries := @entries_resultsOf rules instructions (fun _ => true) _ hids hall
  have hskipped := @skippedOf_completed rules instructions (fun _ => true) _ hids hall
  rw [List.filter_true] at hentries
  rw [Bool.not_true, List.filter_false, List.map_nil] at hskipped
  simp [reportOf, hskipped, hentries]

/-- Whether a name is that of one of several rules. -/
def isAmong (rules : List Rule) (id : Text) : Bool := (rules.map Rule.id).contains id

/-- The rules of a row that are in its front, by their names. -/
theorem filter_of_append {ran left : List Rule} (hids : ((ran ++ left).map Rule.id).Nodup) :
    ((ran ++ left).filter fun r => isAmong ran r.id) = ran ∧
      ((ran ++ left).filter fun r => !isAmong ran r.id) = left := by
  have hran : ∀ r ∈ ran, isAmong ran r.id = true := fun r hr =>
    List.contains_iff_mem.mpr (List.mem_map_of_mem hr)
  have hleft : ∀ r ∈ left, isAmong ran r.id = false := by
    intro r hr
    rw [List.map_append] at hids
    refine Bool.eq_false_iff.mpr fun hmem => ?_
    exact (List.nodup_append.mp hids).2.2 r.id (List.contains_iff_mem.mp hmem) r.id
      (List.mem_map_of_mem hr) rfl
  rw [List.filter_append, List.filter_append]
  constructor
  · rw [List.filter_eq_self.mpr hran, List.filter_eq_nil_iff.mpr (by simpa using hleft),
      List.append_nil]
  · rw [List.filter_eq_nil_iff.mpr (by simpa using hran),
      List.filter_eq_self.mpr (by simpa using hleft), List.nil_append]

theorem all_isAmong {ran left : List Rule} (hids : ((ran ++ left).map Rule.id).Nodup) :
    ((ran ++ left).all fun r => isAmong ran r.id) = left.isEmpty := by
  have hskipped := isEmpty_skipped (ran ++ left) (isAmong ran)
  rw [(filter_of_append hids).2, List.isEmpty_map] at hskipped
  exact hskipped.symm

/-- The report on a front of the rules that has run in order. -/
theorem merges_of_append (instructions : List Instruction) {ran left : List Rule}
    (hids : ((ran ++ left).map Rule.id).Nodup)
    (htimeout : timeoutId ∉ (ran ++ left).map Rule.id) (limit source : Text) :
    let r := reportOf ((ran ++ left).map Rule.id) limit source (ran.map (Rule.outcome instructions))
    (r.results.entries = ran.map (Rule.entry instructions) ++
      if left.isEmpty then [] else [(timeoutId, [timeoutFinding limit r.skipped])]) ∧
    r.skipped = left.map Rule.id ∧ (r.timedOut = true ↔ left ≠ []) := by
  have hmerges : Merges (ran ++ left) instructions (isAmong ran) limit
      (reportOf ((ran ++ left).map Rule.id) limit source (ran.map (Rule.outcome instructions))) :=
    merges_reportOf hids htimeout (by rw [(filter_of_append hids).1]) limit source
  have hresults := hmerges.results
  have hskipped := hmerges.skipped
  rw [(filter_of_append hids).1, all_isAmong hids] at hresults
  rw [(filter_of_append hids).2] at hskipped
  exact ⟨hresults, hskipped, by rw [hmerges.timedOut, hskipped, ne_eq, List.map_eq_nil_iff]⟩

theorem map_id_inspector {m : Type → Type} [Monad m] (rules : List Rule) :
    (rules.map Rule.inspector : List (Inspector m)).map Inspector.id = rules.map Rule.id := by
  rw [List.map_map]
  rfl

theorem ids_of_inspectors {m : Type → Type} [Monad m] {e : Engine m}
    (he : e.inspectors = rules.map Rule.inspector) : e.ids = rules.map Rule.id := by
  rw [ids, he, map_id_inspector]

end Merging

/-! ## Running -/

/-- A run to which the deadline leaves any time reports on the rules that it completes. -/
theorem run_eq_map_complete {m : Type → Type} [Monad m] [LawfulMonad m] {τ : Type} [Duration τ]
    (e : Engine m) (clock : m τ) {deadline : Option τ}
    (hdeadline : ∀ limit ∈ deadline, Duration.le limit Duration.zero = false) (source : Text)
    (instructions : List Instruction) (schedule : Schedule) :
    e.run clock deadline source instructions schedule =
      (fun completed => .ok
        ⟨reportOf e.ids (deadlineText deadline) source completed,
          logOf e.ids (deadlineText deadline) completed⟩) <$>
        e.complete clock deadline instructions schedule := by
  have hfilter : (deadline.filter fun d => Duration.le d Duration.zero) = none :=
    Option.filter_eq_none_iff.mpr fun limit hlimit => by simp [hdeadline limit hlimit]
  rw [run, hfilter, map_eq_pure_bind]

/-! ## Rules on threads -/

section Threads

variable {m : Type → Type} {τ : Type}

theorem inOrder_perm (names : List Text) (inspectors : List (Inspector m)) :
    (inOrder names inspectors).Perm inspectors := by
  induction names generalizing inspectors with
  | nil => exact List.Perm.refl _
  | cons id names ih =>
    exact ((ih _).append_left _).trans
      (List.filter_append_perm (fun i : Inspector m => decide (i.id = id)) _)

/-- The rules that are done when a wait ends, in the order in which they were. -/
theorem exists_forall₂_inOrder {R : Inspector m → Rule → Prop} (hname : ∀ i r, R i r → i.id = r.id)
    {inspectors : List (Inspector m)} {rules : List Rule} (h : List.Forall₂ R inspectors rules)
    (done : Text → Bool) (names : List Text) : ∃ order : List Rule,
      order.Perm (rules.filter fun r => done r.id) ∧
      List.Forall₂ R (inOrder names (inspectors.filter fun i => done i.id)) order := by
  have hfilter : List.Forall₂ R (inspectors.filter fun i => done i.id)
      (rules.filter fun r => done r.id) :=
    List.rel_filter (fun i r hir => by simp only [hname i r hir]) h
  obtain ⟨order, horder, hperm⟩ := List.perm_comp_forall₂ (inOrder_perm names _) hfilter
  exact ⟨order, hperm, horder⟩

variable [Monad m] [LawfulMonad m]

theorem runAll_rules (instructions : List Instruction) (rules : List Rule) :
    runAll instructions (rules.map Rule.inspector) =
      (pure (rules.map (Rule.outcome instructions)) : m Completed) := by
  rw [runAll, List.mapM_map]
  simp only [Rule.inspector, Function.comp_def, pure_bind, List.mapM_pure]
  rfl

/-- Threads come to the rules that are done when the wait for them ends, in some order. -/
theorem exists_runThreaded (deadline : Option τ) (schedule : Schedule)
    (instructions : List Instruction) (rules : List Rule) : ∃ completed : Completed,
      completed.Perm ((rules.filter fun r =>
        isDone deadline (schedule (rules.map Rule.id)) r.id).map (Rule.outcome instructions)) ∧
      runThreaded deadline schedule instructions (rules.map Rule.inspector) =
        (pure completed : m Completed) := by
  have hrules : List.Forall₂ (fun (i : Inspector m) r => i = r.inspector)
      (rules.map Rule.inspector) rules :=
    List.forall₂_map_left_iff.mpr (List.forall₂_same.mpr fun _ _ => rfl)
  obtain ⟨order, hperm, horder⟩ := exists_forall₂_inOrder (fun i r hir => by rw [hir]; rfl) hrules
    (isDone deadline (schedule (rules.map Rule.id))) (schedule (rules.map Rule.id))
  have heq : inOrder (schedule (rules.map Rule.id)) ((rules.map Rule.inspector).filter fun i =>
      isDone deadline (schedule (rules.map Rule.id)) i.id) =
        (order.map Rule.inspector : List (Inspector m)) := by
    rwa [← List.forall₂_eq_eq_eq, List.forall₂_map_right_iff]
  refine ⟨order.map (Rule.outcome instructions), hperm.map _, ?_⟩
  rw [runThreaded, map_id_inspector, heq, runAll_rules]

variable [Duration τ] {e : Engine m} {rules : List Rule}

/-- An engine with threads reports on the rules that are done when its wait for them ends. -/
theorem exists_run_threaded (he : e.inspectors = rules.map Rule.inspector)
    (hworkers : e.workers ≠ some 1) (clock : m τ) {deadline : Option τ}
    (hdeadline : ∀ limit ∈ deadline, Duration.le limit Duration.zero = false) (source : Text)
    (instructions : List Instruction) (schedule : Schedule) : ∃ completed : Completed,
      completed.Perm ((rules.filter fun r =>
        isDone deadline (schedule e.ids) r.id).map (Rule.outcome instructions)) ∧
      e.run clock deadline source instructions schedule = pure (.ok
        ⟨reportOf e.ids (deadlineText deadline) source completed,
          logOf e.ids (deadlineText deadline) completed⟩) := by
  obtain ⟨completed, hperm, hrun⟩ :=
    exists_runThreaded (m := m) deadline schedule instructions rules
  refine ⟨completed, ids_of_inspectors he ▸ hperm, ?_⟩
  rw [run_eq_map_complete e clock hdeadline, complete, if_neg hworkers, he, hrun, map_pure]

/-! ## Running without a deadline -/

/-- What an engine without a deadline asks of its clock: a single worker looks at it once. -/
def glance (workers : Option Nat) (clock : m τ) : m Unit :=
  if workers = some 1 then (fun _ => ()) <$> clock else pure ()

/-- If the time is never up, all rules run. -/
theorem runWhile_never (instructions : List Instruction) (inspectors : List (Inspector m)) :
    runWhile (pure false) instructions inspectors = runAll instructions inspectors := by
  induction inspectors with
  | nil => rfl
  | cons i inspectors ih =>
    rw [runWhile, runAll, List.mapM_cons, ← runAll, ← ih]
    simp

/-- Without a deadline a single worker looks at the clock once and then runs all rules. -/
theorem complete_untimed (hworkers : e.workers = some 1) (clock : m τ)
    (instructions : List Instruction) (schedule : Schedule) :
    e.complete clock none instructions schedule =
      glance e.workers clock >>= fun _ => runAll instructions e.inspectors := by
  rw [complete, if_pos hworkers, glance, if_pos hworkers, bind_map_left]
  exact bind_congr fun _ => runWhile_never instructions e.inspectors

/-- Without a deadline an engine reports on all its rules, whatever the number of workers and the
order in which they are done. -/
theorem exists_run_untimed (he : e.inspectors = rules.map Rule.inspector) (clock : m τ)
    (source : Text) (instructions : List Instruction) (schedule : Schedule) :
    ∃ completed : Completed, completed.Perm (rules.map (Rule.outcome instructions)) ∧
      e.run clock none source instructions schedule =
        (fun _ => .ok ⟨reportOf e.ids [] source completed, logOf e.ids [] completed⟩) <$>
          glance e.workers clock := by
  by_cases hworkers : e.workers = some 1
  · refine ⟨_, List.Perm.refl _, ?_⟩
    rw [run_eq_map_complete e clock (by simp), complete_untimed hworkers, he, runAll_rules,
      map_bind]
    simp only [map_pure, bind_pure_comp]
    rfl
  · have hnever : ∀ limit ∈ (none : Option τ), Duration.le limit Duration.zero = false := by simp
    obtain ⟨completed, hperm, hrun⟩ :=
      exists_run_threaded he hworkers clock hnever source instructions schedule
    have hall : (rules.filter fun r => isDone (none : Option τ) (schedule e.ids) r.id) = rules :=
      List.filter_true rules
    rw [hall] at hperm
    exact ⟨completed, hperm, by rw [hrun, glance, if_neg hworkers, map_pure]; rfl⟩

end Threads

end Engine

end Drydock
