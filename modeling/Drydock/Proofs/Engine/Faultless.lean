/-
  Runs without faults. No rule of a selection raises one, so no report on such rules tells of a
  failed rule and none is noted, whatever the deadline, the number of workers and the order in which
  threads are done (`analyze_faultless`).
-/
import Drydock.Proofs.Engine.Aggregation
import Drydock.Proofs.Rule.Faultless
import Drydock.Seconds

namespace Drydock.Engine

variable {rules : List Rule} {instructions : List Instruction} {f : Finding}

theorem mem_foundBy_iff :
    f ∈ foundBy instructions rules ↔ ∃ r ∈ rules, f ∈ (r.entry instructions).2 := by
  induction rules with
  | nil => simp [foundBy]
  | cons r rules ih =>
    rw [foundBy, List.map_cons, List.sum_cons, Multiset.mem_add, Multiset.mem_coe, ← foundBy, ih]
    simp only [List.mem_cons, exists_eq_or_imp]

/-- The engine has nothing of its own to say that reads as if a rule had failed. -/
theorem not_tellsOfFault_of_unknown {warnings : List UnknownKeyword}
    (h : f ∈ unknownInstructionFindings warnings) : f.tellsOfFault = false := by
  obtain ⟨w, -, rfl⟩ := List.mem_map.mp h
  exact Finding.not_tellsOfFault_of_head (Text.head?_append_ne (by decide) _)

theorem not_tellsOfFault_timeout (deadline : Text) (skipped : List Text) :
    (timeoutFinding deadline skipped).tellsOfFault = false :=
  Finding.not_tellsOfFault_of_head (Text.head?_concat_ne (by decide) _)

theorem not_tellsOfFault_of_found {d : Dockerfile} {finished : Text → Bool} {limit : Text}
    (hrules : ∀ r ∈ rules, r.IsFaultless) (hf : f ∈ found d rules finished limit) :
    f.tellsOfFault = false := by
  rw [found, Multiset.mem_add, Multiset.mem_add, Multiset.mem_coe] at hf
  rcases hf with (hunknown | hrule) | htimeout
  · exact not_tellsOfFault_of_unknown hunknown
  · obtain ⟨r, hr, hmem⟩ := mem_foundBy_iff.mp hrule
    obtain ⟨findings, hinspect, hplain⟩ := hrules r (List.mem_filter.mp hr).1 d.instructions
    rw [Rule.entry, hinspect] at hmem
    exact hplain f hmem
  · split at htimeout
    · exact absurd htimeout (Multiset.notMem_zero f)
    · rw [Multiset.mem_singleton.mp htimeout]
      exact not_tellsOfFault_timeout _ _

/-- Nothing is noted about failed rules. -/
theorem ruleFailed_not_mem_logOf {completed : Completed}
    (h : ∀ outcome ∈ completed, ∃ findings, outcome.2 = .ok findings) (ids : List Text)
    (limit id : Text) (fault : Fault) :
    LogEntry.ruleFailed id fault ∉ logOf ids limit completed := by
  intro hmem
  rcases List.mem_append.mp hmem with hfailed | hskipped
  · obtain ⟨⟨name, inspection⟩, houtcome, hnote⟩ := List.mem_filterMap.mp hfailed
    obtain ⟨findings, rfl⟩ := h _ houtcome
    exact absurd hnote (by simp)
  · split at hskipped
    · exact absurd hskipped List.not_mem_nil
    · exact absurd (List.mem_singleton.mp hskipped) (by simp)

theorem inspect_eq_ok_of_mem_outcomes (hrules : ∀ r ∈ rules, r.IsFaultless)
    {outcome : Text × Inspection} (h : outcome ∈ rules.map (Rule.outcome instructions)) :
    ∃ findings, outcome.2 = .ok findings := by
  obtain ⟨r, hr, rfl⟩ := List.mem_map.mp h
  obtain ⟨findings, hinspect, -⟩ := hrules r hr instructions
  exact ⟨findings, hinspect⟩

/-- Whichever rules have finished, and in whatever order, the report tells of no failed rule. -/
theorem not_tellsOfFault_of_reportOn {d : Dockerfile} (hrules : ∀ r ∈ rules, r.IsFaultless)
    (hids : (rules.map Rule.id).Nodup) {finished : Text → Bool} {completed : Completed}
    (hperm : completed.Perm
      ((rules.filter fun r => finished r.id).map (Rule.outcome d.instructions)))
    {limit source : Text}
    (hf : f ∈ (reportOn d (rules.map Rule.id) limit source completed).findings) :
    f.tellsOfFault = false := by
  have hfound : f ∈ found d rules finished limit := by
    rw [← findings_reportOn hids hperm limit source]
    exact Multiset.mem_add.mpr (Or.inl (Multiset.mem_coe.mpr hf))
  exact not_tellsOfFault_of_found hrules hfound

section Analyses

variable {m : Type → Type} [Monad m] [LawfulMonad m] {τ : Type} [Duration τ]

/-- In whatever way an engine runs, what it completes are some of its rules in some order. -/
theorem exists_complete_eq {e : Engine m} (he : e.inspectors = rules.map Rule.inspector)
    (clock : m τ) (deadline : Option τ) (instructions : List Instruction) (schedule : Schedule) :
    ∃ (count : m Nat) (completed : Nat → Completed),
      e.complete clock deadline instructions schedule = completed <$> count ∧
      ∀ k, ∃ finished : Text → Bool, (completed k).Perm
        ((rules.filter fun r => finished r.id).map (Rule.outcome instructions)) := by
  have hperforms := he ▸ performs_inspectors instructions rules
  have hids : (rules.map Rule.id).Nodup := ids_of_inspectors he ▸ e.distinct
  by_cases hworkers : e.workers = some 1
  · obtain ⟨count, hcount⟩ :=
      exists_complete_of_worker hperforms hworkers clock deadline schedule
    exact ⟨count, _, hcount, fun k => ⟨_, perm_take hids instructions k⟩⟩
  · obtain ⟨work, completed, hperm, hwork⟩ :=
      exists_complete_of_threads hperforms hworkers clock deadline schedule
    refine ⟨(fun _ => 0) <$> work, fun _ => completed, ?_, fun _ => ⟨_, hperm⟩⟩
    rw [hwork, Functor.map_map]

/--
Every rule can be made, if the threshold is a share, and comes to findings whatever the steps are,
if the path of the Dockerfile, when it is known, ends in a name and every path can be looked at. So
no report on the rules of a selection tells of a failed rule, whichever of them have finished and in
whatever order, and an analysis notes none.
-/
theorem analyze_faultless {o : RuleOptions} (hlow : 0.0 ≤ o.threshold) (hhigh : o.threshold ≤ 1.0)
    (hname : ∀ p ∈ o.search.dockerfile, p.name ≠ []) (hlook : ∀ p, o.search.fault? p = none)
    (d : Dockerfile) :
    (∀ entry ∈ Registry.entries, ∃ r, entry.build o = .ok r ∧
      ∃ findings, r.inspect d.instructions = .ok findings) ∧
    ∀ (s : Selection) (rules : List Rule), s.rules o = .ok rules →
      (∀ r ∈ rules, ∃ findings, r.inspect d.instructions = .ok findings) ∧
      ∀ e : Engine m, e.inspectors = rules.map Rule.inspector →
        (∀ (finished : Text → Bool) (completed : Completed) (limit source : Text),
          completed.Perm
            ((rules.filter fun r => finished r.id).map (Rule.outcome d.instructions)) →
          ∀ f ∈ (reportOn d e.ids limit source completed).findings, f.tellsOfFault = false) ∧
        ∀ (clock : m τ) (deadline : Option τ) (source : Text) (schedule : Schedule),
          (∀ limit ∈ deadline, Duration.le limit Duration.zero = false) →
          ∃ (count : m Nat) (run : Nat → Run),
            e.analyze clock deadline source d schedule = (fun k => .ok (run k)) <$> count ∧
            ∀ k, (∀ f ∈ (run k).report.findings, f.tellsOfFault = false) ∧
              ∀ id fault, LogEntry.ruleFailed id fault ∉ (run k).log := by
  have hsearch : o.search.IsPossible := ⟨hname, hlook⟩
  have hshare : Rule.isShare o.threshold = true := by
    rw [Rule.isShare, decide_eq_true hlow, decide_eq_true hhigh, Bool.true_and]
  refine ⟨fun entry hentry => ?_, fun s rules hrules => ?_⟩
  · obtain ⟨r, hr⟩ := Registry.exists_build hshare hentry
    obtain ⟨findings, hinspect, -⟩ :=
      (Registry.makes_of_build hentry hr).isFaultless hsearch d.instructions
    exact ⟨r, hr, findings, hinspect⟩
  have hfaultless := Selection.isFaultless_of_rules hsearch hrules
  refine ⟨fun r hr => ?_, fun e he => ?_⟩
  · obtain ⟨findings, hinspect, -⟩ := hfaultless r hr d.instructions
    exact ⟨findings, hinspect⟩
  have hnames : e.ids = rules.map Rule.id := ids_of_inspectors he
  have hids : (rules.map Rule.id).Nodup := hnames ▸ e.distinct
  rw [hnames]
  refine ⟨fun finished completed limit source hperm f hf =>
    not_tellsOfFault_of_reportOn hfaultless hids hperm hf,
    fun clock deadline source schedule hdeadline => ?_⟩
  obtain ⟨count, completed, hcomplete, hsome⟩ :=
    exists_complete_eq he clock deadline d.instructions schedule
  refine ⟨count, fun k => runOn d (rules.map Rule.id) (deadlineText deadline) source (completed k),
    ?_, fun k => ?_⟩
  · rw [analyze_eq_map_complete e clock hdeadline, hcomplete, Functor.map_map, hnames]
  · obtain ⟨finished, hperm⟩ := hsome k
    refine ⟨fun f hf => not_tellsOfFault_of_reportOn hfaultless hids hperm hf, fun id fault => ?_⟩
    refine ruleFailed_not_mem_logOf (fun outcome houtcome => ?_) _ _ id fault
    exact inspect_eq_ok_of_mem_outcomes
      (fun r hr => hfaultless r (List.mem_filter.mp hr).1) (hperm.mem_iff.mp houtcome)

end Analyses

/-- A Dockerfile whose last user is root, a threshold of a half, and no ignore file. -/
theorem analyze_faultless_of_all_rules :
    ∃ (d : Dockerfile) (o : RuleOptions) (rules : List Rule) (e : Engine Id) (run : Run),
      Dockerfile.parse "FROM a:1\nUSER root\n" = .ok d ∧ 0.0 ≤ o.threshold ∧ o.threshold ≤ 1.0 ∧
      (∀ p ∈ o.search.dockerfile, p.name ≠ []) ∧ (∀ p, o.search.fault? p = none) ∧
      ({} : Selection).rules o = .ok rules ∧ rules.map Rule.id = Registry.ids ∧
      e.inspectors = rules.map Rule.inspector ∧
      e.analyze (pure (0.0 : Float)) none "<text>" d = pure (.ok run) ∧
      ∀ f ∈ run.report.findings, f.tellsOfFault = false := by
  let d : Dockerfile :=
    { instructions :=
        [{ opcode := .base, arguments := ["a:1"], line := 1, endLine := 1, raw := "a:1" },
          { opcode := .user, arguments := ["root"], line := 2, endLine := 2, raw := "root" }]
      warnings := []
      escape := .backslash }
  let o : RuleOptions := { search := { dockerfile := some (Path.ofText "app/Dockerfile") } }
  have hlow : (0.0 : Float) ≤ o.threshold := by decide
  have hhigh : o.threshold ≤ (1.0 : Float) := by decide
  have hname : ∀ p ∈ o.search.dockerfile, p.name ≠ [] := by
    rintro p ⟨rfl⟩
    decide
  have hlook : ∀ p, o.search.fault? p = none := fun p => rfl
  obtain ⟨rules, hrules⟩ : ∃ rules, ({} : Selection).rules o = .ok rules := by
    refine Selection.exists_rules (by decide) fun error hrefused => ?_
    cases hrefused with
    | threshold _ outside => exact outside ⟨hlow, hhigh⟩
    | severity _ _ given _ => exact absurd given (by simp [OrderedMap.empty, OrderedMap.get?])
  have hids : rules.map Rule.id = Registry.ids := (Selection.map_id_rules hrules).trans (by decide)
  let e : Engine Id :=
    ⟨rules.map Rule.inspector, by rw [List.map_map]; exact hids ▸ Registry.nodup_ids, some 2⟩
  obtain ⟨count, run, hrun, hplain⟩ :=
    (((analyze_faultless hlow hhigh hname hlook d).2 {} rules hrules).2 e rfl).2
      (pure (0.0 : Float)) none "<text>" id (fun limit hlimit => absurd hlimit (by simp))
  exact ⟨d, o, rules, e, run count, by decide +kernel, hlow, hhigh, hname, hlook, hrules, hids, rfl,
    hrun, (hplain count).1⟩

end Drydock.Engine
