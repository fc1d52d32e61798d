/-
  What a whole analysis reports. An engine that could be built runs just the rules it was given
  (`inspectors_of_build`); the unknown keywords stand in front of them (`entries_withWarnings`).
  Hence every finding is explained by its name and its line (`analyze_explained`).
-/
import Drydock.Proofs.Dockerfile.Origin
import Drydock.Proofs.Engine.Report
import Drydock.Proofs.Rule.Registry
import Drydock.Seconds

namespace Drydock.Engine

/-! ## Engines that are built -/

section Building

variable {m : Type → Type} {τ : Type} {e built : Engine m} {inspectors : List (Inspector m)}

theorem inspectors_of_foldlM
    (h : (inspectors.foldlM register e : Except (EngineError τ) (Engine m)) = .ok built) :
    built.inspectors = e.inspectors ++ inspectors := by
  induction inspectors generalizing e with
  | nil =>
    obtain rfl := Except.ok.inj h
    exact (List.append_nil _).symm
  | cons i inspectors ih =>
    rw [List.foldlM_cons] at h
    obtain ⟨next, hnext, h⟩ := exists_of_bind_eq_ok h
    unfold register at hnext
    split at hnext
    · exact absurd hnext (by simp)
    · obtain rfl := Except.ok.inj hnext
      rw [ih h, List.append_assoc, List.singleton_append]

/-- An engine runs the rules that it was built from. -/
theorem inspectors_of_build {workers : Option Int}
    (h : (build inspectors workers : Except (EngineError τ) (Engine m)) = .ok built) :
    built.inspectors = inspectors := by
  unfold build at h
  split at h
  · exact absurd h (by simp)
  · exact inspectors_of_foldlM h

theorem exists_foldlM_register (hids : (e.ids ++ inspectors.map Inspector.id).Nodup) :
    ∃ built : Engine m, (inspectors.foldlM register e : Except (EngineError τ) _) = .ok built ∧
      built.workers = e.workers := by
  induction inspectors generalizing e with
  | nil => exact ⟨e, rfl, rfl⟩
  | cons i inspectors ih =>
    have hfresh : i.id ∉ e.ids := fun hmem =>
      List.disjoint_of_nodup_append hids hmem List.mem_cons_self
    rw [List.foldlM_cons, register, dif_neg hfresh]
    refine ih ?_
    rw [ids, List.map_append, List.map_singleton, List.append_assoc, List.singleton_append]
    exact hids

theorem checkWorkers_of_one_le {workers : Option Int} (h : ∀ count ∈ workers, 1 ≤ count) :
    (checkWorkers workers : Except (EngineError τ) _) = .ok (workers.map Int.toNat) := by
  cases workers with
  | none => rfl
  | some count => exact if_neg (Int.not_lt.mpr (h count rfl))

theorem checkWorkers_of_lt_one {count : Int} (h : count < 1) :
    checkWorkers (some count) = (.error (.tooFewWorkers count) : Except (EngineError τ) _) :=
  if_pos h

theorem build_of_one_le {workers : Option Int} (h : ∀ count ∈ workers, 1 ≤ count) :
    (build inspectors workers : Except (EngineError τ) (Engine m)) =
      inspectors.foldlM register (empty (workers.map Int.toNat)) := by
  rw [build, checkWorkers_of_one_le h]

theorem build_of_lt_one {count : Int} (h : count < 1) :
    (build inspectors (some count) : Except (EngineError τ) (Engine m)) =
      .error (.tooFewWorkers count) := by
  rw [build, checkWorkers_of_lt_one h]

/-- An engine can be built of rules no two of which have one name, for one worker or more. -/
theorem exists_build {workers : Option Int} (hids : (inspectors.map Inspector.id).Nodup)
    (hworkers : ∀ count ∈ workers, 1 ≤ count) :
    ∃ e : Engine m, (build inspectors workers : Except (EngineError τ) _) = .ok e ∧
      e.workers = workers.map Int.toNat := by
  rw [build_of_one_le hworkers]
  exact exists_foldlM_register hids

theorem one_le_workers_of_build {workers : Option Int}
    (h : (build inspectors workers : Except (EngineError τ) (Engine m)) = .ok built) :
    ∀ count ∈ workers, 1 ≤ count := by
  rintro count rfl
  by_contra hcount
  rw [build_of_lt_one (Int.not_le.mp hcount)] at h
  exact absurd h (by simp)

/-- Whether an engine can be built depends on the names of its rules only. -/
theorem exists_build_of_ids {others : List (Inspector m)} {workers : Option Int}
    (h : (build inspectors workers : Except (EngineError τ) (Engine m)) = .ok e)
    (hids : others.map Inspector.id = inspectors.map Inspector.id) :
    ∃ e' : Engine m, (build others workers : Except (EngineError τ) (Engine m)) = .ok e' ∧
      e'.workers = e.workers := by
  have hworkers := one_le_workers_of_build h
  have hdistinct : (inspectors.map Inspector.id).Nodup := inspectors_of_build h ▸ e.distinct
  obtain ⟨e', hbuild, hcount⟩ := exists_build (hids ▸ hdistinct) hworkers
  obtain ⟨same, hsame, hcount'⟩ := exists_build hdistinct hworkers
  have heq : same = e := Except.ok.inj (hsame.symm.trans h)
  exact ⟨e', hbuild, hcount.trans (heq ▸ hcount'.symm)⟩

end Building

/-! ## Unknown keywords -/

theorem entries_withWarnings (warnings : List UnknownKeyword) {r : Report}
    (h : unknownInstructionId ∉ r.results.keys) :
    (withWarnings warnings r).results.entries =
      (if warnings.isEmpty then []
        else [(unknownInstructionId, unknownInstructionFindings warnings)]) ++
        r.results.entries := by
  unfold withWarnings
  split
  · rfl
  · exact OrderedMap.entries_ofList (List.nodup_cons.mpr ⟨h, r.results.distinct⟩)

/-- A finding is about the unknown keyword of a step. -/
def IsAboutUnknown (f : Finding) (i : Instruction) : Prop :=
  ∃ keyword, Dockerfile.opcodeOf keyword = i.opcode ∧
    f = ⟨unknownInstructionId, .warning, i.line, UnknownKeyword.message ⟨i.line, keyword⟩⟩

/-- The findings about unknown keywords are about the steps that no builder knows, in order. -/
theorem forall₂_unknownInstructionFindings {t : Text} {d : Dockerfile}
    (h : Dockerfile.parse t = .ok d) :
    List.Forall₂ IsAboutUnknown (unknownInstructionFindings d.warnings)
      (d.instructions.filter fun i => !i.opcode.isKnown) := by
  have hsubjects := Dockerfile.subject_warnings_ofLines h
  rw [← List.forall₂_eq_eq_eq, List.forall₂_map_left_iff, List.forall₂_map_right_iff] at hsubjects
  rw [unknownInstructionFindings, List.forall₂_map_left_iff]
  refine hsubjects.imp fun w i hw => ?_
  obtain ⟨hline, hopcode⟩ := Prod.mk.inj hw
  exact ⟨w.keyword, hopcode, by rw [← hline]⟩

theorem isEmpty_warnings_iff {t : Text} {d : Dockerfile} (h : Dockerfile.parse t = .ok d) :
    d.warnings.isEmpty = true ↔ ∀ i ∈ d.instructions, i.opcode.isKnown = true := by
  have hsubjects := Dockerfile.subject_warnings_ofLines h
  rw [List.isEmpty_iff, ← List.map_eq_nil_iff, hsubjects, List.map_eq_nil_iff,
    List.filter_eq_nil_iff]
  simp

/-! ## All findings -/

/-- What a finding under a name may be: one about an unknown keyword, one about a rule that failed,
or one that a rule makes with the severity it has and at a line that it looks at. -/
def IsExplained (s : Selection) (rules : List Rule) (instructions : List Instruction) (id : Text)
    (f : Finding) : Prop :=
  (id = unknownInstructionId ∧ f.severity = .warning ∧
    ∃ i ∈ instructions, i.opcode.isKnown = false ∧ f.line = i.line) ∨
  (f.severity = .error ∧ f.line = 0 ∧ ∃ r ∈ rules, r.id = id ∧
    ∃ fault, r.inspect instructions = .error fault ∧ f = faultFinding id fault) ∨
  ∃ info ∈ Registry.infos, info.id = id ∧ f.severity = s.effective info ∧
    ∃ scope, (id, scope) ∈ Registry.scopes ∧ scope.Admits instructions f.line

variable {s : Selection} {o : RuleOptions} {rules : List Rule}

theorem isExplained_of_mem_entry (h : s.rules o = .ok rules) (instructions : List Instruction)
    {r : Rule} (hr : r ∈ rules) {f : Finding} (hf : f ∈ (r.entry instructions).2) :
    f.ruleId = r.id ∧ IsExplained s rules instructions r.id f := by
  unfold Rule.entry at hf
  cases hinspect : r.inspect instructions with
  | error fault =>
    rw [hinspect] at hf
    obtain rfl := List.mem_singleton.mp hf
    exact ⟨rfl, Or.inr (Or.inl ⟨rfl, rfl, r, hr, rfl, fault, hinspect, rfl⟩)⟩
  | ok findings =>
    rw [hinspect] at hf
    obtain ⟨info, hinfo, hmatches⟩ := Selection.exists_info_of_mem h hr
    obtain ⟨scope, hscope, hwithin⟩ := hmatches.scope
    obtain ⟨hid, hseverity, hadmits⟩ := hwithin instructions findings hinspect f hf
    exact ⟨hid, Or.inr (Or.inr ⟨info, hinfo, hmatches.id.symm,
      hseverity.trans hmatches.severity, scope, hmatches.id ▸ hscope, hadmits⟩)⟩

theorem not_mem_ids_of_reserved {id : Text} (hid : id ∉ Registry.ids) (h : s.rules o = .ok rules) :
    id ∉ rules.map Rule.id := by
  rw [Selection.map_id_rules h]
  exact fun hmem => hid (List.mem_filter.mp hmem).1

theorem nodup_ids_of_rules (h : s.rules o = .ok rules) : (rules.map Rule.id).Nodup := by
  rw [Selection.map_id_rules h]
  exact Registry.nodup_ids.filter _

/-- The report on rules all of which have run: the unknown keywords, then the rules. -/
theorem entries_of_all (h : s.rules o = .ok rules) (d : Dockerfile) (limit source : Text) :
    (withWarnings d.warnings (reportOf (rules.map Rule.id) limit source
      (rules.map (Rule.outcome d.instructions)))).results.entries =
        (if d.warnings.isEmpty then []
          else [(unknownInstructionId, unknownInstructionFindings d.warnings)]) ++
          rules.map (Rule.entry d.instructions) := by
  have hentries : (reportOf (rules.map Rule.id) limit source
      (rules.map (Rule.outcome d.instructions))).results.entries =
        rules.map (Rule.entry d.instructions) :=
    (entries_reportOf_all (nodup_ids_of_rules h) limit source).1
  rw [entries_withWarnings, hentries]
  rw [OrderedMap.keys, hentries, map_fst_entry]
  exact not_mem_ids_of_reserved (by decide) h

/-- Without a deadline an analysis reports on all rules, in whatever order they are done. -/
theorem analyze_without_deadline {m : Type → Type} [Monad m] [LawfulMonad m] {τ : Type}
    [Duration τ] {e : Engine m} (he : e.inspectors = rules.map Rule.inspector) (clock : m τ)
    (source : Text) (d : Dockerfile) (schedule : Schedule) : ∃ log,
    e.analyze clock none source d schedule =
      (fun _ => .ok
        ⟨withWarnings d.warnings (reportOf (rules.map Rule.id) [] source
          (rules.map (Rule.outcome d.instructions))), log⟩) <$> glance e.workers clock := by
  have hnames := ids_of_inspectors he
  obtain ⟨completed, hperm, hrun⟩ :=
    exists_run_untimed he clock source d.instructions schedule
  rw [analyze, hrun, hnames, reportOf_of_perm (nodup_fst_of_perm (hnames ▸ e.distinct) hperm) hperm]
  exact ⟨_, by simp [Except.map]; rfl⟩

/--
Every finding of an analysis without a deadline stands under its own name and is explained there.
The findings about unknown keywords are one for each step that no builder knows, in order, and come
first, if there is such a step; behind them come the wanted rules in the order of the registry.
-/
theorem analyze_explained {m : Type → Type} [Monad m] [LawfulMonad m] {τ : Type} [Duration τ]
    {t : Text} {d : Dockerfile} (hparse : Dockerfile.parse t = .ok d)
    (hrules : s.rules o = .ok rules) {workers : Option Int} {e : Engine m}
    (hbuild : (build (rules.map Rule.inspector) workers : Except (EngineError τ) _) = .ok e)
    (clock : m τ) (source : Text) (schedule : Schedule) : ∃ run : Run,
    e.analyze clock none source d schedule = (fun _ => .ok run) <$> glance e.workers clock ∧
    (∀ entry ∈ run.report.results.entries, ∀ f ∈ entry.2,
      f.ruleId = entry.1 ∧ IsExplained s rules d.instructions entry.1 f) ∧
    (unknownInstructionId ∈ run.report.results.keys ↔
      ∃ i ∈ d.instructions, i.opcode.isKnown = false) ∧
    ∃ unknown : List Finding,
      List.Forall₂ IsAboutUnknown unknown (d.instructions.filter fun i => !i.opcode.isKnown) ∧
      run.report.results.entries =
        (if unknown.isEmpty then [] else [(unknownInstructionId, unknown)]) ++
          rules.map (Rule.entry d.instructions) ∧
      rules.map Rule.id = Registry.ids.filter s.wants := by
  obtain ⟨log, hanalyze⟩ :=
    analyze_without_deadline (inspectors_of_build hbuild) clock source d schedule
  have hentries := entries_of_all hrules d [] source
  have hunknown := forall₂_unknownInstructionFindings hparse
  refine ⟨_, hanalyze, ?_, ?_, _, hunknown, ?_, Selection.map_id_rules hrules⟩
  · intro entry hentry f hf
    rw [hentries] at hentry
    rcases List.mem_append.mp hentry with hentry | hentry
    · split at hentry
      · exact absurd hentry List.not_mem_nil
      · obtain rfl := List.mem_singleton.mp hentry
        obtain ⟨i, hi, keyword, -, rfl⟩ := exists_left_of_forall₂ hunknown.flip hf
        obtain ⟨hmem, hkind⟩ := List.mem_filter.mp hi
        exact ⟨rfl, Or.inl ⟨rfl, rfl, i, hmem, by simpa using hkind, rfl⟩⟩
    · obtain ⟨r, hr, rfl⟩ := List.mem_map.mp hentry
      exact isExplained_of_mem_entry hrules d.instructions hr hf
  · have hreserved : unknownInstructionId ∉ rules.map Rule.id :=
      not_mem_ids_of_reserved (by decide) hrules
    rw [OrderedMap.keys, hentries, List.map_append, map_fst_entry, List.mem_append,
      or_iff_left hreserved]
    have hnone := isEmpty_warnings_iff hparse
    by_cases hempty : d.warnings.isEmpty = true
    · simpa [hempty] using hnone.mp hempty
    · simpa [hempty] using mt hnone.mpr hempty
  · rw [hentries, unknownInstructionFindings, List.isEmpty_map]

/-- A keyword that no builder knows, a rule that fails, and one that is given another severity. -/
theorem analyze_explained_of_failing_rule :
    ∃ (d : Dockerfile) (s : Selection) (o : RuleOptions) (rules : List Rule) (run : Run),
      Dockerfile.parse "FROM a\nTry x\n" = .ok d ∧ s.rules o = .ok rules ∧
      run.report.results.keys =
        (["unknown-instruction", "non-root-user", "dockerignore-present"] : List Text) ∧
      ∀ entry ∈ run.report.results.entries, ∀ f ∈ entry.2,
        f.ruleId = entry.1 ∧ IsExplained s rules d.instructions entry.1 f := by
  let d : Dockerfile :=
    { instructions :=
        [{ opcode := .base, arguments := ["a"], line := 1, endLine := 1, raw := "a" },
          { opcode := .other "TRY", arguments := ["x"], line := 2, endLine := 2, raw := "x" }]
      warnings := [⟨2, "Try"⟩]
      escape := .backslash }
  let s : Selection :=
    { enable := some ["non-root-user", "dockerignore-present"]
      severity := .ofList [("non-root-user", "Info")] }
  let o : RuleOptions := { search := { dockerfile := some (Path.ofText "/") } }
  let rules : List Rule := [Rule.nonRootUser.withSeverity .info, Rule.dockerignorePresent o.search]
  let e : Engine Id := ⟨rules.map Rule.inspector, by decide, some 2⟩
  have hparse : Dockerfile.parse "FROM a\nTry x\n" = .ok d := by decide +kernel
  have hrules : s.rules o = .ok rules := by
    have hknown : s.unknown.isEmpty = true := by decide +kernel
    rw [Selection.rules, if_pos hknown]
    rfl
  have hbuild : build (rules.map Rule.inspector) (some 2) =
      (.ok e : Except (EngineError Float) (Engine Id)) := rfl
  obtain ⟨run, -, hfindings, -, unknown, hunknown, hentries, -⟩ :=
    analyze_explained hparse hrules hbuild (pure 0.0) "<text>" List.reverse
  refine ⟨d, s, o, rules, run, hparse, hrules, ?_, hfindings⟩
  cases hunknown with
  | cons _ _ =>
    rw [OrderedMap.keys, hentries]
    rfl

end Drydock.Engine
