/-
  Given severities. They change nothing but the severity of what the rules find: a selection makes
  the same rules with and without them, up to their severities (`rules_eq_map`), and the report on
  these has the same findings under the same names, a failed rule and unknown keywords included
  (`analyze_overridden`).
-/
import Drydock.Proofs.Engine.Findings
import Drydock.Proofs.Rule.Selection

namespace Drydock

/-- A rule with another severity finds what it did, with that severity. If it is its own, it finds
just what it did, which carried this severity before. -/
theorem Rule.StaysWithin.inspect_withSeverity {scope : Scope} {r : Rule} (h : r.StaysWithin scope)
    (severity : Severity) (instructions : List Instruction) :
    (r.withSeverity severity).inspect instructions =
      (r.inspect instructions).map (·.map (Rule.relabel severity)) := by
  unfold Rule.withSeverity
  split
  · rename_i hsame
    cases hinspect : r.inspect instructions with
    | error fault => rfl
    | ok findings =>
      have hself : findings.map (Rule.relabel severity) = findings := by
        refine (List.map_congr_left fun f hf => ?_).trans (List.map_id findings)
        obtain ⟨-, hseverity, -⟩ := h instructions findings hinspect f hf
        rw [Rule.relabel, hsame, ← hseverity]
        rfl
      exact congrArg Except.ok hself.symm
  · rfl

namespace Selection

/-- The selection without the severities that it gives. -/
def plain (s : Selection) : Selection := { s with severity := .empty }

/-- The severity that a rule is given, if any. -/
def given? (s : Selection) (id : Text) : Option Severity :=
  (s.severity.get? id).bind fun name => Severity.ofName? (Text.upper name)

/-- A finding of a rule with the severity that the rule is given, or else its own. -/
def relabel (s : Selection) (id : Text) (f : Finding) : Finding :=
  { f with severity := (s.given? id).getD f.severity }

/-- A rule with the severity that it is given, or else its own. -/
def override (s : Selection) (r : Rule) : Rule := r.withSeverity ((s.given? r.id).getD r.severity)

/-- Severities are given to rules only, and they are severities. -/
def GivesSeverities (s : Selection) : Prop :=
  ∀ entry ∈ s.severity.entries, entry.1 ∈ Registry.ids ∧
    ∃ severity : Severity, severity.name = Text.upper entry.2

variable {s : Selection} {o : RuleOptions} {rules : List Rule}

theorem override_id (s : Selection) (r : Rule) : (s.override r).id = r.id :=
  Rule.withSeverity_id r _

theorem map_id_override (s : Selection) (rules : List Rule) :
    (rules.map s.override).map Rule.id = rules.map Rule.id := by
  rw [List.map_map]
  exact List.map_congr_left fun r _ => override_id s r

/-! ## The rules -/

theorem adjust_eq (h : s.GivesSeverities) (r : Rule) : s.adjust r = .ok (s.override r) := by
  unfold adjust override given?
  cases hname : s.severity.get? r.id with
  | none => exact congrArg Except.ok (if_pos rfl).symm
  | some name =>
    obtain ⟨-, severity, hseverity⟩ := h _ (OrderedMap.get?_eq_some_iff.mp hname)
    have hfound : Severity.ofName? (Text.upper name) = some severity :=
      Severity.ofName?_eq_some_iff.mpr hseverity
    dsimp only [Option.bind_some]
    rw [hfound]
    rfl

theorem unknown_plain (h : s.GivesSeverities) : s.plain.unknown = s.unknown := by
  refine Text.eq_of_pairwise_lt (pairwise_unknown _) (pairwise_unknown _) fun id => ?_
  rw [mem_unknown_iff, mem_unknown_iff]
  refine and_congr_left fun hother => ?_
  have hkeys : id ∉ s.severity.keys := by
    intro hkey
    obtain ⟨entry, hentry, rfl⟩ := List.mem_map.mp hkey
    exact hother (h entry hentry).1
  have hnone : id ∉ s.plain.severity.keys := List.not_mem_nil
  rw [mentioned, mentioned, List.mem_append, List.mem_append (t := s.severity.keys),
    or_iff_left hnone, or_iff_left hkeys]
  rfl

/-- With the severities that it gives, a selection makes the rules that it makes without them. -/
theorem rules_eq_map (h : s.GivesSeverities) (o : RuleOptions) :
    s.rules o = (s.plain.rules o).map (List.map s.override) := by
  rw [Selection.rules, Selection.rules, unknown_plain h]
  split
  · refine mapM_eq_map fun e _ => ?_
    cases e.build o with
    | error error => rfl
    | ok r => exact adjust_eq h r
  · rfl

/-! ## What they find -/

/-- What is reported of a rule when its findings take on the severity that it is given. -/
def relabelledEntry (s : Selection) (instructions : List Instruction) (r : Rule) :
    Text × List Finding :=
  match r.inspect instructions with
  | .ok findings => (r.id, findings.map (s.relabel r.id))
  | .error fault => (r.id, [Engine.faultFinding r.id fault])

theorem map_fst_relabelledEntry (s : Selection) (instructions : List Instruction)
    (rules : List Rule) :
    (rules.map (s.relabelledEntry instructions)).map Prod.fst = rules.map Rule.id := by
  rw [List.map_map]
  refine List.map_congr_left fun r _ => ?_
  dsimp only [Function.comp, relabelledEntry]
  cases r.inspect instructions <;> rfl

theorem entry_override {scope : Scope} {r : Rule} (hr : r.StaysWithin scope) (s : Selection)
    (instructions : List Instruction) :
    (s.override r).entry instructions = s.relabelledEntry instructions r := by
  unfold Rule.entry relabelledEntry
  rw [override_id, override, hr.inspect_withSeverity]
  cases hinspect : r.inspect instructions with
  | error fault => rfl
  | ok findings =>
    refine congrArg (r.id, ·) (List.map_congr_left fun f hf => ?_)
    obtain ⟨-, hseverity, -⟩ := hr instructions findings hinspect f hf
    rw [relabel, hseverity]
    rfl

theorem map_entry_override (h : s.plain.rules o = .ok rules) (instructions : List Instruction) :
    (rules.map s.override).map (Rule.entry instructions) =
      rules.map (s.relabelledEntry instructions) := by
  rw [List.map_map]
  refine List.map_congr_left fun r hr => ?_
  obtain ⟨info, -, hmatches⟩ := exists_info_of_mem h hr
  obtain ⟨scope, -, hwithin⟩ := hmatches.scope
  exact entry_override hwithin s instructions

end Selection

namespace Engine

variable {s : Selection}

/--
With valid severities a selection is refused just as it is without them, or makes the same rules. An
engine that can be built of those can be built of these, and without a deadline it reports the same
names in the same order: first the unknown keywords, if any, with the same findings; then each rule
with the same findings, of which each has the severity that the rule is given, or else its own. What
is reported of a rule that fails is the same.
-/
theorem analyze_overridden {m : Type → Type} [Monad m] [LawfulMonad m] {τ : Type} [Duration τ]
    (hseverities : s.GivesSeverities) (o : RuleOptions) (d : Dockerfile) :
    (∀ error, s.plain.rules o = .error error ↔ s.rules o = .error error) ∧
    ∀ rules, s.plain.rules o = .ok rules → ∃ rules', s.rules o = .ok rules' ∧
      ∀ (workers : Option Int) (e : Engine m),
        (build (rules.map Rule.inspector) workers : Except (EngineError τ) _) = .ok e →
        ∃ e' : Engine m,
          (build (rules'.map Rule.inspector) workers : Except (EngineError τ) _) = .ok e' ∧
          ∀ (clock : m τ) (source : Text) (schedule schedule' : Schedule), ∃ run run' : Run,
            e.analyze clock none source d schedule =
              (fun _ => .ok run) <$> glance e.workers clock ∧
            e'.analyze clock none source d schedule' =
              (fun _ => .ok run') <$> glance e.workers clock ∧
            run'.report.results.keys = run.report.results.keys ∧
            ∃ unknown : List (Text × List Finding),
              unknown = (if d.warnings.isEmpty then []
                else [(unknownInstructionId, unknownInstructionFindings d.warnings)]) ∧
              run.report.results.entries = unknown ++ rules.map (Rule.entry d.instructions) ∧
              run'.report.results.entries =
                unknown ++ rules.map (s.relabelledEntry d.instructions) := by
  have hrules := Selection.rules_eq_map hseverities o
  refine ⟨fun error => ?_, fun rules hplain => ?_⟩
  · rw [hrules]
    cases s.plain.rules o with
    | error other => exact Iff.rfl
    | ok rules => exact ⟨fun h => absurd h (by simp), fun h => absurd h (by simp [Except.map])⟩
  have hmade : s.rules o = .ok (rules.map s.override) := by
    rw [hrules, hplain]
    rfl
  refine ⟨rules.map s.override, hmade, fun workers e hbuild => ?_⟩
  have hids : ((rules.map s.override).map Rule.inspector : List (Inspector m)).map Inspector.id =
      (rules.map Rule.inspector : List (Inspector m)).map Inspector.id := by
    rw [map_id_inspector, map_id_inspector, s.map_id_override]
  obtain ⟨e', hbuild', hworkers⟩ := exists_build_of_ids hbuild hids
  refine ⟨e', hbuild', fun clock source schedule schedule' => ?_⟩
  obtain ⟨log, hrun⟩ :=
    analyze_without_deadline (inspectors_of_build hbuild) clock source d schedule
  obtain ⟨log', hrun'⟩ :=
    analyze_without_deadline (inspectors_of_build hbuild') clock source d schedule'
  have hentries := entries_of_all hplain d [] source
  have hentries' := entries_of_all hmade d [] source
  rw [Selection.map_entry_override hplain] at hentries'
  rw [hworkers] at hrun'
  refine ⟨_, _, hrun, hrun', ?_, _, rfl, hentries, hentries'⟩
  rw [OrderedMap.keys, OrderedMap.keys, hentries, hentries', List.map_append, List.map_append,
    map_fst_entry, s.map_fst_relabelledEntry]

/-- An unknown keyword, a rule that finds something with the severity it is given, and one that
fails and is given a severity as well. -/
theorem analyze_overridden_of_failing_rule :
    ∃ (d : Dockerfile) (s : Selection) (o : RuleOptions) (rules rules' : List Rule)
      (e e' : Engine Id) (run run' : Run),
      Dockerfile.parse "FROM a\nTry x\n" = .ok d ∧ s.GivesSeverities ∧
      s.plain.rules o = .ok rules ∧ s.rules o = .ok rules' ∧
      (build (rules.map Rule.inspector) (some 2) : Except (EngineError Float) _) = .ok e ∧
      (build (rules'.map Rule.inspector) (some 2) : Except (EngineError Float) _) = .ok e' ∧
      e.analyze (pure (0.0 : Float)) none "<text>" d = pure (.ok run) ∧
      e'.analyze (pure (0.0 : Float)) none "<text>" d = pure (.ok run') ∧
      run'.report.results.keys =
        (["unknown-instruction", "non-root-user", "dockerignore-present"] : List Text) ∧
      run.report.findings.map Finding.severity = [.warning, .error, .error] ∧
      run'.report.findings.map Finding.severity = [.warning, .info, .error] := by
  let d : Dockerfile :=
    { instructions :=
        [{ opcode := .base, arguments := ["a"], line := 1, endLine := 1, raw := "a" },
          { opcode := .other "TRY", arguments := ["x"], line := 2, endLine := 2, raw := "x" }]
      warnings := [⟨2, "Try"⟩]
      escape := .backslash }
  let s : Selection :=
    { enable := some ["non-root-user", "dockerignore-present"]
      severity := .ofList [("non-root-user", "Info"), ("dockerignore-present", "info")] }
  let o : RuleOptions := { search := { dockerfile := some (Path.ofText "/") } }
  let rules : List Rule := [Rule.nonRootUser, Rule.dockerignorePresent o.search]
  let e : Engine Id := ⟨rules.map Rule.inspector, by decide, some 2⟩
  have hseverities : s.GivesSeverities := by
    intro entry hentry
    have hmem : entry ∈ ([("non-root-user", "Info"), ("dockerignore-present", "info")] :
        List (Text × Text)) := hentry
    rw [List.mem_pair] at hmem
    rcases hmem with rfl | rfl <;> exact ⟨by decide, .info, by decide⟩
  have hplain : s.plain.rules o = .ok rules := by
    have hknown : s.plain.unknown.isEmpty = true := by decide +kernel
    rw [Selection.rules, if_pos hknown]
    rfl
  have hbuild : build (rules.map Rule.inspector) (some 2) =
      (.ok e : Except (EngineError Float) (Engine Id)) := rfl
  obtain ⟨rules', hrules', hengines⟩ :=
    (analyze_overridden (m := Id) (τ := Float) hseverities o d).2 rules hplain
  obtain ⟨e', hbuild', hruns⟩ := hengines (some 2) e hbuild
  obtain ⟨run, run', hrun, hrun', hkeys, unknown, rfl, hentries, hentries'⟩ :=
    hruns (pure (0.0 : Float)) "<text>" id id
  refine ⟨d, s, o, rules, rules', e, e', run, run', by decide +kernel, hseverities, hplain, hrules',
    hbuild, hbuild', hrun, hrun', ?_, ?_, ?_⟩
  · rw [hkeys, OrderedMap.keys, hentries]
    decide +kernel
  · rw [Report.findings, OrderedMap.values, hentries]
    decide +kernel
  · rw [Report.findings, OrderedMap.values, hentries']
    decide +kernel

end Engine

end Drydock
