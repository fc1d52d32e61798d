/-
  Configurations and the rules that they select. Bounds and severities are looked at when a
  configuration is read, names of rules when they are selected. What the one has accepted the other
  does not refuse (`not_isRefused_selection`), so that a configuration which is read can fail at the
  names of its rules only (`refused_iff_unknown_rule`), and a rule has the severity that was read.
-/
import Drydock.Proofs.Config.Validity
import Drydock.Proofs.Rule.Selection

namespace Drydock

/-- The word for a severity in a configuration is its name in small letters. -/
theorem Severity.upper_word (s : Severity) : Text.upper s.word = s.name := by
  cases s <;> decide

namespace Config

variable {table : Table} {source : Option Text} {c : Config} {id : Text}

/-! ## Names -/

/-- A configuration mentions a rule: it enables or disables it, or gives it a severity. -/
def Mentions (c : Config) (id : Text) : Prop :=
  id ∈ c.enable.getD [] ∨ id ∈ c.disable ∨ id ∈ c.severity.keys

theorem severity_selection (c : Config) :
    c.selection.severity = c.severity.mapValues Severity.word := by
  have hkeys : (c.severityWords.map Prod.fst).Nodup := by
    rw [severityWords, List.map_map]
    exact c.severity.distinct
  exact OrderedMap.ext (OrderedMap.entries_ofList hkeys)

theorem get?_severity_selection (c : Config) (id : Text) :
    c.selection.severity.get? id = (c.severity.get? id).map Severity.word := by
  rw [severity_selection, OrderedMap.get?_mapValues]

theorem mem_mentioned_selection_iff : id ∈ c.selection.mentioned ↔ c.Mentions id := by
  have hkeys : c.selection.severity.keys = c.severity.keys := by
    rw [severity_selection]
    exact List.map_map
  rw [Selection.mentioned, List.mem_append, List.mem_append, hkeys, or_assoc]
  rfl

/-! ## Severities -/

/-- A severity is selected under the word for which it was read. -/
theorem effective_selection (c : Config) (info : RuleInfo) :
    c.selection.effective info = (c.severity.get? info.id).getD info.severity := by
  rw [Selection.effective, get?_severity_selection]
  cases c.severity.get? info.id with
  | none => rfl
  | some s =>
    rw [Option.map_some, Option.bind_some, Severity.upper_word, Severity.ofName?_name]

/-! ## Refusals -/

/-- Within its bounds a configuration gives no reason to refuse the rules that it selects. -/
theorem not_isRefused_selection (h : c.IsWithinBounds) (search : Rule.IgnoreSearch)
    (error : SelectionError) : ¬c.selection.IsRefused (c.ruleOptions search) error := by
  intro hrefused
  cases hrefused with
  | threshold selected outside => exact outside h.threshold
  | severity known selected given none =>
    rw [get?_severity_selection] at given
    obtain ⟨s, -, rfl⟩ := Option.map_eq_some_iff.mp given
    exact none s s.upper_word.symm

/-- Rules that are selected are refused for names only, and then all of these are told. -/
theorem rules_selection_cases (h : c.IsWithinBounds) (search : Rule.IgnoreSearch) :
    (∃ names : List Text, c.selection.rules (c.ruleOptions search) = .error (.unknownIds names) ∧
      (∃ id, c.Mentions id ∧ id ∉ Registry.ids) ∧
      ∀ id, id ∈ names ↔ c.Mentions id ∧ id ∉ Registry.ids) ∨
    (∃ rules, c.selection.rules (c.ruleOptions search) = .ok rules) ∧
      ∀ id, c.Mentions id → id ∈ Registry.ids := by
  by_cases hknown : ∀ id, c.Mentions id → id ∈ Registry.ids
  · refine Or.inr ⟨Selection.exists_rules ?_ (not_isRefused_selection h search), hknown⟩
    exact fun id hid => hknown id (mem_mentioned_selection_iff.mp hid)
  · refine Or.inl ⟨c.selection.unknown, ?_, by simpa using hknown, fun id => ?_⟩
    · rw [Selection.rules, if_neg]
      rw [Selection.isEmpty_unknown_iff]
      exact fun hall => hknown fun id hid => hall id (mem_mentioned_selection_iff.mpr hid)
    · rw [Selection.mem_unknown_iff, mem_mentioned_selection_iff]

/--
The rules of a configuration that was read from a table are refused just if it mentions a name that
no rule has, and then for the names of this kind, all of which are told: never for a severity or a
threshold. Otherwise each rule has the severity that was read for it, or else its own.
-/
theorem refused_iff_unknown_rule (h : ofTable table source = .ok c) (search : Rule.IgnoreSearch) :
    ((∃ error, c.selection.rules (c.ruleOptions search) = .error error) ↔
      ∃ id, c.Mentions id ∧ id ∉ Registry.ids) ∧
    (∀ error, c.selection.rules (c.ruleOptions search) = .error error →
      ∃ names : List Text, error = .unknownIds names ∧
        ∀ id, id ∈ names ↔ c.Mentions id ∧ id ∉ Registry.ids) ∧
    ∀ rules, c.selection.rules (c.ruleOptions search) = .ok rules → ∀ r ∈ rules,
      ∃ info ∈ Registry.infos, r.id = info.id ∧
        r.severity = (c.severity.get? r.id).getD info.severity := by
  have hcases := rules_selection_cases (isWithinBounds_of_table h) search
  refine ⟨?_, fun error herror => ?_, fun rules hrules r hr => ?_⟩
  · rcases hcases with ⟨names, hrefused, hunknown, -⟩ | ⟨⟨rules, hrules⟩, hknown⟩
    · exact iff_of_true ⟨_, hrefused⟩ hunknown
    · rw [hrules]
      exact iff_of_false (by simp) fun ⟨id, hid, hother⟩ => hother (hknown id hid)
  · rcases hcases with ⟨names, hrefused, -, hnames⟩ | ⟨⟨rules, hrules⟩, -⟩
    · exact ⟨names, Except.error.inj (herror.symm.trans hrefused), hnames⟩
    · exact absurd (herror.symm.trans hrules) (by simp)
  · obtain ⟨info, hinfo, hmatches⟩ := Selection.exists_info_of_mem hrules hr
    rw [effective_selection] at hmatches
    exact ⟨info, hinfo, hmatches.id, by rw [hmatches.id, hmatches.severity]⟩

/-- Severities in capital letters and a threshold of one, once with a name that no rule has. -/
theorem refused_iff_unknown_rule_of_capital_severity :
    (∃ (table : Table) (c : Config) (names : List Text),
      ofTable table none = .ok c ∧
      c.selection.rules (c.ruleOptions {}) = .error (.unknownIds names) ∧
      ("no-rule" : Text) ∈ names) ∧
    ∃ (table : Table) (c : Config) (rules : List Rule),
      table.get? "documentation_threshold" = some (.integer 1) ∧ ofTable table none = .ok c ∧
      c.selection.rules (c.ruleOptions {}) = .ok rules ∧
      rules.map Rule.id = (["documented"] : List Text) ∧ ∀ r ∈ rules, r.severity = .error := by
  let tableOf (id : Text) : Table :=
    [("documentation_threshold", .integer 1),
      ("rules", .table
        [("enable", .array [.text "documented"]), ("severity", .table [(id, .text "ERROR")])])]
  let configOf (id : Text) : Config :=
    { threshold := 1, enable := some ["documented"], severity := .ofList [(id, .error)] }
  have hread (id : Text) : ofTable (tableOf id) none = .ok (configOf id) := rfl
  constructor
  · obtain ⟨hiff, hnames, -⟩ := refused_iff_unknown_rule (hread "no-rule") {}
    have hunknown : ("no-rule" : Text) ∉ Registry.ids := by decide
    have hmentions : (configOf "no-rule").Mentions "no-rule" := Or.inr (Or.inr (by decide))
    obtain ⟨error, hrefused⟩ := hiff.mpr ⟨_, hmentions, hunknown⟩
    obtain ⟨names, rfl, hall⟩ := hnames error hrefused
    exact ⟨_, _, names, hread _, hrefused, (hall _).mpr ⟨hmentions, hunknown⟩⟩
  · obtain ⟨hiff, -, hmade⟩ := refused_iff_unknown_rule (hread "documented") {}
    have hknown : ∀ id, (configOf "documented").Mentions id → id = ("documented" : Text) := by
      rintro id (hid | hid | hid)
      · exact List.mem_singleton.mp hid
      · exact absurd hid List.not_mem_nil
      · exact List.mem_singleton.mp hid
    cases hrules : (configOf "documented").selection.rules
        ((configOf "documented").ruleOptions {}) with
    | error error =>
      obtain ⟨id, hid, hother⟩ := hiff.mp ⟨error, hrules⟩
      exact absurd (by decide) (hknown id hid ▸ hother)
    | ok rules =>
      have hids : rules.map Rule.id = (["documented"] : List Text) :=
        (Selection.map_id_rules hrules).trans (by decide)
      refine ⟨_, _, rules, rfl, hread _, hrules, hids, fun r hr => ?_⟩
      obtain ⟨info, -, -, hseverity⟩ := hmade rules hrules r hr
      have hid : r.id = ("documented" : Text) :=
        List.mem_singleton.mp (hids ▸ List.mem_map_of_mem hr)
      rw [hseverity, hid]
      rfl

end Config

end Drydock
