/-
  Which configurations tables have. Whatever is accepted lies within its bounds, but that a deadline
  may be no number (`IsWithinBounds`); and such a configuration is read back from its own display
  (`ofTable_toTable`), so these are exactly the accepted ones and a display loses nothing.
-/
import Drydock.Proofs.Config.Entries
import Drydock.Proofs.Number.Range

namespace Drydock.Config

variable {table : Table} {source : Option Text} {c : Config}

/-! ## Bounds -/

/-- The values of a configuration lie within their bounds, but that a deadline may be no number. -/
structure IsWithinBounds (c : Config) : Prop where
  format : c.format.name = "text" ∨ c.format.name = "json"
  threshold : 0.0 ≤ c.threshold ∧ c.threshold ≤ 1.0
  deadline : ∀ d ∈ c.deadline, d.isNaN = true ∨ 0 < d
  workers : ∀ n ∈ c.workers, 1 ≤ n
  severity : ∀ e ∈ c.severityWords, e.2 = "error" ∨ e.2 = "warning" ∨ e.2 = "info"

/-- The values of a configuration lie within their bounds. -/
structure IsValid (c : Config) : Prop extends IsWithinBounds c where
  positive : ∀ d ∈ c.deadline, 0 < d

theorem isShare_iff (x : Float) : Rule.isShare x = true ↔ 0.0 ≤ x ∧ x ≤ 1.0 := by
  rw [Rule.isShare, Bool.and_eq_true, decide_eq_true_iff, decide_eq_true_iff]

theorem word_cases (s : Severity) : s.word = "error" ∨ s.word = "warning" ∨ s.word = "info" := by
  cases s with
  | error => exact Or.inl rfl
  | warning => exact Or.inr (Or.inl rfl)
  | info => exact Or.inr (Or.inr rfl)

/-- What is read from a table lies within its bounds. -/
theorem IsReadAs.isWithinBounds {rules severities : Table} (h : IsReadAs table rules severities c) :
    c.IsWithinBounds where
  format := by
    cases c.format with
    | text => exact Or.inl rfl
    | json => exact Or.inr rfl
  threshold := by
    rw [← isShare_iff]
    rcases readOr_eq_ok_iff.mp h.threshold with ⟨-, husual⟩ | ⟨v, -, hread⟩
    · rw [husual]
      decide
    · exact (readThreshold_eq_ok_iff.mp hread).2
  deadline := by
    intro d hd
    rcases mapM_eq_ok_iff.mp h.deadline with ⟨-, hnone⟩ | ⟨v, x, -, hread, hx⟩
    · exact absurd (hnone.symm.trans hd) (by simp)
    · obtain rfl := Option.some.inj (hx.symm.trans hd)
      exact (Number.not_le_zero_iff x).mp (readDeadline_eq_ok_iff.mp hread).2
  workers := h.one_le_workers
  severity := by
    intro e he
    obtain ⟨⟨id, s⟩, -, rfl⟩ := List.mem_map.mp he
    exact word_cases s

/-! ## Entries that are given -/

/-- A configuration has what a table gives: integers that count as floats, lists text by text, and
choices in small letters. -/
structure GoesBy (table : Table) (c : Config) : Prop where
  threshold : ∀ v, table.get? "documentation_threshold" = some v → CountsAs v c.threshold
  deadline : ∀ v, given? table "deadline_seconds" = some v →
    ∃ x, CountsAs v x ∧ c.deadline = some x
  workers : given? table "workers" = c.workers.map fun n => .integer n
  strict : ∀ v, table.get? "strict" = some v → v = .bool c.strict
  denylist : ∀ v, given? table "denylist_base_images" = some v → v = textsValue c.denylist
  enable : ∀ rules, given? table "rules" = some (.table rules) →
    given? rules "enable" = c.enable.map textsValue
  disable : ∀ rules, given? table "rules" = some (.table rules) →
    ∀ v, given? rules "disable" = some v → v = textsValue c.disable
  format : ∀ v, table.get? "format" = some v → ∃ t, v = .text t ∧ Text.lower t = c.format.name
  severity : ∀ e ∈ c.severity.entries, ∃ rules severities t,
    given? table "rules" = some (.table rules) ∧
      given? rules "severity" = some (.table severities) ∧
      (e.1, .text t) ∈ severities ∧ Text.lower t = e.2.word

theorem eq_textsValue_of_readOr {field : Text} {usual texts : List Text} {v : Value}
    (h : readOr usual (readTexts field) (some v) = .ok texts) : v = textsValue texts :=
  readTexts_eq_ok_iff.mp h

/-- A choice has the name by which it is found. -/
theorem name_of_readChoice {α : Type} {field : Text} {choices : List (Text × α)} {name : α → Text}
    {v : Value} {choice : α} (hnames : ∀ e ∈ choices, e.1 = name e.2)
    (h : readChoice field choices v = .ok choice) :
    ∃ t, v = .text t ∧ Text.lower t = name choice := by
  obtain ⟨t, rfl, hlookup⟩ := readChoice_eq_ok_iff.mp h
  obtain ⟨front, back, rfl, -⟩ := List.lookup_eq_some_iff.mp hlookup
  exact ⟨t, rfl, hnames (Text.lower t, choice) (by simp)⟩

theorem IsReadAs.eq_of_rules {rules severities entries : Table}
    (h : IsReadAs table rules severities c)
    (hgiven : given? table "rules" = some (.table entries)) : entries = rules := by
  rcases readTable_eq_ok_iff.mp h.ofRules with ⟨hnone, -⟩ | hsome
  · exact absurd (hnone.symm.trans hgiven) (by simp)
  · exact Value.table.inj (Option.some.inj (hgiven.symm.trans hsome))

/-- A severity was given, so there are tables that give it. -/
theorem IsReadAs.exists_severity {rules severities : Table} (h : IsReadAs table rules severities c)
    {e : Text × Severity} (he : e ∈ c.severity.entries) :
    ∃ t, given? table "rules" = some (.table rules) ∧
      given? rules "severity" = some (.table severities) ∧
      (e.1, .text t) ∈ severities ∧ Text.lower t = e.2.word := by
  obtain ⟨es, hes, hread⟩ := readSeverities_eq_ok_iff.mp h.severity
  have hmem : e ∈ es := by
    rw [hes] at he
    exact (OrderedMap.mem_of_mem_insertAll he).resolve_left List.not_mem_nil
  obtain ⟨⟨id, v⟩, hentry, hid, hchoice⟩ := exists_left_of_forall₂ hread hmem
  obtain ⟨t, rfl, hword⟩ := name_of_readChoice (by decide : ∀ e ∈ severityChoices, e.1 = e.2.word)
    hchoice
  obtain rfl : id = e.1 := hid
  have hgiven : given? rules "severity" = some (.table severities) := by
    rcases readTable_eq_ok_iff.mp h.ofSeverities with ⟨-, hnone⟩ | hsome
    · exact absurd (hnone ▸ hentry) List.not_mem_nil
    · exact hsome
  have hrules : given? table "rules" = some (.table rules) := by
    rcases readTable_eq_ok_iff.mp h.ofRules with ⟨-, hnone⟩ | hsome
    · rw [hnone] at hgiven
      exact absurd hgiven (by simp [given?, Table.get?])
    · exact hsome
  exact ⟨t, hrules, hgiven, hentry, hword⟩

/-- What is read from a table has what is given there. -/
theorem IsReadAs.goesBy {rules severities : Table} (h : IsReadAs table rules severities c) :
    GoesBy table c where
  threshold := by
    intro v hv
    have hread := h.threshold
    rw [hv] at hread
    exact (readThreshold_eq_ok_iff.mp hread).1
  deadline := by
    intro v hv
    rcases mapM_eq_ok_iff.mp h.deadline with ⟨habsent, -⟩ | ⟨v', x, hv', hread, hx⟩
    · exact absurd (habsent.symm.trans hv) (by simp)
    · obtain rfl := Option.some.inj (hv'.symm.trans hv)
      exact ⟨x, (readDeadline_eq_ok_iff.mp hread).1, hx⟩
  workers := by
    rcases mapM_eq_ok_iff.mp h.workers with ⟨habsent, hnone⟩ | ⟨v, n, hv, hread, hsome⟩
    · rw [habsent, hnone, Option.map_none]
    · rw [hv, hsome, Option.map_some, (readWorkers_eq_ok_iff.mp hread).1]
  strict := by
    intro v hv
    have hread := h.strict
    rw [hv] at hread
    exact readBool_eq_ok_iff.mp hread
  denylist := by
    intro v hv
    have hread := h.denylist
    rw [hv] at hread
    exact eq_textsValue_of_readOr hread
  enable := by
    intro entries hgiven
    rw [h.eq_of_rules hgiven]
    rcases mapM_eq_ok_iff.mp h.enable with ⟨habsent, hnone⟩ | ⟨v, texts, hv, hread, hsome⟩
    · rw [habsent, hnone, Option.map_none]
    · rw [hv, hsome, Option.map_some, readTexts_eq_ok_iff.mp hread]
  disable := by
    intro entries hgiven v hv
    have hread := h.disable
    rw [← h.eq_of_rules hgiven, hv] at hread
    exact eq_textsValue_of_readOr hread
  format := by
    intro v hv
    have hread := h.format
    rw [hv] at hread
    exact name_of_readChoice (by decide : ∀ e ∈ formatChoices, e.1 = e.2.name) hread
  severity := by
    intro e he
    obtain ⟨t, ht⟩ := h.exists_severity he
    exact ⟨rules, severities, t, ht⟩

/-! ## Display -/

/-- The severities that a display shows. -/
def shownSeverities (c : Config) : Table := c.severityWords.map fun e => (e.1, .text e.2)

/-- What a display shows about rules. -/
def shownRules (c : Config) : Table :=
  [("enable", c.enable.elim .null textsValue), ("disable", textsValue c.disable),
    ("severity", .table c.shownSeverities)]

theorem readChoice_name (field : Text) (format : OutputFormat) :
    readChoice field formatChoices (.text format.name) = .ok format := by
  cases format <;> rfl

theorem readChoice_word (field : Text) (s : Severity) :
    readChoice field severityChoices (.text s.word) = .ok s := by
  cases s <;> rfl

theorem readTexts_textsValue (field : Text) (texts : List Text) :
    readTexts field (textsValue texts) = .ok texts :=
  readTexts_eq_ok_iff.mpr rfl

theorem given?_shown {key : Text} {entries : Table} {v : Value} (h : entries.get? key = some v)
    (hv : v ≠ .null) : given? entries key = some v :=
  given?_eq_some_iff.mpr ⟨h, hv⟩

/-- The severities of a configuration are read back from its display. -/
theorem readSeverities_shown (c : Config) :
    readSeverities .empty c.shownSeverities = .ok c.severity := by
  refine readSeverities_eq_ok_iff.mpr ⟨c.severity.entries, ?_, ?_⟩
  · exact OrderedMap.ext (OrderedMap.entries_ofList c.severity.distinct).symm
  · rw [shownSeverities, severityWords, List.map_map, List.forall₂_map_left_iff]
    exact List.forall₂_same.mpr fun e _ => ⟨rfl, readChoice_word _ e.2⟩

/-- The entries of a configuration within its bounds are read back from its display. -/
theorem isReadAs_toTable (h : c.IsWithinBounds) :
    IsReadAs c.toTable c.shownRules c.shownSeverities c where
  ofRules := rfl
  threshold := by
    have hshare : Rule.isShare c.threshold = true := (isShare_iff c.threshold).mpr h.threshold
    exact readThreshold_eq_ok_iff.mpr ⟨Or.inl rfl, hshare⟩
  deadline := by
    have hget : c.toTable.get? "deadline_seconds" = some (c.deadline.elim .null .float) := rfl
    cases hdeadline : c.deadline with
    | none =>
      rw [given?, hget, hdeadline]
      rfl
    | some d =>
      rw [hdeadline] at hget
      have hlate : ¬d ≤ 0 := (Number.not_le_zero_iff d).mpr (h.deadline d hdeadline)
      refine mapM_eq_ok_iff.mpr (Or.inr ⟨.float d, d, given?_shown hget (by simp), ?_, rfl⟩)
      exact readDeadline_eq_ok_iff.mpr ⟨Or.inl rfl, hlate⟩
  workers := by
    have hget : c.toTable.get? "workers" = some (c.workers.elim .null fun n => .integer n) := rfl
    cases hworkers : c.workers with
    | none =>
      rw [given?, hget, hworkers]
      rfl
    | some n =>
      rw [hworkers] at hget
      refine mapM_eq_ok_iff.mpr (Or.inr ⟨.integer n, n, given?_shown hget (by simp), ?_, rfl⟩)
      exact readWorkers_eq_ok_iff.mpr ⟨rfl, h.workers n hworkers⟩
  denylist := readTexts_textsValue _ c.denylist
  format := readChoice_name _ c.format
  strict := rfl
  enable := by
    have hget : c.shownRules.get? "enable" = some (c.enable.elim .null textsValue) := rfl
    cases henable : c.enable with
    | none =>
      rw [given?, hget, henable]
      rfl
    | some ids =>
      rw [henable] at hget
      refine mapM_eq_ok_iff.mpr (Or.inr ⟨textsValue ids, ids, ?_, ?_, rfl⟩)
      · exact given?_shown hget (by simp [textsValue])
      · exact readTexts_textsValue _ ids
  disable := readTexts_textsValue _ c.disable
  ofSeverities := rfl
  severity := readSeverities_shown c

/-- A configuration within its bounds is read back from its display. -/
theorem ofTable_toTable (h : c.IsWithinBounds) : ofTable c.toTable c.source = .ok c :=
  ofTable_eq_ok_iff.mpr ⟨rfl, _, _, isReadAs_toTable h⟩

theorem isWithinBounds_of_table (h : ofTable table source = .ok c) : c.IsWithinBounds := by
  obtain ⟨-, rules, severities, hread⟩ := ofTable_eq_ok_iff.mp h
  exact hread.isWithinBounds

/-- A display is no file of other tools with a table for the linter. -/
theorem sectionOf_toTable {fileName : Text} (hname : fileName ≠ projectFileName) (c : Config) :
    sectionOf fileName c.toTable = c.toTable := by
  rw [sectionOf, if_neg hname]
  rfl

theorem optionalText_inj {s t : Option Text} : optionalText s = optionalText t ↔ s = t := by
  cases s <;> cases t <;> simp [optionalText]

/-- Configurations within their bounds that look the same are the same. -/
theorem IsWithinBounds.eq_of_toTable {c' : Config} (h : c.IsWithinBounds) (h' : c'.IsWithinBounds)
    (hsame : c'.toTable = c.toTable) : c' = c := by
  have hsource : c'.source = c.source := by
    have hshown : optionalText c'.source = optionalText c.source :=
      Option.some.inj (congrArg (fun shown => Table.get? shown "source") hsame)
    exact optionalText_inj.mp hshown
  have hback := ofTable_toTable h'
  rw [hsame, hsource, ofTable_toTable h] at hback
  exact (Except.ok.inj hback).symm

/-! ## Results -/

/-- A deadline that is read from a table is positive, unless it is given as no number. -/
theorem IsReadAs.positive_iff {rules severities : Table} (h : IsReadAs table rules severities c) :
    (∀ d ∈ c.deadline, 0 < d) ↔
      ∀ x, table.get? "deadline_seconds" = some (.float x) → x.isNaN = false := by
  have hgiven (x : Float) : table.get? "deadline_seconds" = some (.float x) ↔
      given? table "deadline_seconds" = some (.float x) := by
    rw [given?_eq_some_iff, and_iff_left (by simp)]
  simp only [hgiven]
  rcases mapM_eq_ok_iff.mp h.deadline with ⟨habsent, hnone⟩ | ⟨v, x, hv, hread, hx⟩
  · rw [habsent, hnone]
    simp
  · obtain ⟨hcounts, hlate⟩ := readDeadline_eq_ok_iff.mp hread
    have hcases := (Number.not_le_zero_iff x).mp hlate
    rw [hv, hx]
    rcases hcounts with rfl | ⟨n, rfl, hn⟩
    · constructor
      · intro hpositive y hy
        obtain rfl := Value.float.inj (Option.some.inj hy)
        cases hnan : x.isNaN with
        | true => exact absurd (hpositive x rfl) (Number.not_zero_lt_of_isNaN hnan)
        | false => rfl
      · intro hnumber d hd
        obtain rfl := Option.some.inj hd
        have hsome := hnumber x rfl
        exact hcases.resolve_left (Bool.eq_false_iff.mp hsome)
    · have hnumber := Number.isNaN_of_ofInt? hn
      have hpositive : 0 < x := hcases.resolve_left (Bool.eq_false_iff.mp hnumber)
      simp [hpositive]

/--
What is accepted from a table lies within its bounds and has what is given there; and it is valid,
just if no deadline is given that is no number.
-/
theorem accepted_valid_iff (h : ofTable table source = .ok c) :
    c.IsWithinBounds ∧ GoesBy table c ∧
      (c.IsValid ↔
        ∀ x, table.get? "deadline_seconds" = some (.float x) → x.isNaN = false) := by
  obtain ⟨-, rules, severities, hread⟩ := ofTable_eq_ok_iff.mp h
  refine ⟨hread.isWithinBounds, hread.goesBy, ?_⟩
  rw [← hread.positive_iff]
  exact ⟨fun hvalid => hvalid.positive, fun hpositive => ⟨hread.isWithinBounds, hpositive⟩⟩

/-- Choices in capital letters, integers for floats, and no workers. -/
theorem accepted_valid_iff_of_capital_choices :
    ∃ (table : Table) (c : Config),
      table.get? "format" = some (.text "JSON") ∧ table.get? "workers" = some .null ∧
      table.get? "deadline_seconds" = some (.integer 5) ∧
      ofTable table (some "docklint.toml") = .ok c ∧ c.IsValid ∧ GoesBy table c ∧
      c.severityWords = ([("explicit-tag", "info")] : List (Text × Text)) := by
  let table : Table :=
    [("format", .text "JSON"), ("documentation_threshold", .integer 1),
      ("deadline_seconds", .integer 5), ("workers", .null),
      ("rules", .table
        [("disable", .array [.text "documented"]),
          ("severity", .table [("explicit-tag", .text "Info")])])]
  have hread : ofTable table (some "docklint.toml") = .ok
      { format := .json, threshold := 1, deadline := some 5, disable := ["documented"],
        severity := .ofList [("explicit-tag", .info)], source := some "docklint.toml" } := rfl
  obtain ⟨-, hgoesBy, hvalid⟩ := accepted_valid_iff hread
  have hdeadline : table.get? "deadline_seconds" = some (.integer 5) := rfl
  refine ⟨table, _, rfl, rfl, hdeadline, hread, hvalid.mpr ?_, hgoesBy, rfl⟩
  rw [hdeadline]
  exact fun x hx => nomatch hx

/-- A deadline that is no number is accepted, but it is not positive. -/
theorem deadline_without_number_accepted :
    ∃ c d,
      ofTable [("deadline_seconds", .float Number.notANumber)] (some ".docklint.toml") = .ok c ∧
      c.deadline = some d ∧ ¬0 < d :=
  ⟨{ deadline := some Number.notANumber, source := some ".docklint.toml" }, Number.notANumber, rfl,
    rfl, by decide⟩

/--
What is accepted is read back from its display, in a file of whatever name but that of a project's
file, as it was; so configurations that look the same are the same.
-/
theorem read_back_from_display {fileName : Text} (h : ofTable table source = .ok c)
    (hname : fileName ≠ projectFileName) :
    ofTable (sectionOf fileName c.toTable) c.source = .ok c ∧
      ∀ table' source' c', ofTable table' source' = .ok c' → c'.toTable = c.toTable → c' = c := by
  have hvalid := isWithinBounds_of_table h
  constructor
  · rw [sectionOf_toTable hname]
    exact ofTable_toTable hvalid
  · intro table' source' c' h' hsame
    exact hvalid.eq_of_toTable (isWithinBounds_of_table h') hsame

/-- A deadline that is no number and no rules that are enabled, in a file of the linter's own. -/
theorem read_back_from_display_of_odd_deadline :
    ∃ (table : Table) (c : Config),
      table.get? "deadline_seconds" = some (.float Number.notANumber) ∧ c.enable = some [] ∧
      ofTable table (some "docklint.toml") = .ok c ∧ ("docklint.toml" : Text) ≠ projectFileName ∧
      ofTable (sectionOf "docklint.toml" c.toTable) c.source = .ok c := by
  let table : Table :=
    [("deadline_seconds", .float Number.notANumber), ("strict", .bool true),
      ("rules", .table
        [("enable", .array []), ("severity", .table [("no-rule", .text "ERROR")])])]
  have hread : ofTable table (some "docklint.toml") = .ok
      { deadline := some Number.notANumber, strict := true, enable := some [],
        severity := .ofList [("no-rule", .error)], source := some "docklint.toml" } := rfl
  have hname : ("docklint.toml" : Text) ≠ projectFileName := by decide
  exact ⟨table, _, rfl, rfl, hread, hname, (read_back_from_display hread hname).1⟩

end Drydock.Config
