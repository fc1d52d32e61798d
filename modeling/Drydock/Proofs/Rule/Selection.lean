/-
  What a selection selects. Names that no rule has are refused, all of them at once and in order;
  then a threshold that is no share, if it is needed, and a severity that is none, if its rule is
  wanted. Otherwise the rules that are wanted are made, in the order of the registry, each with the
  severity it is given or its own. Only the names that are enabled and disabled matter, not their
  order and number (`rules_of_selection`).
-/
import Drydock.Proofs.Rule.Registry
import Drydock.Proofs.Text.Order

namespace Drydock

/-! ## Severities by name -/

namespace Severity

theorem ofName?_eq_some_iff {name : Text} {severity : Severity} :
    ofName? name = some severity ↔ severity.name = name := by
  constructor
  · intro h
    have hfound := List.find?_some (show all.find? _ = some severity from h)
    exact of_decide_eq_true hfound
  · rintro rfl
    exact ofName?_name severity

theorem ofName?_eq_none_iff {name : Text} :
    ofName? name = none ↔ ∀ severity : Severity, severity.name ≠ name := by
  rw [Option.eq_none_iff_forall_ne_some]
  exact forall_congr' fun severity => not_congr ofName?_eq_some_iff

end Severity

/-! ## Entries -/

namespace Registry

variable {o : RuleOptions}

/-- Every entry makes a rule, but for the one that needs a threshold which is a share. -/
theorem build_cases : ∀ e ∈ entries,
    (e.info.id = ("documented" : Text) ∧ Rule.isShare o.threshold = false ∧
      e.build o = .error (.thresholdOutside o.threshold)) ∨
    ((e.info.id = ("documented" : Text) → Rule.isShare o.threshold = true) ∧
      ∃ r, e.build o = .ok r) := by
  simp only [entries, List.forall_mem_cons]
  refine ⟨?_, ?_, ?_, ?_, ?_, ?_, ?_, ?_, ?documented, ?_, ?_,
    fun e he => absurd he List.not_mem_nil⟩
  case documented =>
    cases hshare : Rule.isShare o.threshold with
    | true => exact Or.inr ⟨fun _ => rfl, _, if_pos hshare⟩
    | false => exact Or.inl ⟨trivial, rfl, if_neg (by simp [hshare])⟩
  all_goals exact Or.inr ⟨fun h => absurd h (by decide), _, rfl⟩

end Registry

namespace Selection

variable {s s' : Selection} {o : RuleOptions} {id : Text}

/-! ## Names -/

/-- A selection selects a name that it enables, or any if it enables none in particular, unless it
disables it. -/
def Selects (s : Selection) (id : Text) : Prop := (∀ names ∈ s.enable, id ∈ names) ∧ id ∉ s.disable

theorem wants_iff : s.wants id = true ↔ s.Selects id := by
  rw [wants, Selects, Bool.and_eq_true, Option.all_eq_true]
  simp

instance (s : Selection) : DecidablePred s.Selects := fun _ => decidable_of_iff _ wants_iff

theorem mem_unknown_iff : id ∈ s.unknown ↔ id ∈ s.mentioned ∧ id ∉ Registry.ids := by
  rw [unknown, Text.mem_sort_iff, List.mem_eraseDups, List.mem_filter]
  simp

theorem pairwise_unknown (s : Selection) : s.unknown.Pairwise (· < ·) :=
  Text.pairwise_sort (nodup_eraseDups _)

theorem isEmpty_unknown_iff :
    s.unknown.isEmpty = true ↔ ∀ id ∈ s.mentioned, id ∈ Registry.ids := by
  rw [List.isEmpty_iff, List.eq_nil_iff_forall_not_mem]
  refine forall_congr' fun id => ?_
  rw [mem_unknown_iff, not_and, not_not]

/-! ## Refusals -/

/-- Why a selection of known names is refused: a wanted rule needs a threshold and it is no share,
or it is given a severity that is none. -/
inductive IsRefused (s : Selection) (o : RuleOptions) : SelectionError → Prop
  | threshold (selected : s.Selects "documented")
      (outside : ¬(0.0 ≤ o.threshold ∧ o.threshold ≤ 1.0)) :
      IsRefused s o (.thresholdOutside o.threshold)
  | severity {id name : Text} (known : id ∈ Registry.ids) (selected : s.Selects id)
      (given : s.severity.get? id = some name)
      (none : ∀ severity : Severity, severity.name ≠ Text.upper name) :
      IsRefused s o (.unknownSeverity id)

/-- A rule that an entry makes, with the severity that it is given or else its own. -/
structure IsMade (s : Selection) (o : RuleOptions) (e : RuleEntry) (r : Rule) : Prop where
  id : r.id = e.info.id
  rule : ∃ made, e.build o = .ok made ∧ r = made.withSeverity r.severity
  given : ∀ name, s.severity.get? r.id = some name → r.severity.name = Text.upper name
  default : s.severity.get? r.id = none → r.severity = e.info.severity

/-- What becomes of a rule: it is refused for its threshold or for the severity that it is given,
or it is made. -/
theorem made_cases {e : RuleEntry} (he : e ∈ Registry.entries) (hselects : s.Selects e.info.id) :
    (∃ error, (e.build o >>= s.adjust) = .error error ∧ s.IsRefused o error) ∨
    ∃ r, (e.build o >>= s.adjust) = .ok r ∧ s.IsMade o e r ∧
      (e.info.id = ("documented" : Text) → 0.0 ≤ o.threshold ∧ o.threshold ≤ 1.0) := by
  have hshare : Rule.isShare o.threshold = true ↔ 0.0 ≤ o.threshold ∧ o.threshold ≤ 1.0 := by
    rw [Rule.isShare, Bool.and_eq_true, decide_eq_true_iff, decide_eq_true_iff]
  rcases Registry.build_cases (o := o) e he with ⟨hid, houtside, hbuild⟩ | ⟨hinside, made, hbuild⟩
  · refine Or.inl ⟨_, by rw [hbuild]; rfl, .threshold (hid ▸ hselects) ?_⟩
    rw [← hshare, houtside]
    exact Bool.false_ne_true
  have hmatches := Registry.isFaithful_of_mem_entries e he o made hbuild
  have hadjust : (e.build o >>= s.adjust) = s.adjust made := by
    rw [hbuild]
    rfl
  rw [hadjust, adjust]
  cases hname : s.severity.get? made.id with
  | none =>
    refine Or.inr ⟨made, rfl, ⟨hmatches.id, ⟨made, hbuild, (if_pos rfl).symm⟩, ?_, ?_⟩,
      fun hid => hshare.mp (hinside hid)⟩
    · intro name hgiven
      exact absurd (hname.symm.trans hgiven) (by simp)
    · exact fun _ => hmatches.severity
  | some name =>
    dsimp only
    cases hseverity : Severity.ofName? (Text.upper name) with
    | none =>
      refine Or.inl ⟨_, rfl, .severity ?_ (hmatches.id ▸ hselects) hname
        (Severity.ofName?_eq_none_iff.mp hseverity)⟩
      rw [hmatches.id]
      exact List.mem_map_of_mem (List.mem_map_of_mem he)
    | some severity =>
      have hid := Rule.withSeverity_id made severity
      have hgiven := Rule.withSeverity_severity made severity
      refine Or.inr ⟨made.withSeverity severity, rfl, ⟨hid.trans hmatches.id,
        ⟨made, hbuild, by rw [hgiven]⟩, ?_, ?_⟩, fun hid => hshare.mp (hinside hid)⟩
      · intro other hother
        rw [hid, hname] at hother
        rw [hgiven, ← Option.some.inj hother]
        exact Severity.ofName?_eq_some_iff.mp hseverity
      · intro hnone
        rw [hid, hname] at hnone
        exact absurd hnone (by simp)

theorem exists_entry_of_mem_ids (h : id ∈ Registry.ids) :
    ∃ e ∈ Registry.entries, e.info.id = id := by
  obtain ⟨info, hinfo, rfl⟩ := List.mem_map.mp h
  obtain ⟨e, he, rfl⟩ := List.mem_map.mp hinfo
  exact ⟨e, he, rfl⟩

/-- The entries of the wanted rules. -/
def entries (s : Selection) : List RuleEntry := Registry.entries.filter fun e => s.Selects e.info.id

theorem mem_entries_iff {e : RuleEntry} :
    e ∈ s.entries ↔ e ∈ Registry.entries ∧ s.Selects e.info.id := by
  rw [entries, List.mem_filter, decide_eq_true_iff]

theorem rules_of_known (h : ∀ id ∈ s.mentioned, id ∈ Registry.ids) :
    s.rules o = s.entries.mapM fun e => e.build o >>= s.adjust := by
  rw [Selection.rules, if_pos (isEmpty_unknown_iff.mpr h), entries]
  congr 1
  refine List.filter_congr fun e _ => ?_
  rw [Bool.eq_iff_iff, wants_iff, decide_eq_true_iff]

/-- Nothing is refused of rules that are all made. -/
theorem not_isRefused_of_made {rules : List Rule}
    (h : s.entries.mapM (fun e => e.build o >>= s.adjust) = .ok rules) (error : SelectionError) :
    ¬s.IsRefused o error := by
  have hmade : ∀ e ∈ s.entries, ∃ r, s.IsMade o e r ∧
      (e.info.id = ("documented" : Text) → 0.0 ≤ o.threshold ∧ o.threshold ≤ 1.0) := by
    intro e he
    obtain ⟨hentry, hselects⟩ := mem_entries_iff.mp he
    rcases made_cases (o := o) hentry hselects with ⟨error, herror, -⟩ | ⟨r, -, hr⟩
    · obtain ⟨r, -, hr⟩ := exists_right_of_forall₂ (forall₂_of_mapM_eq_ok h) he
      exact absurd (herror.symm.trans hr) (by simp)
    · exact ⟨r, hr⟩
  intro hrefused
  cases hrefused with
  | threshold selected outside =>
    have hknown : ("documented" : Text) ∈ Registry.ids := by decide
    obtain ⟨e, he, hid⟩ := exists_entry_of_mem_ids hknown
    obtain ⟨r, -, hshare⟩ := hmade e (mem_entries_iff.mpr ⟨he, hid.symm ▸ selected⟩)
    exact outside (hshare hid)
  | @severity id name known selected given none =>
    obtain ⟨e, he, hid⟩ := exists_entry_of_mem_ids known
    obtain ⟨r, hr, -⟩ := hmade e (mem_entries_iff.mpr ⟨he, hid.symm ▸ selected⟩)
    refine none r.severity (hr.given name ?_)
    rw [hr.id, hid, given]

theorem isRefused_of_error {error : SelectionError}
    (h : s.entries.mapM (fun e => e.build o >>= s.adjust) = .error error) :
    s.IsRefused o error := by
  obtain ⟨e, he, hfailed⟩ := exists_error_of_mapM h
  obtain ⟨hentry, hselects⟩ := mem_entries_iff.mp he
  rcases made_cases (o := o) hentry hselects with ⟨other, hother, hrefused⟩ | ⟨r, hr, -⟩
  · rwa [Except.error.inj (hfailed.symm.trans hother)]
  · exact absurd (hfailed.symm.trans hr) (by simp)

theorem exists_rules (hknown : ∀ id ∈ s.mentioned, id ∈ Registry.ids)
    (h : ∀ error, ¬s.IsRefused o error) : ∃ rules, s.rules o = .ok rules := by
  rw [rules_of_known hknown]
  cases hrules : s.entries.mapM fun e => e.build o >>= s.adjust with
  | error error => exact absurd (isRefused_of_error hrules) (h error)
  | ok rules => exact ⟨rules, rfl⟩

theorem forall₂_isMade {rules : List Rule}
    (h : s.entries.mapM (fun e => e.build o >>= s.adjust) = .ok rules) :
    List.Forall₂ (s.IsMade o) s.entries rules := by
  have hentries : ∀ e ∈ s.entries, e ∈ Registry.entries ∧ s.Selects e.info.id :=
    fun e he => mem_entries_iff.mp he
  refine ((List.forall₂_and_left _ _).mpr ⟨hentries, forall₂_of_mapM_eq_ok h⟩).imp ?_
  rintro e r ⟨⟨hentry, hselects⟩, hr⟩
  rcases made_cases (o := o) hentry hselects with ⟨error, herror, -⟩ | ⟨made, hmade, hr', -⟩
  · exact absurd (herror.symm.trans hr) (by simp)
  · rwa [Except.ok.inj (hr.symm.trans hmade)]

/-! ## Order and number -/

/-- Two rows hold the same names, in whatever order and however often. -/
def SameNames (names names' : List Text) : Prop := ∀ id, id ∈ names ↔ id ∈ names'

theorem sameNames_of_forall {names names' : List Text} (h : ∀ id ∈ names, id ∈ names')
    (h' : ∀ id ∈ names', id ∈ names) : SameNames names names' :=
  fun id => ⟨h id, h' id⟩

/-- Two selections enable and disable the same names and give the same severities. -/
structure Agrees (s s' : Selection) : Prop where
  enable : Option.Rel SameNames s.enable s'.enable
  disable : SameNames s.disable s'.disable
  severity : s.severity = s'.severity

/-- Names that may be absent hold the same ones, if they are there. -/
theorem mem_iff_of_rel {names names' : Option (List Text)} (h : Option.Rel SameNames names names')
    (id : Text) :
    ((∀ row ∈ names, id ∈ row) ↔ ∀ row ∈ names', id ∈ row) ∧
      (id ∈ names.getD [] ↔ id ∈ names'.getD []) := by
  cases h with
  | none => exact ⟨Iff.rfl, Iff.rfl⟩
  | some hsame => exact ⟨by simp [hsame id], hsame id⟩

theorem Agrees.selects_iff (h : Agrees s s') (id : Text) : s.Selects id ↔ s'.Selects id :=
  and_congr (mem_iff_of_rel h.enable id).1 (not_congr (h.disable id))

theorem Agrees.mentions_iff (h : Agrees s s') (id : Text) :
    id ∈ s.mentioned ↔ id ∈ s'.mentioned := by
  rw [mentioned, mentioned, List.mem_append, List.mem_append, List.mem_append, List.mem_append,
    (mem_iff_of_rel h.enable id).2, h.disable id, h.severity]

theorem Agrees.unknown_eq (h : Agrees s s') : s.unknown = s'.unknown := by
  refine Text.eq_of_pairwise_lt (pairwise_unknown s) (pairwise_unknown s') fun id => ?_
  rw [mem_unknown_iff, mem_unknown_iff, h.mentions_iff]

theorem Agrees.rules_eq (h : Agrees s s') (o : RuleOptions) : s.rules o = s'.rules o := by
  have hwants : s.wants = s'.wants := by
    funext id
    rw [Bool.eq_iff_iff, wants_iff, wants_iff, h.selects_iff]
  have hadjust : s.adjust = s'.adjust := by
    funext r
    rw [adjust, adjust, h.severity]
  rw [Selection.rules, Selection.rules, h.unknown_eq, hwants, hadjust]

/-! ## Selections -/

/--
A selection that mentions a name which no rule has is refused with all such names, in order and each
once. If there is none, it is refused just if there is a reason to; or else its rules are those that
it selects, in the order of the registry, each with the severity it is given or its own. The order
and the number of the names that are enabled and disabled make no difference.
-/
theorem rules_of_selection (s : Selection) (o : RuleOptions) :
    ((∃ id ∈ s.mentioned, id ∉ Registry.ids) → ∃ names : List Text,
      s.rules o = .error (.unknownIds names) ∧ names.Pairwise (· < ·) ∧
      (∀ id, id ∈ names ↔ id ∈ s.mentioned ∧ id ∉ Registry.ids) ∧
      (SelectionError.unknownIds names).message =
        "Unknown rule ids: " ++ Text.joinWith ", " names) ∧
    ((∀ id ∈ s.mentioned, id ∈ Registry.ids) →
      ((∃ error, s.rules o = .error error) ↔ ∃ error, s.IsRefused o error) ∧
      (∀ error, s.rules o = .error error → s.IsRefused o error) ∧
      ∀ rules, s.rules o = .ok rules →
        rules.map Rule.id = Registry.ids.filter (fun id => s.Selects id) ∧
        (rules.map Rule.id).Nodup ∧ List.Forall₂ (s.IsMade o) s.entries rules) ∧
    ∀ s', Agrees s s' → s'.rules o = s.rules o := by
  refine ⟨fun hunknown => ⟨s.unknown, ?_, pairwise_unknown s, fun id => mem_unknown_iff, rfl⟩,
    fun hknown => ?_, fun s' hagrees => (hagrees.rules_eq o).symm⟩
  · have hempty : ¬s.unknown.isEmpty = true := by
      rw [isEmpty_unknown_iff]
      rintro hall
      obtain ⟨id, hid, hother⟩ := hunknown
      exact hother (hall id hid)
    rw [Selection.rules, if_neg hempty]
  · rw [rules_of_known hknown]
    refine ⟨⟨fun ⟨error, herror⟩ => ⟨error, isRefused_of_error herror⟩,
      fun ⟨error, hrefused⟩ => ?_⟩, fun error herror => isRefused_of_error herror,
      fun rules hrules => ?_⟩
    · cases hrules : s.entries.mapM fun e => e.build o >>= s.adjust with
      | error other => exact ⟨other, rfl⟩
      | ok rules => exact absurd hrefused (not_isRefused_of_made hrules error)
    · -- The names follow from the rules as they are told about.
      have hids := map_id_rules ((rules_of_known hknown).trans hrules)
      have hselected : Registry.ids.filter s.wants = Registry.ids.filter fun id => s.Selects id :=
        List.filter_congr fun id _ => by rw [Bool.eq_iff_iff, wants_iff, decide_eq_true_iff]
      rw [hselected] at hids
      refine ⟨hids, ?_, forall₂_isMade hrules⟩
      rw [hids]
      exact Registry.nodup_ids.filter _

/-- Names that no rule has, each mentioned more than once; and known names, of which one is disabled
and one given another severity. -/
theorem rules_of_selection_of_two_selections :
    (∃ (s : Selection) (o : RuleOptions) (names : List Text),
      s.rules o = .error (.unknownIds names) ∧ names = (["a", "b", "c"] : List Text)) ∧
    ∃ (s s' : Selection) (o : RuleOptions) (rules : List Rule),
      s.rules o = .ok rules ∧ s'.rules o = .ok rules ∧
      rules.map Rule.id = (["explicit-tag", "documented"] : List Text) ∧
      List.Forall₂ (s.IsMade o) s.entries rules := by
  constructor
  · let s : Selection :=
      { enable := some ["b", "documented", "a", "b"], disable := ["a"]
        severity := .ofList [("c", "info")] }
    obtain ⟨names, hrules, hsorted, hmem, -⟩ :=
      (rules_of_selection s {}).1 ⟨"b", by decide, by decide⟩
    refine ⟨s, {}, names, hrules, Text.eq_of_pairwise_lt hsorted (by decide) fun id => ?_⟩
    rw [hmem]
    constructor
    · rintro ⟨hmentioned, hother⟩
      have hall : ∀ id ∈ s.mentioned, id ∉ Registry.ids → id ∈ (["a", "b", "c"] : List Text) := by
        decide
      exact hall id hmentioned hother
    · have hall : ∀ id ∈ (["a", "b", "c"] : List Text), id ∈ s.mentioned ∧ id ∉ Registry.ids := by
        decide
      exact hall id
  · let s : Selection :=
      { enable := some ["explicit-tag", "documented", "specific-copy"]
        disable := ["specific-copy"], severity := .ofList [("documented", "Warning")] }
    let s' : Selection :=
      { s with
        enable := some ["specific-copy", "documented", "explicit-tag", "documented"]
        disable := ["specific-copy", "specific-copy"] }
    let o : RuleOptions := { threshold := 1.0 }
    obtain ⟨-, hknown, hsame⟩ := rules_of_selection s o
    obtain ⟨hiff, -, hmade⟩ := hknown (by decide)
    have hagrees : Agrees s s' :=
      ⟨.some (sameNames_of_forall (by decide) (by decide)),
        sameNames_of_forall (by decide) (by decide), rfl⟩
    cases hrules : s.rules o with
    | error error =>
      obtain ⟨_, hrefused⟩ := hiff.mp ⟨error, hrules⟩
      cases hrefused with
      | threshold _ outside => exact absurd ⟨by decide, by decide⟩ outside
      | @severity id name _ _ given none =>
        have hname := OrderedMap.mem_of_get?_ofList given
        rw [List.mem_singleton] at hname
        obtain ⟨-, rfl⟩ := Prod.mk.inj hname
        exact absurd (by decide) (none .warning)
    | ok rules =>
      obtain ⟨hids, -, hmade⟩ := hmade rules hrules
      exact ⟨s, s', o, rules, hrules, (hsame s' hagrees).trans hrules,
        hids.trans (by decide), hmade⟩

end Selection

end Drydock
