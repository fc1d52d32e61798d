/-
  The rules that a selection makes. A rule is made with the name and the severity that are told
  about it and stays within the scope of its name (`isFaithful_of_mem_entries`); what holds of all
  rules is shown rule by rule (`makes_of_build`). A selection keeps the order of the registry and
  changes no rule but for its severity (`forall₂_matches_rules`).
-/
import Drydock.Proofs.Rule.Scope
import Drydock.Rule.Registry

namespace Drydock

namespace Registry

/-- Where the findings of each rule may stand. -/
def scopes : List (Text × Scope) :=
  [("minimal-base-image", ⟨[.base], none⟩),
    ("explicit-tag", ⟨[.base], none⟩),
    ("layer-caching-order", ⟨[.copy, .add], none⟩),
    ("consolidate-run", ⟨[.run], none⟩),
    ("cleanup-artifacts", ⟨[.run], none⟩),
    ("specific-copy", ⟨[.copy, .add], none⟩),
    ("non-root-user", ⟨[.base, .user], some [.base]⟩),
    ("env-no-secrets", ⟨[.env, .arg], none⟩),
    ("documented", .whole),
    ("dockerignore-present", .whole),
    ("has-test-step", ⟨[.cmd, .entrypoint], some [.cmd, .entrypoint]⟩)]

/-- A rule has the name and the severity told about it, and stays within the scope of its name. -/
structure Matches (info : RuleInfo) (severity : Severity) (r : Rule) : Prop where
  id : r.id = info.id
  severity : r.severity = severity
  scope : ∃ scope, (info.id, scope) ∈ scopes ∧ r.StaysWithin scope

/-- Whatever rule an entry makes is the one that is told about. -/
def IsFaithful (e : RuleEntry) : Prop :=
  ∀ o r, e.build o = .ok r → Matches e.info e.info.severity r

theorem isFaithful_plain {r : Rule} {name description category : Text} {scope : Scope}
    (hscope : (r.id, scope) ∈ scopes) (hr : r.StaysWithin scope) :
    IsFaithful (plain r name description category) := by
  intro o made hmade
  obtain rfl := Except.ok.inj hmade
  exact ⟨rfl, rfl, scope, hscope, hr⟩

theorem isFaithful_documented {info : RuleInfo} (hid : info.id = "documented")
    (hseverity : info.severity = .info) : IsFaithful ⟨info, buildDocumented⟩ := by
  intro o made hmade
  dsimp only [buildDocumented] at hmade
  split at hmade
  · obtain rfl := Except.ok.inj hmade
    refine ⟨hid.symm, hseverity.symm, .whole, ?_, Rule.documented_staysWithin o.threshold⟩
    rw [hid]
    decide
  · exact absurd hmade (by simp)

/-- A rule with options has one name, severity and scope, whatever the options are. -/
theorem isFaithful_of_options {info : RuleInfo} {make : RuleOptions → Rule} {scope : Scope}
    (hscope : (info.id, scope) ∈ scopes)
    (h : ∀ o, (make o).id = info.id ∧ (make o).severity = info.severity ∧
      (make o).StaysWithin scope) :
    IsFaithful ⟨info, fun o => .ok (make o)⟩ := by
  intro o made hmade
  obtain rfl := Except.ok.inj hmade
  obtain ⟨hid, hseverity, hwithin⟩ := h o
  exact ⟨hid, hseverity, scope, hscope, hwithin⟩

theorem isFaithful_of_mem_entries : ∀ e ∈ entries, IsFaithful e := by
  simp only [entries, List.forall_mem_cons]
  exact
    ⟨isFaithful_of_options (by decide) fun o =>
        ⟨rfl, rfl, Rule.minimalBaseImage_staysWithin o.denylist⟩,
      isFaithful_plain (by decide) Rule.explicitTag_staysWithin,
      isFaithful_plain (by decide) Rule.layerCachingOrder_staysWithin,
      isFaithful_plain (by decide) Rule.consolidateRun_staysWithin,
      isFaithful_plain (by decide) Rule.cleanupArtifacts_staysWithin,
      isFaithful_plain (by decide) Rule.specificCopy_staysWithin,
      isFaithful_plain (by decide) Rule.nonRootUser_staysWithin,
      isFaithful_plain (by decide) Rule.envNoSecrets_staysWithin,
      isFaithful_documented rfl rfl,
      isFaithful_of_options (by decide) fun o =>
        ⟨rfl, rfl, Rule.dockerignorePresent_staysWithin o.search⟩,
      isFaithful_plain (by decide) Rule.hasTestStep_staysWithin,
      fun e he => absurd he List.not_mem_nil⟩

theorem nodup_ids : ids.Nodup := by decide

/-- A rule that the registry makes with some options. -/
inductive Makes (o : RuleOptions) : Rule → Prop
  | minimalBaseImage : Makes o (Rule.minimalBaseImage o.denylist)
  | explicitTag : Makes o Rule.explicitTag
  | layerCachingOrder : Makes o Rule.layerCachingOrder
  | consolidateRun : Makes o Rule.consolidateRun
  | cleanupArtifacts : Makes o Rule.cleanupArtifacts
  | specificCopy : Makes o Rule.specificCopy
  | nonRootUser : Makes o Rule.nonRootUser
  | envNoSecrets : Makes o Rule.envNoSecrets
  | documented (share : Rule.isShare o.threshold = true) : Makes o (Rule.documented o.threshold)
  | dockerignorePresent : Makes o (Rule.dockerignorePresent o.search)
  | hasTestStep : Makes o Rule.hasTestStep

theorem makes_of_build {o : RuleOptions} {e : RuleEntry} {r : Rule} (he : e ∈ entries)
    (h : e.build o = .ok r) : Makes o r := by
  have hplain : ∀ {made : Rule}, Makes o made →
      ∀ r, .ok made = (.ok r : Except SelectionError _) → Makes o r := by
    rintro made hmade r hr
    exact Except.ok.inj hr ▸ hmade
  have hall : ∀ e ∈ entries, ∀ r, e.build o = .ok r → Makes o r := by
    simp only [entries, List.forall_mem_cons]
    refine ⟨hplain .minimalBaseImage, hplain .explicitTag, hplain .layerCachingOrder,
      hplain .consolidateRun, hplain .cleanupArtifacts, hplain .specificCopy, hplain .nonRootUser,
      hplain .envNoSecrets, ?documented, hplain .dockerignorePresent, hplain .hasTestStep,
      fun e he => absurd he List.not_mem_nil⟩
    case documented =>
      intro r hr
      dsimp only [buildDocumented] at hr
      split at hr
      · rename_i hshare
        exact hplain (.documented hshare) r hr
      · exact absurd hr (by simp)
  exact hall e he r h

end Registry

namespace Selection

/-- The severity of a rule under a selection: the one it is given, or else its own. -/
def effective (s : Selection) (info : RuleInfo) : Severity :=
  ((s.severity.get? info.id).bind fun name => Severity.ofName? (Text.upper name)).getD info.severity

variable {s : Selection} {o : RuleOptions} {rules : List Rule}

theorem matches_adjust {info : RuleInfo} {r adjusted : Rule}
    (hr : Registry.Matches info info.severity r) (h : s.adjust r = .ok adjusted) :
    Registry.Matches info (s.effective info) adjusted := by
  unfold adjust at h
  rw [hr.id] at h
  unfold effective
  cases hname : s.severity.get? info.id with
  | none =>
    rw [hname] at h
    obtain rfl := Except.ok.inj h
    exact hr
  | some name =>
    rw [hname] at h
    dsimp only at h
    cases hseverity : Severity.ofName? (Text.upper name) with
    | none => exact absurd h (by simp [hseverity])
    | some severity =>
      rw [hseverity] at h
      obtain rfl := Except.ok.inj h
      obtain ⟨scope, hscope, hwithin⟩ := hr.scope
      refine ⟨(Rule.withSeverity_id r severity).trans hr.id, ?_, scope, hscope,
        hwithin.withSeverity severity⟩
      rw [Option.bind_some, hseverity, Option.getD_some]
      exact Rule.withSeverity_severity r severity

/-- An adjusted rule is the rule with some severity, be it its own. -/
theorem exists_severity_of_adjust {r adjusted : Rule} (h : s.adjust r = .ok adjusted) :
    ∃ severity, adjusted = r.withSeverity severity := by
  unfold adjust at h
  split at h
  · exact ⟨r.severity, (Except.ok.inj h).symm.trans (if_pos rfl).symm⟩
  · split at h
    · exact ⟨_, (Except.ok.inj h).symm⟩
    · exact absurd h (by simp)

/-- A rule of a selection is one that the registry makes, with some severity. -/
theorem exists_makes_of_mem (h : s.rules o = .ok rules) {adjusted : Rule}
    (hadjusted : adjusted ∈ rules) :
    ∃ r, Registry.Makes o r ∧ ∃ severity, adjusted = r.withSeverity severity := by
  unfold Selection.rules at h
  split at h
  · obtain ⟨e, he, hmade⟩ := exists_left_of_forall₂ (forall₂_of_mapM_eq_ok h) hadjusted
    obtain ⟨r, hr, hadjust⟩ := exists_of_bind_eq_ok hmade
    exact ⟨r, Registry.makes_of_build (List.mem_filter.mp he).1 hr,
      exists_severity_of_adjust hadjust⟩
  · exact absurd h (by simp)

/-- The rules of a selection are those wanted, each as it is told about but for the severity. -/
theorem forall₂_matches_rules (h : s.rules o = .ok rules) :
    List.Forall₂ (fun info r => Registry.Matches info (s.effective info) r)
      (Registry.infos.filter fun info => s.wants info.id) rules := by
  unfold Selection.rules at h
  split at h
  · have hfaithful : ∀ e ∈ Registry.entries.filter fun e => s.wants e.info.id,
        Registry.IsFaithful e :=
      fun e he => Registry.isFaithful_of_mem_entries e (List.mem_filter.mp he).1
    rw [Registry.infos, List.filter_map, List.forall₂_map_left_iff]
    refine ((List.forall₂_and_left _ _).mpr ⟨hfaithful, forall₂_of_mapM_eq_ok h⟩).imp ?_
    rintro e adjusted ⟨he, hmade⟩
    obtain ⟨r, hr, hadjusted⟩ := exists_of_bind_eq_ok hmade
    exact matches_adjust (he o r hr) hadjusted
  · exact absurd h (by simp)

/-- The rules of a selection come in the order of the registry. -/
theorem map_id_rules (h : s.rules o = .ok rules) :
    rules.map Rule.id = Registry.ids.filter s.wants := by
  have hnames : List.Forall₂ (fun info (r : Rule) => info.id = r.id)
      (Registry.infos.filter fun info => s.wants info.id) rules :=
    (forall₂_matches_rules h).imp fun info r hr => hr.id.symm
  rw [Registry.ids, List.filter_map, eq_comm, ← List.forall₂_eq_eq_eq, List.forall₂_map_left_iff,
    List.forall₂_map_right_iff]
  exact hnames

theorem exists_info_of_mem (h : s.rules o = .ok rules) {r : Rule} (hr : r ∈ rules) :
    ∃ info ∈ Registry.infos, Registry.Matches info (s.effective info) r := by
  obtain ⟨info, hinfo, hmatches⟩ := exists_left_of_forall₂ (forall₂_matches_rules h) hr
  exact ⟨info, (List.mem_filter.mp hinfo).1, hmatches⟩

end Selection

end Drydock
