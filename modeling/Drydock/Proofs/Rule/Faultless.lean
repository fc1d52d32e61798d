/-
  Rules that raise no fault. A rule comes to findings whatever the steps are, and none of its
  messages begins as those about a failed rule do (`IsFaultless`). That holds of every rule of the
  registry as it is made, if the paths that one of them looks at can be looked at
  (`Makes.isFaultless`), and so of every rule that a selection makes of them
  (`isFaultless_of_rules`).
-/
import Drydock.Engine
import Drydock.Proofs.Rule.Selection

namespace Drydock

/-- Whether a finding tells of a rule that failed. -/
def Finding.tellsOfFault (f : Finding) : Bool := f.message.startsWith "internal rule fault"

/-- A finding about a rule that failed tells of it. -/
theorem Engine.tellsOfFault_faultFinding (id : Text) (fault : Fault) :
    (faultFinding id fault).tellsOfFault = true := rfl

theorem Finding.not_tellsOfFault_of_head {f : Finding} (h : f.message.head? ≠ some 'i') :
    f.tellsOfFault = false := by
  refine Bool.eq_false_iff.mpr fun hfault => ?_
  obtain ⟨rest, hrest⟩ := List.isPrefixOf_iff_prefix.mp hfault
  rw [← hrest] at h
  exact h rfl

namespace Text

/-- A text begins like its first part. -/
theorem head?_append_ne {c : Char} {part : Text} (h : part.head?.any (· != c) = true)
    (rest : Text) : (part ++ rest).head? ≠ some c := by
  cases part with
  | nil => exact absurd h (by simp)
  | cons d part =>
    rw [List.cons_append, List.head?_cons]
    simpa using h

theorem head?_concat_ne {c : Char} {piece : Text} (h : piece.head?.any (· != c) = true)
    (rest : List Text) : (concat (piece :: rest)).head? ≠ some c :=
  head?_append_ne h rest.flatten

/-- A number does not begin with a letter. -/
theorem head?_ofNat_any (n : Nat) : (ofNat n).head?.any (· != 'i') = true := by
  obtain ⟨digit, digits, hdigits⟩ :=
    List.exists_cons_of_ne_nil (Nat.toDigits_ne_nil (n := n) (b := 10))
  have hdigit : digit.isDigit = true :=
    Nat.isDigit_of_mem_toDigits (by decide) (by decide) (hdigits ▸ List.mem_cons_self)
  rw [ofNat, hdigits, List.head?_cons, Option.any_some, bne_iff_ne]
  rintro rfl
  exact absurd hdigit (by decide)

end Text

namespace Rule

/-- A rule raises no fault, and what it says does not read as if it had. -/
def IsFaultless (r : Rule) : Prop :=
  ∀ instructions, ∃ findings, r.inspect instructions = .ok findings ∧
    ∀ f ∈ findings, f.tellsOfFault = false

theorem isFaultless_ofChecked {id : Text} {severity : Severity}
    {checked : List Instruction → Except Fault (List Remark)}
    (h : ∀ instructions, ∃ remarks, checked instructions = .ok remarks ∧
      ∀ remark ∈ remarks, remark.2.head? ≠ some 'i') :
    (ofChecked id severity checked).IsFaultless := by
  intro instructions
  obtain ⟨remarks, hremarks, hhead⟩ := h instructions
  refine ⟨remarks.map (finding id severity), ?_, fun f hf => ?_⟩
  · show (checked instructions).map _ = _
    rw [hremarks]
    rfl
  · obtain ⟨remark, hremark, rfl⟩ := List.mem_map.mp hf
    exact Finding.not_tellsOfFault_of_head (hhead remark hremark)

theorem isFaultless_ofRemarks {id : Text} {severity : Severity}
    {remarks : List Instruction → List Remark}
    (h : ∀ instructions, ∀ remark ∈ remarks instructions, remark.2.head? ≠ some 'i') :
    (ofRemarks id severity remarks).IsFaultless := by
  have hchecked : (ofChecked id severity fun steps => .ok (remarks steps)).IsFaultless :=
    isFaultless_ofChecked fun steps => ⟨_, rfl, h steps⟩
  exact hchecked

theorem IsFaultless.withSeverity {r : Rule} (h : r.IsFaultless) (severity : Severity) :
    (r.withSeverity severity).IsFaultless := by
  unfold Rule.withSeverity
  split
  · exact h
  · intro instructions
    obtain ⟨findings, hinspect, hplain⟩ := h instructions
    refine ⟨findings.map (relabel severity), ?_, fun f hf => ?_⟩
    · dsimp only
      rw [hinspect]
      rfl
    · obtain ⟨g, hg, rfl⟩ := List.mem_map.mp hf
      exact hplain g hg

/-! ## What the rules say -/

theorem minimalBaseImage_isFaultless (denylist : List Text) :
    (minimalBaseImage denylist).IsFaultless := by
  rw [minimalBaseImage_eq]
  refine isFaultless_ofRemarks fun instructions remark hremark => ?_
  obtain ⟨s, -, -, rfl⟩ := exists_stage_of_mem_fullImageRemarks hremark
  exact Text.head?_concat_ne (by decide) _

theorem head?_tagFault?_ne {base : ImageReference} {message : Text}
    (h : tagFault? base = some message) : message.head? ≠ some 'i' := by
  unfold tagFault? at h
  split at h
  · exact absurd h (by simp)
  · split at h
    · obtain rfl := Option.some.inj h
      exact Text.head?_concat_ne (by decide) _
    · split at h
      · obtain rfl := Option.some.inj h
        exact Text.head?_concat_ne (by decide) _
      · exact absurd h (by simp)

theorem explicitTag_isFaultless : explicitTag.IsFaultless := by
  rw [explicitTag_eq]
  refine isFaultless_ofRemarks fun instructions remark hremark => ?_
  obtain ⟨s, -, -, hfault⟩ := exists_stage_of_mem_tagRemarksAfter hremark
  exact head?_tagFault?_ne hfault

theorem layerCachingOrder_isFaultless : layerCachingOrder.IsFaultless := by
  rw [layerCachingOrder_eq]
  refine isFaultless_ofRemarks fun instructions remark hremark => ?_
  obtain ⟨s, -, hfound⟩ := List.mem_filterMap.mp hremark
  obtain ⟨pair, -, rfl⟩ := Option.map_eq_some_iff.mp hfound
  exact Text.head?_concat_ne (by decide) _

theorem consolidateRun_isFaultless : consolidateRun.IsFaultless := by
  rw [consolidateRun_eq]
  refine isFaultless_ofRemarks fun instructions remark hremark => ?_
  obtain ⟨block, -, rfl⟩ := List.mem_map.mp hremark
  exact Text.head?_concat_ne (Text.head?_ofNat_any _) _

theorem cleanupArtifacts_isFaultless : cleanupArtifacts.IsFaultless := by
  rw [cleanupArtifacts_eq]
  refine isFaultless_ofRemarks fun instructions remark hremark => ?_
  obtain ⟨r, -, rfl⟩ := List.mem_map.mp hremark
  exact Text.head?_concat_ne (by decide) _

theorem specificCopy_isFaultless : specificCopy.IsFaultless := by
  refine isFaultless_ofRemarks fun instructions remark hremark => ?_
  obtain ⟨i, hi, rfl⟩ := List.mem_map.mp hremark
  have hopcode := opcode_of_copiesContext (List.mem_filter.mp hi).2
  rw [List.mem_pair] at hopcode
  refine Text.head?_concat_ne ?_ _
  rcases hopcode with hcopy | hadd
  · rw [hcopy]
    decide
  · rw [hadd]
    decide

theorem nonRootUser_isFaultless : nonRootUser.IsFaultless := by
  rw [nonRootUser_eq]
  refine isFaultless_ofRemarks fun instructions remark hremark => ?_
  unfold userRemarks at hremark
  dsimp only at hremark
  split at hremark
  · obtain rfl := List.mem_singleton.mp hremark
    show missingUserMessage.head? ≠ some 'i'
    decide
  · split at hremark
    · obtain rfl := List.mem_singleton.mp hremark
      exact Text.head?_concat_ne (by decide) _
    · exact absurd hremark List.not_mem_nil

theorem envNoSecrets_isFaultless : envNoSecrets.IsFaultless := by
  rw [envNoSecrets_eq]
  refine isFaultless_ofRemarks fun instructions remark hremark => ?_
  obtain ⟨i, -, hname⟩ := List.mem_flatMap.mp hremark
  obtain ⟨name, hname, rfl⟩ := List.mem_map.mp hname
  unfold literalSecrets at hname
  split at hname
  · rename_i hkind
    rw [Bool.or_eq_true, decide_eq_true_iff, decide_eq_true_iff] at hkind
    refine Text.head?_concat_ne ?_ _
    rcases hkind with henv | harg
    · rw [henv]
      decide
    · rw [harg]
      decide
  · exact absurd hname List.not_mem_nil

theorem documented_isFaultless (threshold : Float) : (documented threshold).IsFaultless := by
  rw [documented_eq]
  refine isFaultless_ofRemarks fun instructions remark hremark => ?_
  unfold documentationRemarks at hremark
  split at hremark
  · exact absurd hremark List.not_mem_nil
  · obtain rfl := List.mem_singleton.mp hremark
    exact Text.head?_concat_ne (Text.head?_ofNat_any _) _

theorem hasTestStep_isFaultless : hasTestStep.IsFaultless := by
  refine isFaultless_ofRemarks fun instructions remark hremark => ?_
  unfold missingTestRemarks at hremark
  dsimp only at hremark
  split at hremark
  · exact absurd hremark List.not_mem_nil
  · obtain rfl := List.mem_singleton.mp hremark
    exact Text.head?_concat_ne (by decide) _

/-! ## The search for an ignore file -/

namespace IgnoreSearch

/-- A search that comes to an end: the Dockerfile, if its path is known, has a name, and every path
can be looked at. -/
structure IsPossible (s : IgnoreSearch) : Prop where
  name : ∀ p ∈ s.dockerfile, p.name ≠ []
  look : ∀ p, s.fault? p = none

theorem exists_besides {dockerfile : Path} (h : dockerfile.name ≠ []) :
    ∃ p, besides dockerfile = .ok p := by
  have hparts : dockerfile.parts ≠ [] := by
    intro hnil
    exact h (by rw [Path.name, hnil]; rfl)
  refine ⟨dockerfile.parent.child (dockerfile.name ++ ignoreName), ?_⟩
  rw [besides, Path.withName?, if_neg (by simpa using hparts)]

variable {s : IgnoreSearch}

theorem exists_candidates (h : s.IsPossible) : ∃ paths, s.candidates = .ok paths := by
  unfold candidates
  cases s.ignoreFile with
  | some p => exact ⟨[p], rfl⟩
  | none =>
    cases hdockerfile : s.dockerfile with
    | none => exact ⟨_, rfl⟩
    | some dockerfile =>
      obtain ⟨p, hp⟩ := exists_besides (h.name dockerfile hdockerfile)
      exact ⟨_, by dsimp only; rw [hp]; rfl⟩

theorem exists_lookFor (h : s.IsPossible) (paths : List Path) :
    ∃ found, s.lookFor paths = .ok found := by
  induction paths with
  | nil => exact ⟨false, rfl⟩
  | cons p rest ih =>
    rw [lookFor, look, h.look p]
    cases s.isFile p with
    | true => exact ⟨true, rfl⟩
    | false => exact ih

end IgnoreSearch

theorem exists_ignoreRemarks {s : IgnoreSearch} (h : s.IsPossible) :
    ∃ remarks, checkedIgnoreRemarks s = .ok remarks := by
  obtain ⟨paths, hpaths⟩ := IgnoreSearch.exists_candidates h
  obtain ⟨found, hfound⟩ := IgnoreSearch.exists_lookFor h paths
  unfold checkedIgnoreRemarks
  rw [hpaths]
  cases paths with
  | nil => exact ⟨[], rfl⟩
  | cons p rest =>
    show ∃ remarks, (s.lookFor (p :: rest) >>= _) = Except.ok remarks
    rw [hfound]
    cases found with
    | true => exact ⟨[], rfl⟩
    | false => exact ⟨[(0, missingIgnoreMessage p)], rfl⟩

theorem dockerignorePresent_isFaultless {s : IgnoreSearch} (h : s.IsPossible) :
    (dockerignorePresent s).IsFaultless := by
  refine isFaultless_ofChecked fun instructions => ?_
  obtain ⟨remarks, hremarks⟩ := exists_ignoreRemarks h
  refine ⟨remarks, hremarks, fun remark hremark => ?_⟩
  obtain ⟨p, rfl⟩ := exists_path_of_mem_ignoreRemarks hremarks hremark
  exact Text.head?_concat_ne (by decide) _

end Rule

/-! ## Rules that are made -/

namespace Registry

variable {o : RuleOptions}

/-- No rule that the registry makes raises a fault, but for the one that searches for an ignore file
if this search is not possible. -/
theorem Makes.isFaultless_of_search {r : Rule} (h : Makes o r)
    (hsearch : r.id = "dockerignore-present" → o.search.IsPossible) : r.IsFaultless := by
  cases h with
  | minimalBaseImage => exact Rule.minimalBaseImage_isFaultless o.denylist
  | explicitTag => exact Rule.explicitTag_isFaultless
  | layerCachingOrder => exact Rule.layerCachingOrder_isFaultless
  | consolidateRun => exact Rule.consolidateRun_isFaultless
  | cleanupArtifacts => exact Rule.cleanupArtifacts_isFaultless
  | specificCopy => exact Rule.specificCopy_isFaultless
  | nonRootUser => exact Rule.nonRootUser_isFaultless
  | envNoSecrets => exact Rule.envNoSecrets_isFaultless
  | documented => exact Rule.documented_isFaultless o.threshold
  | dockerignorePresent => exact Rule.dockerignorePresent_isFaultless (hsearch rfl)
  | hasTestStep => exact Rule.hasTestStep_isFaultless

theorem Makes.isFaultless {r : Rule} (h : Makes o r) (hsearch : o.search.IsPossible) :
    r.IsFaultless :=
  h.isFaultless_of_search fun _ => hsearch

/-- Every rule can be made, if the threshold is a share. -/
theorem exists_build (h : Rule.isShare o.threshold = true) {e : RuleEntry} (he : e ∈ entries) :
    ∃ r, e.build o = .ok r := by
  rcases build_cases (o := o) e he with ⟨-, houtside, -⟩ | ⟨-, hbuild⟩
  · exact absurd (h.symm.trans houtside) (by decide)
  · exact hbuild

end Registry

namespace Selection

variable {s : Selection} {o : RuleOptions} {rules : List Rule}

/-- No rule that a selection makes raises a fault. -/
theorem isFaultless_of_rules (hsearch : o.search.IsPossible) (h : s.rules o = .ok rules) :
    ∀ r ∈ rules, r.IsFaultless := by
  intro adjusted hadjusted
  obtain ⟨r, hr, severity, rfl⟩ := exists_makes_of_mem h hadjusted
  exact (hr.isFaultless hsearch).withSeverity severity

end Selection

end Drydock
