/-
  Where findings point. The findings of a rule that does not fail carry its name and its severity,
  and each of them stands at the line of a step of a kind that the rule looks at, or at line zero if
  it is about the whole Dockerfile (`StaysWithin`); a severity given to the rule changes no line.
-/
import Drydock.Proofs.Rule.Access
import Drydock.Rule.IgnoreFile

namespace Drydock

/-! ## Scopes -/

/-- The lines at which the findings of a rule may stand: those of steps of some kinds, and line zero
if there is no step of certain kinds. -/
structure Scope where
  opcodes : List Opcode
  /-- the kinds of which no step exists if a finding is about the whole Dockerfile -/
  absent : Option (List Opcode) := none
deriving DecidableEq, Repr

namespace Scope

/-- The scope of findings that are always about the whole Dockerfile. -/
def whole : Scope := ⟨[], some []⟩

/-- Whether a finding may stand at a line. -/
def Admits (scope : Scope) (instructions : List Instruction) (line : Int) : Prop :=
  (∃ i ∈ instructions, i.opcode ∈ scope.opcodes ∧ line = i.line) ∨
    ∃ kinds ∈ scope.absent, (∀ i ∈ instructions, i.opcode ∉ kinds) ∧ line = 0

variable {scope : Scope} {instructions : List Instruction}

theorem admits_line {i : Instruction} (hi : i ∈ instructions) (hopcode : i.opcode ∈ scope.opcodes) :
    scope.Admits instructions i.line :=
  Or.inl ⟨i, hi, hopcode, rfl⟩

theorem admits_base {s : Stage} (hs : s ∈ (Stage.split instructions).stages)
    (hbase : .base ∈ scope.opcodes) : scope.Admits instructions s.base.line := by
  have hpart := Stage.isOf_of_mem_split hs
  rw [hpart.line]
  exact admits_line hpart.opening (hpart.opcode ▸ hbase)

theorem admits_whole : whole.Admits instructions 0 :=
  Or.inr ⟨[], rfl, fun _ _ => List.not_mem_nil, rfl⟩

end Scope

/-- The findings of a rule carry its name and its severity and stand within a scope. -/
def Rule.StaysWithin (r : Rule) (scope : Scope) : Prop :=
  ∀ instructions findings, r.inspect instructions = .ok findings → ∀ f ∈ findings,
    f.ruleId = r.id ∧ f.severity = r.severity ∧ scope.Admits instructions f.line

namespace Rule

variable {scope : Scope} {instructions : List Instruction}

theorem staysWithin_ofRemarks {id : Text} {severity : Severity}
    {remarks : List Instruction → List Remark}
    (h : ∀ instructions, ∀ remark ∈ remarks instructions, scope.Admits instructions remark.1) :
    (ofRemarks id severity remarks).StaysWithin scope := by
  intro instructions findings hinspect f hf
  obtain rfl := Except.ok.inj hinspect
  obtain ⟨remark, hremark, rfl⟩ := List.mem_map.mp hf
  exact ⟨rfl, rfl, h instructions remark hremark⟩

theorem staysWithin_ofChecked {id : Text} {severity : Severity}
    {checked : List Instruction → Except Fault (List Remark)}
    (h : ∀ instructions remarks, checked instructions = .ok remarks →
      ∀ remark ∈ remarks, scope.Admits instructions remark.1) :
    (ofChecked id severity checked).StaysWithin scope := by
  intro instructions findings hinspect f hf
  obtain ⟨remarks, hremarks, rfl⟩ := exists_of_map_eq_ok hinspect
  obtain ⟨remark, hremark, rfl⟩ := List.mem_map.mp hf
  exact ⟨rfl, rfl, h instructions remarks hremarks remark hremark⟩

theorem withSeverity_id (r : Rule) (severity : Severity) : (r.withSeverity severity).id = r.id := by
  unfold Rule.withSeverity
  split <;> rfl

theorem withSeverity_severity (r : Rule) (severity : Severity) :
    (r.withSeverity severity).severity = severity := by
  unfold Rule.withSeverity
  split
  · rename_i h
    exact h.symm
  · rfl

/-- A rule that is given a severity stands where it did. -/
theorem StaysWithin.withSeverity {r : Rule} (h : r.StaysWithin scope) (severity : Severity) :
    (r.withSeverity severity).StaysWithin scope := by
  unfold Rule.withSeverity
  split
  · exact h
  · intro instructions findings hinspect f hf
    cases hr : r.inspect instructions with
    | error fault => exact absurd hinspect (by simp [hr, Except.map])
    | ok found =>
      have hfound : found.map (relabel severity) = findings := by
        simpa [hr, Except.map] using hinspect
      obtain ⟨g, hg, rfl⟩ := List.mem_map.mp (hfound ▸ hf)
      obtain ⟨hid, -, hadmits⟩ := h instructions found hr g hg
      exact ⟨hid, rfl, hadmits⟩

/-! ## Base images -/

theorem exists_stage_of_mem_fullImageRemarks {denylist : List Text} {remark : Remark}
    (h : remark ∈ fullImageRemarks denylist instructions) :
    ∃ s ∈ (Stage.split instructions).stages, s.base.resolved = true ∧
      remark = (↑s.base.line, fullImageMessage s.base.text) := by
  unfold fullImageRemarks at h
  split at h
  · exact absurd h List.not_mem_nil
  · rename_i base hbase
    obtain ⟨s, hs, rfl⟩ := Option.map_eq_some_iff.mp hbase
    obtain ⟨last, hlast, hs⟩ := Option.bind_eq_some_iff.mp hs
    have hmem := Stage.mem_of_mem_lineage (List.mem_of_getLast? hlast) (List.mem_of_getLast? hs)
    unfold finalBaseRemarks at h
    split at h
    · rename_i hjudged
      rw [Bool.and_eq_true, Bool.and_eq_true] at hjudged
      exact ⟨s, hmem, hjudged.1.1, List.mem_singleton.mp h⟩
    · exact absurd h List.not_mem_nil

theorem minimalBaseImage_staysWithin (denylist : List Text) :
    (minimalBaseImage denylist).StaysWithin ⟨[.base], none⟩ := by
  rw [minimalBaseImage_eq]
  refine staysWithin_ofRemarks fun instructions remark hremark => ?_
  obtain ⟨s, hs, -, rfl⟩ := exists_stage_of_mem_fullImageRemarks hremark
  exact Scope.admits_base hs List.mem_cons_self

theorem exists_stage_of_mem_tagRemarksAfter {names : List Text} {stages : List Stage}
    {remark : Remark} (h : remark ∈ tagRemarksAfter names stages) :
    ∃ s ∈ stages, remark.1 = s.base.line ∧ tagFault? s.base = some remark.2 := by
  induction stages generalizing names with
  | nil => exact absurd h List.not_mem_nil
  | cons s stages ih =>
    rcases List.mem_append.mp h with h | h
    · obtain ⟨fault, hfault, rfl⟩ := Option.map_eq_some_iff.mp (Option.mem_toList.mp h)
      refine ⟨s, List.mem_cons_self, rfl, ?_⟩
      split at hfault
      · exact absurd hfault (by simp)
      · exact hfault
    · obtain ⟨other, hother, hremark⟩ := ih h
      exact ⟨other, List.mem_cons_of_mem _ hother, hremark⟩

theorem explicitTag_staysWithin : explicitTag.StaysWithin ⟨[.base], none⟩ := by
  rw [explicitTag_eq]
  refine staysWithin_ofRemarks fun instructions remark hremark => ?_
  obtain ⟨s, hs, hline, -⟩ := exists_stage_of_mem_tagRemarksAfter hremark
  rw [hline]
  exact Scope.admits_base hs List.mem_cons_self

/-! ## The build context -/

theorem opcode_of_copiesContext {i : Instruction} (h : i.copiesContext = true) :
    i.opcode ∈ [Opcode.copy, .add] := by
  have hfiles := (Bool.and_eq_true_iff.mp h).1
  simpa [Opcode.copiesFiles] using hfiles

theorem specificCopy_staysWithin : specificCopy.StaysWithin ⟨[.copy, .add], none⟩ := by
  refine staysWithin_ofRemarks fun instructions remark hremark => ?_
  obtain ⟨i, hi, rfl⟩ := List.mem_map.mp hremark
  obtain ⟨hmem, hcopies⟩ := List.mem_filter.mp hi
  exact Scope.admits_line hmem (opcode_of_copiesContext hcopies)

theorem mem_of_copyBeforeInstall? {copy install : Instruction}
    (h : copyBeforeInstall? instructions = some (copy, install)) :
    copy ∈ instructions ∧ copy.copiesContext = true := by
  unfold copyBeforeInstall? at h
  split at h
  · exact absurd h (by simp)
  · rename_i first rest hfirst
    obtain ⟨_, -, hpair⟩ := Option.map_eq_some_iff.mp h
    obtain rfl : first = copy := (Prod.mk.inj hpair).1
    refine ⟨(List.dropWhile_suffix _).subset (hfirst ▸ List.mem_cons_self), ?_⟩
    have hhead := List.head?_dropWhile_not (fun i => !Instruction.copiesContext i) instructions
    rw [hfirst] at hhead
    simpa using hhead

theorem layerCachingOrder_staysWithin : layerCachingOrder.StaysWithin ⟨[.copy, .add], none⟩ := by
  rw [layerCachingOrder_eq]
  refine staysWithin_ofRemarks fun instructions remark hremark => ?_
  obtain ⟨s, hs, hfound⟩ := List.mem_filterMap.mp hremark
  obtain ⟨⟨copy, install⟩, hcopy, rfl⟩ := Option.map_eq_some_iff.mp hfound
  obtain ⟨hmem, hcopies⟩ := mem_of_copyBeforeInstall? hcopy
  exact Scope.admits_line ((Stage.isOf_of_mem_split hs).rest copy hmem)
    (opcode_of_copiesContext hcopies)

/-! ## Commands -/

theorem mem_of_mem_splitWhere {α : Type} {p : α → Bool} {l piece : List α}
    (h : piece ∈ splitWhere p l) : ∀ a ∈ piece, a ∈ l ∧ p a = false := by
  induction l generalizing piece with
  | nil =>
    obtain rfl := List.mem_singleton.mp h
    exact fun a ha => absurd ha List.not_mem_nil
  | cons b l ih =>
    obtain ⟨first, rest, hpieces⟩ := List.exists_cons_of_ne_nil (splitWhere_ne_nil p l)
    have hlater : ∀ other ∈ splitWhere p l, ∀ a ∈ other, a ∈ b :: l ∧ p a = false :=
      fun other hother a ha => (ih hother a ha).imp_left (List.mem_cons_of_mem _)
    rw [splitWhere] at h
    split at h
    · rcases List.mem_cons.mp h with rfl | h
      · exact fun a ha => absurd ha List.not_mem_nil
      · exact hlater piece h
    · rename_i hb
      rw [hpieces, pushFront] at h
      rcases List.mem_cons.mp h with rfl | h
      · intro a ha
        rcases List.mem_cons.mp ha with rfl | ha
        · exact ⟨List.mem_cons_self, Bool.eq_false_iff.mpr hb⟩
        · exact hlater first (hpieces ▸ List.mem_cons_self) a ha
      · exact hlater piece (hpieces ▸ List.mem_cons_of_mem _ h)

theorem consolidateRun_staysWithin : consolidateRun.StaysWithin ⟨[.run], none⟩ := by
  rw [consolidateRun_eq]
  refine staysWithin_ofRemarks fun instructions remark hremark => ?_
  obtain ⟨block, hblock, rfl⟩ := List.mem_map.mp hremark
  obtain ⟨hpiece, hsize⟩ := List.mem_filter.mp hblock
  cases block with
  | nil => exact absurd hsize (by simp)
  | cons i block =>
    obtain ⟨hi, hinstalls⟩ := mem_of_mem_splitWhere hpiece i List.mem_cons_self
    have hrun : i.opcode = .run := by
      have hpackages : i.installsPackages = true := by simpa using hinstalls
      exact of_decide_eq_true (Bool.and_eq_true_iff.mp hpackages).1
    exact Scope.admits_line hi (hrun ▸ List.mem_cons_self)

theorem hasTestStep_staysWithin :
    hasTestStep.StaysWithin ⟨[.cmd, .entrypoint], some [.cmd, .entrypoint]⟩ := by
  refine staysWithin_ofRemarks fun instructions remark hremark => ?_
  unfold missingTestRemarks at hremark
  dsimp only at hremark
  split at hremark
  · exact absurd hremark List.not_mem_nil
  · obtain rfl := List.mem_singleton.mp hremark
    cases hentry : finalEntryStep? instructions with
    | some i =>
      obtain ⟨hi, hkind⟩ := List.mem_filter.mp (List.mem_of_getLast? hentry)
      exact Scope.admits_line hi (by simpa [Opcode.isEntry] using hkind)
    | none =>
      refine Or.inr ⟨_, rfl, fun i hi hkind => ?_, rfl⟩
      have hnone := List.getLast?_eq_none_iff.mp hentry
      have := List.filter_eq_nil_iff.mp hnone i hi
      exact this (by simpa [Opcode.isEntry] using hkind)

/-! ## Artifacts -/

theorem line_of_mem_sweep {line : Nat} {created : Created} {paths : List Text} {r : Removal}
    (h : r ∈ (Removal.sweep line created paths).1) : r.line = line := by
  induction paths generalizing created with
  | nil => exact absurd h List.not_mem_nil
  | cons path paths ih =>
    rw [Removal.sweep] at h
    split at h
    · exact ih h
    · rcases List.mem_cons.mp h with rfl | h
      · rfl
      · exact ih h

theorem exists_run_of_mem_after {created : Created} {r : Removal}
    (h : r ∈ Removal.after created instructions) :
    ∃ i ∈ instructions, i.opcode = .run ∧ r.line = i.line := by
  induction instructions generalizing created with
  | nil => exact absurd h List.not_mem_nil
  | cons i rest ih =>
    have hlater : (∃ j ∈ rest, j.opcode = .run ∧ r.line = j.line) →
        ∃ j ∈ i :: rest, j.opcode = .run ∧ r.line = j.line :=
      fun ⟨j, hj, hrest⟩ => ⟨j, List.mem_cons_of_mem _ hj, hrest⟩
    rw [Removal.after] at h
    split at h
    · exact hlater (ih h)
    · split at h
      · rename_i hrun
        rcases List.mem_append.mp h with h | h
        · exact ⟨i, List.mem_cons_self, hrun, line_of_mem_sweep h⟩
        · exact hlater (ih h)
      · exact hlater (ih h)

theorem cleanupArtifacts_staysWithin : cleanupArtifacts.StaysWithin ⟨[.run], none⟩ := by
  rw [cleanupArtifacts_eq]
  refine staysWithin_ofRemarks fun instructions remark hremark => ?_
  obtain ⟨r, hr, rfl⟩ := List.mem_map.mp hremark
  obtain ⟨i, hi, hrun, hline⟩ := exists_run_of_mem_after hr
  rw [Removal.remark, hline]
  exact Scope.admits_line hi (hrun ▸ List.mem_cons_self)

/-! ## Users and secrets -/

/-- The steps that shape the final stage are steps, and the line that opens it is that of a base
unless there is none. -/
theorem finalSteps_within (instructions : List Instruction) :
    (∀ i ∈ (finalSteps instructions).1, i ∈ instructions) ∧
      Scope.Admits ⟨[.base, .user], some [.base]⟩ instructions (finalSteps instructions).2 := by
  unfold finalSteps
  dsimp only
  split
  · rename_i hnone
    have hbases := Stage.split_stages_eq_nil_iff.mp (List.getLast?_eq_none_iff.mp hnone)
    exact ⟨fun i hi => hi, Or.inr ⟨_, rfl, fun i hi => by simpa using hbases i hi, rfl⟩⟩
  · rename_i s hlast
    have hs := List.mem_of_getLast? hlast
    refine ⟨fun i hi => ?_, Scope.admits_base hs List.mem_cons_self⟩
    obtain ⟨ancestor, hancestor, hi⟩ := List.mem_flatMap.mp hi
    have hmem := Stage.mem_of_mem_lineage hs (List.mem_reverse.mp hancestor)
    exact (Stage.isOf_of_mem_split hmem).rest i hi

theorem nonRootUser_staysWithin : nonRootUser.StaysWithin ⟨[.base, .user], some [.base]⟩ := by
  rw [nonRootUser_eq]
  refine staysWithin_ofRemarks fun instructions remark hremark => ?_
  obtain ⟨hsteps, hanchor⟩ := finalSteps_within instructions
  unfold userRemarks at hremark
  dsimp only at hremark
  split at hremark
  · obtain rfl := List.mem_singleton.mp hremark
    exact hanchor
  · rename_i i hlast
    obtain ⟨hi, huser⟩ := List.mem_filter.mp (List.mem_of_getLast? hlast)
    split at hremark
    · obtain rfl := List.mem_singleton.mp hremark
      exact Scope.admits_line (hsteps i hi) (by simpa using Or.inr huser)
    · exact absurd hremark List.not_mem_nil

theorem envNoSecrets_staysWithin : envNoSecrets.StaysWithin ⟨[.env, .arg], none⟩ := by
  rw [envNoSecrets_eq]
  refine staysWithin_ofRemarks fun instructions remark hremark => ?_
  obtain ⟨i, hi, hname⟩ := List.mem_flatMap.mp hremark
  obtain ⟨name, hname, rfl⟩ := List.mem_map.mp hname
  unfold literalSecrets at hname
  split at hname
  · rename_i hkind
    exact Scope.admits_line hi (by simpa using hkind)
  · exact absurd hname List.not_mem_nil

/-! ## The whole Dockerfile -/

theorem documented_staysWithin (threshold : Float) : (documented threshold).StaysWithin .whole := by
  rw [documented_eq]
  refine staysWithin_ofRemarks fun instructions remark hremark => ?_
  unfold documentationRemarks at hremark
  split at hremark
  · exact absurd hremark List.not_mem_nil
  · obtain rfl := List.mem_singleton.mp hremark
    exact Scope.admits_whole

/-- What is said of a missing ignore file is said of one path. -/
theorem exists_path_of_mem_ignoreRemarks {s : IgnoreSearch} {remarks : List Remark}
    (h : checkedIgnoreRemarks s = .ok remarks) {remark : Remark} (hremark : remark ∈ remarks) :
    ∃ p, remark = (0, missingIgnoreMessage p) := by
  obtain ⟨candidates, -, h⟩ := exists_of_bind_eq_ok h
  split at h
  · obtain rfl := Except.ok.inj h
    exact absurd hremark List.not_mem_nil
  · obtain ⟨found, -, h⟩ := exists_of_bind_eq_ok h
    split at h
    · obtain rfl := Except.ok.inj h
      exact absurd hremark List.not_mem_nil
    · obtain ⟨first, -, h⟩ := exists_of_bind_eq_ok h
      obtain rfl := Except.ok.inj h
      exact ⟨first, List.mem_singleton.mp hremark⟩

theorem dockerignorePresent_staysWithin (s : IgnoreSearch) :
    (dockerignorePresent s).StaysWithin .whole := by
  refine staysWithin_ofChecked fun instructions remarks hremarks remark hremark => ?_
  obtain ⟨p, rfl⟩ := exists_path_of_mem_ignoreRemarks hremarks hremark
  exact Scope.admits_whole

end Rule

end Drydock
