/-
  Rules and further steps. Some rules judge each step by what stands above it. A further step at the
  end leaves their remarks as they are or adds some behind them (`Accrues`), though it may belong to
  a stage that is there already. So whatever follows the front of a Dockerfile, the findings on the
  front are the first of all (`inspect_append`).
-/
import Drydock.Proofs.Rule.Access
import Drydock.Proofs.Rule.Removal
import Mathlib.Data.List.Infix

namespace Drydock.Rule

/-- A further step only adds remarks, behind those that are there. -/
def Accrues (remarks : List Instruction → List Remark) : Prop :=
  ∀ (instructions : List Instruction) (i : Instruction),
    remarks instructions <+: remarks (instructions ++ [i])

/-- As many steps only add remarks as well. -/
theorem Accrues.append {remarks : List Instruction → List Remark} (h : Accrues remarks)
    (front behind : List Instruction) : remarks front <+: remarks (front ++ behind) := by
  induction behind using List.reverseRecOn with
  | nil =>
    rw [List.append_nil]
  | append_singleton behind i ih =>
    rw [← List.append_assoc]
    exact ih.trans (h (front ++ behind) i)

/-! ## Remarks on stages -/

/-- A further step opens a stage, or belongs to the last one, or stands before all of them. -/
theorem accrues_of_stages {remarks : List Stage → List Remark}
    (hopen : ∀ stages s, remarks stages <+: remarks (stages ++ [s]))
    (hextend : ∀ stages s i, remarks (stages ++ [s]) <+: remarks (stages ++ [Stage.extend s i])) :
    Accrues fun instructions => remarks (Stage.split instructions).stages := by
  intro instructions i
  dsimp only
  by_cases hbase : i.opcode = .base
  · rw [Stage.split_concat_base hbase]
    exact hopen _ _
  · rcases List.eq_nil_or_concat (Stage.split instructions).stages with hnone | ⟨stages, s, hlast⟩
    · rw [Stage.split_concat_front hbase hnone]
    · rw [List.concat_eq_append] at hlast
      rw [Stage.split_concat_step hbase hlast, hlast]
      exact hextend stages s i

theorem tagRemarksAfter_append (names : List Text) (stages more : List Stage) :
    tagRemarksAfter names (stages ++ more) =
      tagRemarksAfter names stages ++
        tagRemarksAfter (names ++ stages.flatMap fun s => s.base.stageName.toList) more := by
  induction stages generalizing names with
  | nil => rw [List.nil_append, List.flatMap_nil, List.append_nil, tagRemarksAfter, List.nil_append]
  | cons s stages ih =>
    rw [List.cons_append, tagRemarksAfter, tagRemarksAfter, ih, List.flatMap_cons,
      List.append_assoc, List.append_assoc]

theorem tagRemarks_accrues : Accrues tagRemarks := by
  refine accrues_of_stages (fun stages s => ?_) fun stages s i => ?_
  · rw [tagRemarksAfter_append]
    exact List.prefix_append _ _
  · -- The image of a stage is that of the step that opens it.
    rw [tagRemarksAfter_append, tagRemarksAfter_append]
    exact List.prefix_rfl

/-- A copy and an installation behind it are found whatever follows. -/
theorem copyBeforeInstall?_append {instructions : List Instruction}
    {found : Instruction × Instruction} (h : copyBeforeInstall? instructions = some found)
    (more : List Instruction) :
    copyBeforeInstall? (instructions ++ more) = some found := by
  unfold copyBeforeInstall? at h ⊢
  rw [List.dropWhile_append]
  cases hdrop : instructions.dropWhile fun i => !i.copiesContext with
  | nil =>
    rw [hdrop] at h
    exact absurd h (by simp)
  | cons copy rest =>
    rw [hdrop] at h
    obtain ⟨install, hinstall, rfl⟩ := Option.map_eq_some_iff.mp h
    rw [List.isEmpty_cons, if_neg Bool.false_ne_true, List.cons_append]
    dsimp only
    rw [List.find?_append, hinstall]
    rfl

theorem layerOrderRemark?_extend {s : Stage} {remark : Remark}
    (h : layerOrderRemark? s = some remark) (i : Instruction) : layerOrderRemark? (s.extend i) = some remark := by
  obtain ⟨found, hfound, rfl⟩ := Option.map_eq_some_iff.mp h
  exact congrArg (Option.map _) (copyBeforeInstall?_append hfound [i])

theorem layerOrderRemarks_accrues : Accrues layerOrderRemarks := by
  refine accrues_of_stages (fun stages s => ?_) fun stages s i => ?_
  · rw [List.filterMap_append]
    exact List.prefix_append _ _
  · rw [List.filterMap_append, List.filterMap_append, List.prefix_append_right_inj]
    -- The last stage keeps its remark, or may get its first one.
    cases hs : layerOrderRemark? s with
    | none =>
      rw [List.filterMap_cons_none hs]
      exact List.nil_prefix
    | some remark =>
      rw [List.filterMap_cons_some hs, List.filterMap_cons_some (layerOrderRemark?_extend hs i)]

/-! ## Remarks on steps -/

theorem artifactRemarks_accrues : Accrues artifactRemarks := by
  intro instructions i
  unfold artifactRemarks
  rw [Removal.after_append, List.map_append]
  exact List.prefix_append _ _

theorem contextCopyRemarks_accrues : Accrues contextCopyRemarks := by
  intro instructions i
  unfold contextCopyRemarks
  rw [List.filter_append, List.map_append]
  exact List.prefix_append _ _

theorem secretRemarks_accrues : Accrues secretRemarks := by
  intro instructions i
  unfold secretRemarks
  rw [List.flatMap_append]
  exact List.prefix_append _ _

/-! ## Rules -/

/-- What a rule finds on the front of a Dockerfile comes first among what it finds on the whole. -/
def KeepsFindings (r : Rule) : Prop :=
  ∀ front behind : List Instruction, ∃ found more,
    r.inspect front = .ok found ∧ r.inspect (front ++ behind) = .ok (found ++ more)

theorem Accrues.keepsFindings {remarks : List Instruction → List Remark} (h : Accrues remarks)
    (id : Text) (severity : Severity) : (ofRemarks id severity remarks).KeepsFindings := by
  intro front behind
  obtain ⟨more, hmore⟩ := h.append front behind
  refine ⟨_, more.map (finding id severity), rfl, ?_⟩
  rw [← List.map_append, hmore]
  rfl

theorem KeepsFindings.withSeverity {r : Rule} (h : r.KeepsFindings) (severity : Severity) :
    (r.withSeverity severity).KeepsFindings := by
  unfold Rule.withSeverity
  split
  · exact h
  · intro front behind
    obtain ⟨found, more, hfront, hwhole⟩ := h front behind
    refine ⟨found.map (relabel severity), more.map (relabel severity), ?_, ?_⟩
    · dsimp only
      rw [hfront]
      rfl
    · dsimp only
      rw [hwhole, ← List.map_append]
      rfl

/--
The rules about tags, the order of layers, left artifacts, copies of the context and secrets find on
the front of a Dockerfile what they find there whatever follows it: none of them fails, and their
findings on the front, with all that they say, are the first ones on the whole, in the same order.
-/
theorem inspect_append {r : Rule}
    (hr : r ∈ [explicitTag, layerCachingOrder, cleanupArtifacts, specificCopy, envNoSecrets])
    (severity : Severity) (front behind : List Instruction) : ∃ found more,
      (r.withSeverity severity).inspect front = .ok found ∧
      (r.withSeverity severity).inspect (front ++ behind) = .ok (found ++ more) := by
  have hkeeps : r.KeepsFindings := by
    simp only [List.mem_cons, List.not_mem_nil, or_false] at hr
    rcases hr with rfl | rfl | rfl | rfl | rfl
    · exact explicitTag_eq ▸ tagRemarks_accrues.keepsFindings _ _
    · exact layerCachingOrder_eq ▸ layerOrderRemarks_accrues.keepsFindings _ _
    · exact cleanupArtifacts_eq ▸ artifactRemarks_accrues.keepsFindings _ _
    · exact contextCopyRemarks_accrues.keepsFindings _ _
    · exact envNoSecrets_eq ▸ secretRemarks_accrues.keepsFindings _ _
  exact hkeeps.withSeverity severity front behind

/-- A copy in the last stage, which is only too early once an installation follows. -/
theorem inspect_append_of_pending_copy :
    ∃ (front behind : List Instruction) (found more : List Finding),
      layerCachingOrder ∈
        [explicitTag, layerCachingOrder, cleanupArtifacts, specificCopy, envNoSecrets] ∧
      (layerCachingOrder.withSeverity .error).inspect front = .ok found ∧
      (layerCachingOrder.withSeverity .error).inspect (front ++ behind) = .ok (found ++ more) ∧
      found.map Finding.line = [2] ∧ more.map Finding.line = [5] := by
  let stage : Nat → List Instruction := fun n =>
    [{ opcode := .base, arguments := ["a"], line := n, endLine := n, raw := "a" },
      { opcode := .copy, arguments := [".", "."], line := n + 1, endLine := n + 1, raw := ". ." }]
  let install : Nat → Instruction := fun n =>
    { opcode := .run, arguments := ["npm", "ci"], line := n, endLine := n, raw := "npm ci" }
  let lines : Except Fault (List Finding) → Except Fault (List Int) :=
    Except.map (List.map Finding.line)
  have hmem : layerCachingOrder ∈
      [explicitTag, layerCachingOrder, cleanupArtifacts, specificCopy, envNoSecrets] :=
    .tail _ (.head _)
  obtain ⟨found, more, hfront, hwhole⟩ :=
    inspect_append hmem .error (stage 1 ++ install 3 :: stage 4) [install 6]
  have hfound : lines (.ok found) = .ok [2] := by
    rw [← hfront]
    decide +kernel
  have hall : lines (.ok (found ++ more)) = .ok [2, 5] := by
    rw [← hwhole]
    decide +kernel
  have hlines : found.map Finding.line = [2] := Except.ok.inj hfound
  have hmore : found.map Finding.line ++ more.map Finding.line = [2, 5] :=
    List.map_append.symm.trans (Except.ok.inj hall)
  rw [hlines] at hmore
  exact ⟨_, _, found, more, hmem, hfront, hwhole, hlines, (List.cons.inj hmore).2⟩

end Drydock.Rule
