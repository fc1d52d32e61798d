/-
  Findings in the order of the steps. On steps with increasing lines, whatever a rule finds comes in
  the order of the lines, and nothing comes twice (`StaysOrderly`). A rule that goes from step to
  step speaks of each in turn (`MadeInTurn`); one that speaks of some steps only, be it the first
  ones of stages or rows, speaks of a part of the steps (`IsOrderly.of_picked`). The steps of a
  parsed Dockerfile have increasing lines, so this holds of every rule of a selection
  (`findings_in_order`).
-/
import Drydock.Dockerfile.Parser
import Drydock.Proofs.Dockerfile.Division
import Drydock.Proofs.Rule.Artifacts
import Drydock.Proofs.Rule.Faultless
import Drydock.Proofs.Rule.Tag
import Drydock.Proofs.Rule.TestStep

namespace Drydock

/-- What a finding says of which line. -/
def Finding.remark (f : Finding) : Rule.Remark := (f.line, f.message)

namespace Rule

variable {id : Text} {severity : Severity} {steps : List Instruction} {remarks : List Remark}

/-! ## Order -/

/-- The rules that find at most one thing on a line. -/
def oncePerLine : List Text :=
  ["explicit-tag", "layer-caching-order", "consolidate-run", "specific-copy"]

/-- The rules that find at most one thing at all. -/
def onceOnly : List Text :=
  ["minimal-base-image", "non-root-user", "documented", "dockerignore-present", "has-test-step"]

/-- What is said at a line. -/
def saidAt (line : Int) (remarks : List Remark) : List Remark :=
  remarks.filter fun remark => remark.1 = line

/-- What the rule of a name says of some steps. The lines of the remarks never decrease, and no
remark is made twice; the rules that speak once of a line go on to later lines, and those that speak
once stop there; what the rule about secrets says at the line of a step names some variables, and
none of them twice. -/
structure IsOrderly (id : Text) (steps : List Instruction) (remarks : List Remark) : Prop where
  sorted : (remarks.map Prod.fst).Pairwise (· ≤ ·)
  nodup : remarks.Nodup
  apart : id ∈ oncePerLine → (remarks.map Prod.fst).Pairwise (· < ·)
  single : id ∈ onceOnly → remarks.length ≤ 1
  named : id = "env-no-secrets" → ∀ i ∈ steps, ∃ names : List Text, names.Nodup ∧
    saidAt i.line remarks = names.map (secretRemark i)

theorem saidAt_append (line : Int) (remarks remarks' : List Remark) :
    saidAt line (remarks ++ remarks') = saidAt line remarks ++ saidAt line remarks' :=
  List.filter_append _ _

theorem IsOrderly.of_apart (hid : id ∈ oncePerLine)
    (h : (remarks.map Prod.fst).Pairwise (· < ·)) : IsOrderly id steps remarks := by
  have hother : ∀ id ∈ oncePerLine, id ∉ onceOnly ∧ id ≠ "env-no-secrets" := by decide
  exact
    { sorted := h.imp Int.le_of_lt
      nodup := List.Nodup.of_map Prod.fst (h.imp Int.ne_of_lt)
      apart := fun _ => h
      single := fun honce => absurd honce (hother id hid).1
      named := fun hsecrets => absurd hsecrets (hother id hid).2 }

theorem IsOrderly.of_single (hid : id ∈ onceOnly) (h : remarks.length ≤ 1) :
    IsOrderly id steps remarks := by
  have hother : ∀ id ∈ onceOnly, id ≠ "env-no-secrets" := by decide
  have hapart : (remarks.map Prod.fst).Pairwise (· < ·) := by
    match remarks, h with
    | [], _ => exact .nil
    | [_], _ => exact List.pairwise_singleton _ _
  exact
    { sorted := hapart.imp Int.le_of_lt
      nodup := List.Nodup.of_map Prod.fst (hapart.imp Int.ne_of_lt)
      apart := fun _ => hapart
      single := fun _ => h
      named := fun hsecrets => absurd hsecrets (hother id hid) }

/-- On steps with increasing lines, what a rule finds is orderly. -/
def StaysOrderly (r : Rule) : Prop :=
  ∀ steps findings, (steps.map Instruction.line).Pairwise (· < ·) →
    r.inspect steps = .ok findings → IsOrderly r.id steps (findings.map Finding.remark)

theorem map_remark_finding (id : Text) (severity : Severity) (remarks : List Remark) :
    (remarks.map (finding id severity)).map Finding.remark = remarks := by
  rw [List.map_map]
  exact List.map_id remarks

theorem staysOrderly_ofChecked {checked : List Instruction → Except Fault (List Remark)}
    (h : ∀ (steps : List Instruction) remarks, (steps.map Instruction.line).Pairwise (· < ·) →
      checked steps = .ok remarks → IsOrderly id steps remarks) :
    (ofChecked id severity checked).StaysOrderly := by
  intro steps findings hlines hinspect
  obtain ⟨remarks, hremarks, rfl⟩ := exists_of_map_eq_ok hinspect
  rw [map_remark_finding]
  exact h steps remarks hlines hremarks

theorem staysOrderly_ofRemarks {said : List Instruction → List Remark}
    (h : ∀ steps : List Instruction, (steps.map Instruction.line).Pairwise (· < ·) →
      IsOrderly id steps (said steps)) :
    (ofRemarks id severity said).StaysOrderly := by
  intro steps findings hlines hinspect
  obtain rfl := Except.ok.inj hinspect
  rw [map_remark_finding]
  exact h steps hlines

/-- A severity given to a rule changes no order. -/
theorem StaysOrderly.withSeverity {r : Rule} (h : r.StaysOrderly) (severity : Severity) :
    (r.withSeverity severity).StaysOrderly := by
  unfold Rule.withSeverity
  split
  · exact h
  · intro steps findings hlines hinspect
    obtain ⟨found, hfound, rfl⟩ := exists_of_map_eq_ok hinspect
    have hsame : (found.map (relabel severity)).map Finding.remark =
        found.map Finding.remark := by
      rw [List.map_map]
      rfl
    rw [hsame]
    exact h steps found hlines hfound

/-! ## Rules that speak of some steps -/

/-- The lines of some of the steps, in their order, increase. -/
theorem increasing_of_sublist {picked : List Instruction}
    (hlines : (steps.map Instruction.line).Pairwise (· < ·)) (h : picked.Sublist steps) :
    (picked.map fun i => (i.line : Int)).Pairwise (· < ·) := by
  have hpicked := List.pairwise_map.mp (hlines.sublist (h.map Instruction.line))
  exact List.pairwise_map.mpr (hpicked.imp fun hlt => Int.ofNat_lt.mpr hlt)

/-- What is said of some steps, one remark of each, is orderly. -/
theorem IsOrderly.of_picked {picked : List Instruction} (hid : id ∈ oncePerLine)
    (hlines : (steps.map Instruction.line).Pairwise (· < ·)) (hpicked : picked.Sublist steps)
    (h : remarks.map Prod.fst = picked.map fun i => (i.line : Int)) :
    IsOrderly id steps remarks := by
  refine .of_apart hid ?_
  rw [h]
  exact increasing_of_sublist hlines hpicked

theorem explicitTag_staysOrderly : explicitTag.StaysOrderly := by
  rw [explicitTag_eq]
  refine staysOrderly_ofRemarks fun steps hlines => ?_
  let stages := (Stage.split steps).stages
  let unpinned := stages.filter fun s => IsUnpinned stages s
  have hremarks : tagRemarks steps = unpinned.map unpinnedRemark :=
    tagRemarksAfter_eq (Stage.isNumbered_split steps) [] stages rfl
  have hopenings : (stages.map Stage.opening).Sublist steps := by
    rw [List.map_eq_flatMap]
    exact Stage.flatMap_stages_sublist fun s _ => List.singleton_sublist.mpr List.mem_cons_self
  have hunpinned : (unpinned.map Stage.opening).Sublist steps :=
    (List.filter_sublist.map Stage.opening).trans hopenings
  refine .of_picked (by decide) hlines hunpinned ?_
  rw [hremarks, List.map_map, List.map_map]
  refine List.map_congr_left fun s hs => ?_
  exact congrArg Nat.cast (Stage.isOf_of_mem_split (List.mem_filter.mp hs).1).line

/-- The copy of everything that the rule about the order of layers speaks of in a stage. -/
def earlyCopy? (s : Stage) : Option Instruction :=
  (copyBeforeInstall? s.instructions).map Prod.fst

theorem layerCachingOrder_staysOrderly : layerCachingOrder.StaysOrderly := by
  rw [layerCachingOrder_eq]
  refine staysOrderly_ofRemarks fun steps hlines => ?_
  have hcopies : ((Stage.split steps).stages.filterMap earlyCopy?).Sublist steps := by
    rw [List.filterMap_eq_flatMap_toList]
    refine Stage.flatMap_stages_sublist fun s _ => ?_
    unfold earlyCopy?
    cases hfound : copyBeforeInstall? s.instructions with
    | none => exact List.nil_sublist _
    | some pair =>
      have hmem := (mem_of_copyBeforeInstall? hfound).1
      exact List.singleton_sublist.mpr (List.mem_cons_of_mem _ hmem)
  refine .of_picked (by decide) hlines hcopies ?_
  rw [layerOrderRemarks, List.map_filterMap, List.map_filterMap]
  refine congrArg (List.filterMap · _) (funext fun s => ?_)
  rw [layerOrderRemark?, earlyCopy?, Option.map_map, Option.map_map]
  rfl

theorem specificCopy_staysOrderly : specificCopy.StaysOrderly := by
  refine staysOrderly_ofRemarks fun steps hlines => ?_
  have hcopies : (steps.filter Instruction.copiesContext).Sublist steps := List.filter_sublist
  refine .of_picked (by decide) hlines hcopies ?_
  rw [contextCopyRemarks, List.map_map]
  rfl

/-- No member comes into pieces that was not there, and none comes out of its order. -/
theorem flatten_splitWhere_sublist {α : Type} (p : α → Bool) (l : List α) :
    (splitWhere p l).flatten.Sublist l := by
  induction l with
  | nil => exact List.Sublist.refl _
  | cons a l ih =>
    obtain ⟨first, rest, hpieces⟩ := List.exists_cons_of_ne_nil (splitWhere_ne_nil p l)
    rw [splitWhere]
    split
    · exact ih.cons a
    · rw [hpieces] at ih ⊢
      exact ih.cons_cons a

theorem consolidateRun_staysOrderly : consolidateRun.StaysOrderly := by
  rw [consolidateRun_eq]
  refine staysOrderly_ofRemarks fun steps hlines => ?_
  have hheads : ((installBlocks steps).flatMap fun block => block.head?.toList).Sublist steps := by
    have hblocks : (installBlocks steps).flatten.Sublist steps :=
      List.filter_sublist.flatten.trans (flatten_splitWhere_sublist _ steps)
    rw [← List.flatMap_id'] at hblocks
    refine (List.Sublist.flatMap_right _ fun block _ => ?_).trans hblocks
    cases block <;> simp
  refine .of_picked (by decide) hlines hheads ?_
  rw [installBlockRemarks, List.map_map, List.map_flatMap, List.map_eq_flatMap]
  refine List.flatMap_congr fun block hblock => ?_
  have hsize := of_decide_eq_true (List.mem_filter.mp hblock).2
  cases block with
  | nil => exact absurd hsize (by simp)
  | cons first rest => rfl

/-! ## Rules that go from step to step -/

/-- What is said of some steps, one after the other: of each at its own line, and nothing twice. -/
inductive MadeInTurn : List Instruction → List Remark → Prop
  | nil : MadeInTurn [] []
  | cons {i : Instruction} {rest : List Instruction} {said later : List Remark}
      (line : ∀ remark ∈ said, remark.1 = i.line) (nodup : said.Nodup)
      (turns : MadeInTurn rest later) : MadeInTurn (i :: rest) (said ++ later)

namespace MadeInTurn

theorem exists_line (h : MadeInTurn steps remarks) :
    ∀ remark ∈ remarks, ∃ i ∈ steps, remark.1 = i.line := by
  induction h with
  | nil => exact fun remark hremark => absurd hremark List.not_mem_nil
  | @cons i rest said later hline _ _ ih =>
    intro remark hremark
    rcases List.mem_append.mp hremark with hsaid | hlater
    · exact ⟨i, List.mem_cons_self, hline remark hsaid⟩
    · obtain ⟨j, hj, hremark⟩ := ih remark hlater
      exact ⟨j, List.mem_cons_of_mem _ hj, hremark⟩

/-- Each remark stands in front of those at later lines, and of other ones at its own. -/
theorem pairwise (h : MadeInTurn steps remarks)
    (hlines : (steps.map Instruction.line).Pairwise (· < ·)) :
    remarks.Pairwise fun r r' => r.1 ≤ r'.1 ∧ r ≠ r' := by
  induction h with
  | nil => exact List.Pairwise.nil
  | @cons i rest said later hline hnodup hturns ih =>
    rw [List.map_cons, List.pairwise_cons] at hlines
    refine List.pairwise_append.mpr ⟨hnodup.imp_of_mem fun hr hr' hne => ?_, ih hlines.2, ?_⟩
    · exact ⟨Int.le_of_eq ((hline _ hr).trans (hline _ hr').symm), hne⟩
    · intro r hr r' hr'
      obtain ⟨j, hj, hlater⟩ := hturns.exists_line r' hr'
      have hlt : r.1 < r'.1 := by
        rw [hline r hr, hlater]
        exact Int.ofNat_lt.mpr (hlines.1 j.line (List.mem_map_of_mem hj))
      exact ⟨Int.le_of_lt hlt, fun hsame => Int.ne_of_lt hlt (congrArg Prod.fst hsame)⟩

theorem sorted (h : MadeInTurn steps remarks)
    (hlines : (steps.map Instruction.line).Pairwise (· < ·)) :
    (remarks.map Prod.fst).Pairwise (· ≤ ·) :=
  List.pairwise_map.mpr ((h.pairwise hlines).imp And.left)

theorem nodup (h : MadeInTurn steps remarks)
    (hlines : (steps.map Instruction.line).Pairwise (· < ·)) : remarks.Nodup :=
  (h.pairwise hlines).imp And.right

end MadeInTurn

theorem IsOrderly.of_turns (hid : id ∉ oncePerLine ∧ id ∉ onceOnly)
    (hlines : (steps.map Instruction.line).Pairwise (· < ·)) (h : MadeInTurn steps remarks)
    (hnamed : id = "env-no-secrets" → ∀ i ∈ steps, ∃ names : List Text, names.Nodup ∧
      saidAt i.line remarks = names.map (secretRemark i)) :
    IsOrderly id steps remarks where
  sorted := h.sorted hlines
  nodup := h.nodup hlines
  apart := fun hmem => absurd hmem hid.1
  single := fun hmem => absurd hmem hid.2
  named := hnamed

theorem Removal.remark_injective : Function.Injective Removal.remark :=
  fun _ _ h => Removal.eq_of_asFinding (congrArg (finding "cleanup-artifacts" .warning) h)

theorem madeInTurn_after (created : Created) (steps : List Instruction) :
    MadeInTurn steps ((Removal.after created steps).map Removal.remark) := by
  induction steps generalizing created with
  | nil => exact .nil
  | cons i rest ih =>
    rw [Removal.after_cons, List.map_append]
    refine .cons (fun remark hremark => ?_) ?_ (ih _)
    · obtain ⟨r, hr, rfl⟩ := List.mem_map.mp hremark
      exact congrArg Nat.cast (Removal.of_mem_found hr).2.1
    · exact (List.Nodup.of_map _ (Removal.nodup_found created i)).map Removal.remark_injective

theorem cleanupArtifacts_staysOrderly : cleanupArtifacts.StaysOrderly := by
  rw [cleanupArtifacts_eq]
  refine staysOrderly_ofRemarks fun steps hlines => ?_
  refine .of_turns (by decide) hlines (madeInTurn_after .empty steps) fun hsecrets => ?_
  exact absurd hsecrets (by decide)

/-! ## Secrets -/

theorem nodup_literalSecrets (i : Instruction) : (literalSecrets i).Nodup := by
  unfold literalSecrets
  split
  · exact (List.filter_sublist.map Prod.fst).nodup i.keyValues.distinct
  · exact List.nodup_nil

/-- What is said of a secret names it. -/
theorem secretRemark_injective (i : Instruction) : Function.Injective (secretRemark i) := by
  intro name name' h
  have hmessage := (Prod.mk.inj h).2
  simp only [secretMessage, Text.concat, List.flatten_cons] at hmessage
  exact List.append_cancel_right (List.append_cancel_left (List.append_cancel_left hmessage))

theorem line_of_mem_secretRemarksOf {i : Instruction} {remark : Remark}
    (h : remark ∈ (literalSecrets i).map (secretRemark i)) : remark.1 = i.line := by
  obtain ⟨name, -, rfl⟩ := List.mem_map.mp h
  rfl

theorem madeInTurn_secretRemarks (steps : List Instruction) :
    MadeInTurn steps (secretRemarks steps) := by
  induction steps with
  | nil => exact .nil
  | cons i rest ih =>
    rw [secretRemarks, List.flatMap_cons]
    exact .cons (fun remark => line_of_mem_secretRemarksOf)
      ((nodup_literalSecrets i).map (secretRemark_injective i)) ih

/-- On increasing lines, what is said at the line of a step is said of this step. -/
theorem saidAt_secretRemarks (hlines : (steps.map Instruction.line).Pairwise (· < ·))
    {i : Instruction} (hi : i ∈ steps) :
    saidAt i.line (secretRemarks steps) = (literalSecrets i).map (secretRemark i) := by
  obtain ⟨front, back, rfl⟩ := List.append_of_mem hi
  rw [List.pairwise_map, List.pairwise_append, List.pairwise_cons] at hlines
  have hother : ∀ others : List Instruction, (∀ j ∈ others, j.line ≠ i.line) →
      saidAt i.line (secretRemarks others) = [] := by
    intro others hothers
    refine List.filter_eq_nil_iff.mpr fun remark hremark => ?_
    obtain ⟨j, hj, hline⟩ := (madeInTurn_secretRemarks others).exists_line remark hremark
    simpa [hline] using hothers j hj
  have hown : saidAt i.line ((literalSecrets i).map (secretRemark i)) =
      (literalSecrets i).map (secretRemark i) :=
    List.filter_eq_self.mpr fun remark hremark =>
      decide_eq_true (line_of_mem_secretRemarksOf hremark)
  have hparts : secretRemarks (front ++ i :: back) =
      secretRemarks front ++ ((literalSecrets i).map (secretRemark i) ++ secretRemarks back) := by
    rw [secretRemarks, List.flatMap_append, List.flatMap_cons]
    rfl
  rw [hparts, saidAt_append, saidAt_append, hown,
    hother front fun j hj => ne_of_lt (hlines.2.2 j hj i List.mem_cons_self),
    hother back fun j hj => ne_of_gt (hlines.2.1.1 j hj), List.nil_append, List.append_nil]

theorem envNoSecrets_staysOrderly : envNoSecrets.StaysOrderly := by
  rw [envNoSecrets_eq]
  refine staysOrderly_ofRemarks fun steps hlines => ?_
  refine .of_turns (by decide) hlines (madeInTurn_secretRemarks steps) fun _ i hi => ?_
  exact ⟨literalSecrets i, nodup_literalSecrets i, saidAt_secretRemarks hlines hi⟩

/-! ## Rules that speak once -/

theorem minimalBaseImage_staysOrderly (denylist : List Text) :
    (minimalBaseImage denylist).StaysOrderly := by
  rw [minimalBaseImage_eq]
  refine staysOrderly_ofRemarks fun steps _ => .of_single (by decide) ?_
  unfold fullImageRemarks
  split
  · exact Nat.zero_le 1
  · unfold finalBaseRemarks
    split
    · exact Nat.le_refl 1
    · exact Nat.zero_le 1

theorem nonRootUser_staysOrderly : nonRootUser.StaysOrderly := by
  rw [nonRootUser_eq]
  refine staysOrderly_ofRemarks fun steps _ => .of_single (by decide) ?_
  unfold userRemarks
  dsimp only
  split
  · exact Nat.le_refl 1
  · split
    · exact Nat.le_refl 1
    · exact Nat.zero_le 1

theorem documented_staysOrderly (threshold : Float) : (documented threshold).StaysOrderly := by
  rw [documented_eq]
  refine staysOrderly_ofRemarks fun steps _ => .of_single (by decide) ?_
  unfold documentationRemarks
  split
  · exact Nat.zero_le 1
  · exact Nat.le_refl 1

theorem dockerignorePresent_staysOrderly (s : IgnoreSearch) :
    (dockerignorePresent s).StaysOrderly := by
  refine staysOrderly_ofChecked fun steps remarks _ hremarks => .of_single (by decide) ?_
  obtain ⟨candidates, -, hremarks⟩ := exists_of_bind_eq_ok hremarks
  split at hremarks
  · obtain rfl := Except.ok.inj hremarks
    exact Nat.zero_le 1
  · obtain ⟨found, -, hremarks⟩ := exists_of_bind_eq_ok hremarks
    split at hremarks
    · obtain rfl := Except.ok.inj hremarks
      exact Nat.zero_le 1
    · obtain ⟨first, -, hremarks⟩ := exists_of_bind_eq_ok hremarks
      obtain rfl := Except.ok.inj hremarks
      exact Nat.le_refl 1

theorem hasTestStep_staysOrderly : hasTestStep.StaysOrderly := by
  refine staysOrderly_ofRemarks fun steps _ => .of_single (by decide) ?_
  unfold missingTestRemarks
  dsimp only
  split
  · exact Nat.zero_le 1
  · exact Nat.le_refl 1

end Rule

/-! ## All rules -/

namespace Registry

theorem Makes.staysOrderly {o : RuleOptions} {r : Rule} (h : Makes o r) : r.StaysOrderly := by
  cases h with
  | minimalBaseImage => exact Rule.minimalBaseImage_staysOrderly o.denylist
  | explicitTag => exact Rule.explicitTag_staysOrderly
  | layerCachingOrder => exact Rule.layerCachingOrder_staysOrderly
  | consolidateRun => exact Rule.consolidateRun_staysOrderly
  | cleanupArtifacts => exact Rule.cleanupArtifacts_staysOrderly
  | specificCopy => exact Rule.specificCopy_staysOrderly
  | nonRootUser => exact Rule.nonRootUser_staysOrderly
  | envNoSecrets => exact Rule.envNoSecrets_staysOrderly
  | documented => exact Rule.documented_staysOrderly o.threshold
  | dockerignorePresent => exact Rule.dockerignorePresent_staysOrderly o.search
  | hasTestStep => exact Rule.hasTestStep_staysOrderly

end Registry

namespace Selection

/--
Of a parsed Dockerfile, each rule that a selection makes says what it finds in the order of the
lines, and says nothing twice. Where it speaks of a base, of a copy of everything before an
installation, of a row of installations or of a copy of everything, it speaks at most once of each
line; of the final image, of its user, of comments, of the ignore file and of tests, it speaks at
most once; and of no step does the rule about secrets name a variable twice. Each rule comes to
findings, but for the one that searches for an ignore file if this search is not possible.
-/
theorem findings_in_order {t : Text} {d : Dockerfile} (hparse : Dockerfile.parse t = .ok d)
    {s : Selection} {o : RuleOptions} {rules : List Rule} (hrules : s.rules o = .ok rules) :
    ∀ r ∈ rules,
      ((r.id = "dockerignore-present" → o.search.IsPossible) →
        ∃ findings, r.inspect d.instructions = .ok findings) ∧
      ∀ findings, r.inspect d.instructions = .ok findings →
        Rule.IsOrderly r.id d.instructions (findings.map Finding.remark) := by
  intro adjusted hadjusted
  obtain ⟨r, hmade, severity, rfl⟩ := exists_makes_of_mem hrules hadjusted
  refine ⟨fun hsearch => ?_, fun findings hinspect => ?_⟩
  · rw [Rule.withSeverity_id] at hsearch
    have hfaultless := (hmade.isFaultless_of_search hsearch).withSeverity severity
    obtain ⟨findings, hinspect, -⟩ := hfaultless d.instructions
    exact ⟨findings, hinspect⟩
  · exact (hmade.staysOrderly.withSeverity severity) d.instructions findings
      (Rule.increasing_of_parse hparse) hinspect

/-- Two stages, a secret that is set twice, and two files that are removed by one step. -/
theorem findings_in_order_of_two_stages :
    ∃ (d : Dockerfile) (s : Selection) (o : RuleOptions) (rules : List Rule),
      Dockerfile.parse
        (Text.concat
          ["FROM a\nADD . /b\nRUN npm ci\nRUN apk add c\nENV TOKEN=d API_KEY=e TOKEN=f\nFROM g\n",
            "RUN curl -o /h.tgz i; curl -o /j.tgz k\nRUN rm /j.tgz /h.tgz /j.tgz\n"]) = .ok d ∧
      s.rules o = .ok rules ∧ o.search.IsPossible ∧
      (∀ r ∈ rules, ∃ findings, r.inspect d.instructions = .ok findings ∧
        Rule.IsOrderly r.id d.instructions (findings.map Finding.remark)) ∧
      rules.map (fun r => (r.inspect d.instructions).map (·.map Finding.line)) =
        [.ok [], .ok [1, 6], .ok [2], .ok [3], .ok [8, 8], .ok [2], .ok [6], .ok [5, 5], .ok [0],
          .ok [0]] := by
  let step (opcode : Opcode) (line : Nat) (arguments : List Text) : Instruction :=
    { opcode, arguments, line, endLine := line, raw := Text.joinWith " " arguments }
  let d : Dockerfile :=
    { instructions :=
        [step .base 1 ["a"], step .add 2 [".", "/b"], step .run 3 ["npm", "ci"],
          step .run 4 ["apk", "add", "c"], step .env 5 ["TOKEN=d", "API_KEY=e", "TOKEN=f"],
          step .base 6 ["g"],
          step .run 7 ["curl", "-o", "/h.tgz", "i;", "curl", "-o", "/j.tgz", "k"],
          step .run 8 ["rm", "/j.tgz", "/h.tgz", "/j.tgz"]]
      warnings := []
      escape := .backslash }
  let s : Selection := { disable := ["documented"] }
  let o : RuleOptions := { search := { dockerfile := some (Path.ofText "app/Dockerfile") } }
  let rules : List Rule :=
    [.minimalBaseImage o.denylist, .explicitTag, .layerCachingOrder, .consolidateRun,
      .cleanupArtifacts, .specificCopy, .nonRootUser, .envNoSecrets, .dockerignorePresent o.search,
      .hasTestStep]
  have hparse : Dockerfile.parse
      (Text.concat
        ["FROM a\nADD . /b\nRUN npm ci\nRUN apk add c\nENV TOKEN=d API_KEY=e TOKEN=f\nFROM g\n",
          "RUN curl -o /h.tgz i; curl -o /j.tgz k\nRUN rm /j.tgz /h.tgz /j.tgz\n"]) = .ok d := by
    decide +kernel
  have hrules : s.rules o = .ok rules := by
    rw [Selection.rules, if_pos (isEmpty_unknown_iff.mpr (by decide))]
    rfl
  have hsearch : o.search.IsPossible := by
    refine ⟨?_, fun _ => rfl⟩
    rintro p ⟨rfl⟩
    decide
  refine ⟨d, s, o, rules, hparse, hrules, hsearch, fun r hr => ?_, by decide +kernel⟩
  obtain ⟨hfinds, horder⟩ := findings_in_order hparse hrules r hr
  obtain ⟨findings, hinspect⟩ := hfinds fun _ => hsearch
  exact ⟨findings, hinspect, horder findings hinspect⟩

end Selection

end Drydock
