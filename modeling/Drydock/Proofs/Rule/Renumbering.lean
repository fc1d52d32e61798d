/-
  Rules and line numbers. A rule looks at lines only to say where a finding stands, and in one case
  to tell which of two steps comes first. So on other lines in the same order it finds the same, and
  each finding moves with the step at which it stands (`inspect_renumbered`).
-/
import Drydock.Proofs.Dockerfile.Renumbering
import Drydock.Proofs.Rule.Deeds
import Drydock.Proofs.Rule.Registry
import Mathlib.Order.Monotone.Basic
import Mathlib.Order.Interval.Set.Defs

namespace Drydock

theorem forall₂_of_common {α β γ : Type} {R : α → γ → Prop} {S : β → γ → Prop} {T : α → β → Prop}
    {l : List α} {u : List β} {shared : List γ} (h : List.Forall₂ R l shared)
    (h' : List.Forall₂ S u shared) (hT : ∀ a b c, R a c → S b c → T a b) : List.Forall₂ T l u := by
  induction h generalizing u with
  | nil =>
    cases h'
    exact .nil
  | cons hfirst _ ih =>
    cases h' with
    | cons hfirst' hrest' => exact .cons (hT _ _ _ hfirst hfirst') (ih hrest')

theorem takeWhile_congr {α : Type} {p q : α → Bool} {l : List α} (h : ∀ a ∈ l, p a = q a) :
    l.takeWhile p = l.takeWhile q := by
  induction l with
  | nil => rfl
  | cons a l ih =>
    obtain ⟨ha, hl⟩ := List.forall_mem_cons.mp h
    rw [List.takeWhile_cons, List.takeWhile_cons, ha, ih hl]

namespace Rule

open Instruction (renumber)

/-- A remark stands at some line, and another one where that line is in another numbering. -/
def Follows (g : Nat → Nat) (remark remark' : Remark) : Prop :=
  ∃ line : Nat, remark.1 = line ∧ remark'.1 = g line

/-- The steps stand in the same order in another numbering. -/
def KeepsOrder (g : Nat → Nat) (instructions : List Instruction) : Prop :=
  ∀ i ∈ instructions, ∀ j ∈ instructions, (g i.line < g j.line ↔ i.line < j.line)

section Remarks

variable {g : Nat → Nat} {instructions : List Instruction}

theorem keepsDeeds_renumber (g : Nat → Nat) : Instruction.KeepsDeeds (renumber g) :=
  ⟨fun _ => rfl, fun _ => rfl, fun _ => rfl⟩

theorem follows_of_line {line : Nat} {text text' : Text} :
    Follows g (line, text) (g line, text') :=
  ⟨line, rfl, rfl⟩

theorem follow_singleton {line : Nat} {text text' : Text} :
    List.Forall₂ (Follows g) [((line : Int), text)] [((g line : Int), text')] :=
  .cons follows_of_line .nil

theorem follow_ite {c : Prop} [Decidable c] {a a' b b' : List Remark}
    (h : List.Forall₂ (Follows g) a a') (h' : List.Forall₂ (Follows g) b b') :
    List.Forall₂ (Follows g) (if c then a else b) (if c then a' else b') := by
  split
  · exact h
  · exact h'

theorem follow_map {α : Type} (l : List α) {remark remark' : α → Remark}
    (h : ∀ a ∈ l, Follows g (remark a) (remark' a)) :
    List.Forall₂ (Follows g) (l.map remark) (l.map remark') :=
  List.forall₂_map_left_iff.mpr (List.forall₂_map_right_iff.mpr (List.forall₂_same.mpr h))

theorem follow_flatMap {α : Type} (l : List α) {remarks remarks' : α → List Remark}
    (h : ∀ a ∈ l, List.Forall₂ (Follows g) (remarks a) (remarks' a)) :
    List.Forall₂ (Follows g) (l.flatMap remarks) (l.flatMap remarks') := by
  induction l with
  | nil => exact .nil
  | cons a l ih =>
    obtain ⟨ha, hl⟩ := List.forall_mem_cons.mp h
    rw [List.flatMap_cons, List.flatMap_cons]
    exact List.rel_append ha (ih hl)

theorem follow_toList (o : Option Text) (line : Nat) :
    List.Forall₂ (Follows g) (o.map ((line : Int), ·)).toList
      (o.map ((g line : Int), ·)).toList := by
  cases o with
  | none => exact .nil
  | some text => exact follow_singleton

/-! ## Base images -/

theorem finalBase?_renumber (g : Nat → Nat) (stages : List Stage) :
    finalBase? (stages.map (Stage.renumber g)) =
      (finalBase? stages).map (ImageReference.renumber g) := by
  unfold finalBase?
  rw [List.getLast?_map]
  cases stages.getLast? with
  | none => rfl
  | some s =>
    rw [Option.map_some, Option.bind_some, Option.bind_some, Stage.lineage_renumber,
      List.getLast?_map]
    cases (Stage.lineage stages s).getLast? <;> rfl

theorem fullImageRemarks_follow (g : Nat → Nat) (denylist : List Text)
    (instructions : List Instruction) :
    List.Forall₂ (Follows g) (fullImageRemarks denylist instructions)
      (fullImageRemarks denylist (instructions.map (renumber g))) := by
  unfold fullImageRemarks
  rw [Stage.stages_split_renumber, finalBase?_renumber]
  cases finalBase? (Stage.split instructions).stages with
  | none => exact .nil
  | some base => exact follow_ite follow_singleton .nil

theorem tagRemarksAfter_follow (g : Nat → Nat) (names : List Text) (stages : List Stage) :
    List.Forall₂ (Follows g) (tagRemarksAfter names stages)
      (tagRemarksAfter names (stages.map (Stage.renumber g))) := by
  induction stages generalizing names with
  | nil => exact .nil
  | cons s stages ih =>
    exact List.rel_append (follow_toList _ s.base.line) (ih _)

theorem tagRemarks_follow (g : Nat → Nat) (instructions : List Instruction) :
    List.Forall₂ (Follows g) (tagRemarks instructions)
      (tagRemarks (instructions.map (renumber g))) := by
  unfold tagRemarks
  rw [Stage.stages_split_renumber]
  exact tagRemarksAfter_follow g [] _

/-! ## The build context -/

theorem contextCopyRemarks_follow (g : Nat → Nat) (instructions : List Instruction) :
    List.Forall₂ (Follows g) (contextCopyRemarks instructions)
      (contextCopyRemarks (instructions.map (renumber g))) := by
  unfold contextCopyRemarks
  rw [List.filter_map, List.map_map]
  exact follow_map _ fun i _ => follows_of_line

theorem layerOrderRemark?_follow (g : Nat → Nat) (s : Stage) :
    List.Forall₂ (Follows g) (layerOrderRemark? s).toList
      (layerOrderRemark? (s.renumber g)).toList := by
  unfold layerOrderRemark?
  rw [show (s.renumber g).instructions = s.instructions.map (renumber g) from rfl,
    copyBeforeInstall?_map (keepsDeeds_renumber g)]
  cases copyBeforeInstall? s.instructions with
  | none => exact .nil
  | some pair => exact follow_singleton

theorem layerOrderRemarks_follow (g : Nat → Nat) (instructions : List Instruction) :
    List.Forall₂ (Follows g) (layerOrderRemarks instructions)
      (layerOrderRemarks (instructions.map (renumber g))) := by
  unfold layerOrderRemarks
  rw [Stage.stages_split_renumber, List.filterMap_eq_flatMap_toList,
    List.filterMap_eq_flatMap_toList, List.flatMap_map]
  exact follow_flatMap _ fun s _ => layerOrderRemark?_follow g s

/-! ## Commands -/

theorem installBlockRemarks_follow (g : Nat → Nat) (instructions : List Instruction) :
    List.Forall₂ (Follows g) (installBlockRemarks instructions)
      (installBlockRemarks (instructions.map (renumber g))) := by
  unfold installBlockRemarks
  rw [installBlocks_map (keepsDeeds_renumber g), List.map_map]
  refine follow_map _ fun block hblock => ?_
  have hsize := of_decide_eq_true (List.mem_filter.mp hblock).2
  cases block with
  | nil => exact absurd hsize (by simp)
  | cons first rest => exact follows_of_line

/-- Steps that stand above another do so on other lines in the same order. -/
theorem stepsAbove_renumber (horder : KeepsOrder g instructions) {entry : Option Instruction}
    (hentry : ∀ e ∈ entry, e ∈ instructions) :
    stepsAbove (entry.map (renumber g)) (instructions.map (renumber g)) =
      (stepsAbove entry instructions).map (renumber g) := by
  unfold stepsAbove
  rw [List.takeWhile_map]
  refine congrArg _ (takeWhile_congr fun i hi => ?_)
  cases entry with
  | none => rfl
  | some e => exact decide_eq_decide.mpr (horder i hi e (hentry e rfl))

theorem missingTestRemarks_follow (hzero : g 0 = 0) (horder : KeepsOrder g instructions) :
    List.Forall₂ (Follows g) (missingTestRemarks instructions)
      (missingTestRemarks (instructions.map (renumber g))) := by
  have hentry : ∀ e ∈ finalEntryStep? instructions, e ∈ instructions := fun e he =>
    (List.mem_filter.mp (List.mem_of_getLast? he)).1
  have hruns : Instruction.runsTests ∘ renumber g = Instruction.runsTests := rfl
  unfold missingTestRemarks
  dsimp only
  rw [finalEntryStep?_map (keepsDeeds_renumber g), stepsAbove_renumber horder hentry, List.any_map,
    hruns, List.isEmpty_map]
  refine follow_ite .nil (.cons ⟨_, rfl, ?_⟩ .nil)
  cases finalEntryStep? instructions with
  | none => exact congrArg Nat.cast hzero.symm
  | some e => rfl

/-! ## Artifacts -/

/-- A removal on another line, of a file that was made on another line. -/
def Removal.renumber (g : Nat → Nat) (r : Removal) : Removal :=
  ⟨g r.line, r.file, g r.createdAt⟩

theorem Removal.take?_mapValues (g : Nat → Nat) (created : Created) (path : Text) :
    take? (created.mapValues g) path = (take? created path).map (OrderedMap.withValue g) := by
  unfold take?
  show (created.entries.map (OrderedMap.withValue g)).find? _ = _
  rw [List.find?_map]
  rfl

theorem Removal.sweep_renumber (g : Nat → Nat) (line : Nat) (created : Created)
    (paths : List Text) :
    sweep (g line) (created.mapValues g) paths =
      ((sweep line created paths).1.map (renumber g),
        (sweep line created paths).2.mapValues g) := by
  induction paths generalizing created with
  | nil => rfl
  | cons path rest ih =>
    rw [sweep, sweep, take?_mapValues]
    cases htake : take? created path with
    | none => exact ih created
    | some entry =>
      obtain ⟨file, createdAt⟩ := entry
      dsimp only [Option.map_some, OrderedMap.withValue]
      rw [OrderedMap.erase_mapValues, ih]
      rfl

theorem Removal.record_renumber (g : Nat → Nat) (line : Nat) (removed : List Text)
    (created : Created) (files : List Text) :
    record (g line) removed (created.mapValues g) files =
      (record line removed created files).mapValues g := by
  unfold record
  induction files generalizing created with
  | nil => rfl
  | cons file files ih =>
    rw [List.foldl_cons, List.foldl_cons, ← ih, OrderedMap.contains_mapValues]
    split
    · rfl
    · rw [OrderedMap.insert_mapValues]

/-- What is left behind so far keeps the lines of the steps that made it, so these move as well. -/
theorem Removal.after_renumber (g : Nat → Nat) (created : Created)
    (instructions : List Instruction) :
    after (created.mapValues g) (instructions.map (Instruction.renumber g)) =
      (after created instructions).map (renumber g) := by
  induction instructions generalizing created with
  | nil => rfl
  | cons i rest ih =>
    have hopcode : (i.renumber g).opcode = i.opcode := rfl
    have hline : (i.renumber g).line = g i.line := rfl
    have hremoved : (i.renumber g).removedFiles = i.removedFiles := rfl
    have hcreated : (i.renumber g).createdFiles = i.createdFiles := rfl
    rw [List.map_cons, after, after, hopcode, hline, hremoved, hcreated, sweep_renumber]
    by_cases hbase : i.opcode = .base
    · rw [if_pos hbase, if_pos hbase]
      exact ih .empty
    · rw [if_neg hbase, if_neg hbase]
      by_cases hrun : i.opcode = .run
      · rw [if_pos hrun, if_pos hrun]
        dsimp only
        rw [record_renumber, ih, List.map_append]
      · rw [if_neg hrun, if_neg hrun]
        exact ih created

theorem artifactRemarks_follow (g : Nat → Nat) (instructions : List Instruction) :
    List.Forall₂ (Follows g) (artifactRemarks instructions)
      (artifactRemarks (instructions.map (renumber g))) := by
  have hafter : Removal.after .empty (instructions.map (renumber g)) =
      (Removal.after .empty instructions).map (Removal.renumber g) :=
    Removal.after_renumber g .empty instructions
  unfold artifactRemarks
  rw [hafter, List.map_map]
  exact follow_map _ fun r _ => follows_of_line

/-! ## Users and secrets -/

theorem finalSteps_renumber (hzero : g 0 = 0) (instructions : List Instruction) :
    finalSteps (instructions.map (renumber g)) =
      ((finalSteps instructions).1.map (renumber g), g (finalSteps instructions).2) := by
  unfold finalSteps
  rw [Stage.stages_split_renumber]
  dsimp only
  rw [List.getLast?_map]
  cases (Stage.split instructions).stages.getLast? with
  | none => exact congrArg (_, ·) hzero.symm
  | some s =>
    dsimp only [Option.map_some]
    rw [Stage.lineage_renumber, ← List.map_reverse, List.flatMap_map, List.map_flatMap]
    rfl

theorem userRemarks_follow (hzero : g 0 = 0) (instructions : List Instruction) :
    List.Forall₂ (Follows g) (userRemarks instructions)
      (userRemarks (instructions.map (renumber g))) := by
  unfold userRemarks
  rw [finalSteps_renumber hzero]
  have huser : (fun i : Instruction => decide (i.opcode = .user)) ∘ renumber g =
      fun i => decide (i.opcode = .user) := rfl
  dsimp only
  rw [List.filter_map, huser, List.getLast?_map]
  cases ((finalSteps instructions).1.filter fun i => i.opcode = .user).getLast? with
  | none => exact follow_singleton
  | some i => exact follow_ite follow_singleton .nil

theorem secretRemarks_follow (g : Nat → Nat) (instructions : List Instruction) :
    List.Forall₂ (Follows g) (secretRemarks instructions)
      (secretRemarks (instructions.map (renumber g))) := by
  unfold secretRemarks
  rw [List.flatMap_map]
  refine follow_flatMap _ fun i _ => ?_
  exact follow_map (literalSecrets i) fun name _ => follows_of_line

/-! ## The whole Dockerfile -/

theorem follow_self (hzero : g 0 = 0) {remarks : List Remark}
    (h : ∀ remark ∈ remarks, remark.1 = 0) : List.Forall₂ (Follows g) remarks remarks :=
  List.forall₂_same.mpr fun remark hremark =>
    ⟨0, h remark hremark, (h remark hremark).trans (congrArg Nat.cast hzero.symm)⟩

/-- Of the steps only their number matters, and which of them have a comment. -/
theorem documentationRemarks_congr (threshold : Float) {instructions' : List Instruction}
    (h : instructions'.map Instruction.commented = instructions.map Instruction.commented) :
    documentationRemarks threshold instructions' = documentationRemarks threshold instructions := by
  have hcount : ∀ l : List Instruction,
      l.countP Instruction.commented = (l.map Instruction.commented).countP fun b => b :=
    fun l => by rw [List.countP_map]; rfl
  have hlength : ∀ l : List Instruction, l.length = (l.map Instruction.commented).length :=
    fun l => (List.length_map _).symm
  have hempty : ∀ l : List Instruction, l.isEmpty = (l.map Instruction.commented).isEmpty :=
    fun l => List.isEmpty_map.symm
  unfold documentationRemarks undocumentedMessage commentedShare
  rw [hcount, hlength, hempty, h, ← hcount, ← hlength, ← hempty]

end Remarks

/-! ## Findings -/

/-- A finding of the same rule and severity stands where the line is in another numbering. -/
structure FindingFollows (g : Nat → Nat) (f f' : Finding) : Prop where
  ruleId : f'.ruleId = f.ruleId
  severity : f'.severity = f.severity
  line : ∃ line : Nat, f.line = line ∧ f'.line = g line

/-- Two inspections come to the same fault, or to findings in the same order that stand where their
lines are in another numbering. -/
inductive Renumbered (g : Nat → Nat) :
    Except Fault (List Finding) → Except Fault (List Finding) → Prop
  | fault (fault : Fault) : Renumbered g (.error fault) (.error fault)
  | findings {found found' : List Finding} (h : List.Forall₂ (FindingFollows g) found found') :
    Renumbered g (.ok found) (.ok found')

/-- A rule looks at lines only to say where its findings stand. -/
def IsSteady (r : Rule) : Prop :=
  ∀ (g : Nat → Nat) (instructions : List Instruction), g 0 = 0 → KeepsOrder g instructions →
    Renumbered g (r.inspect instructions) (r.inspect (instructions.map (renumber g)))

section Steady

variable {g : Nat → Nat} {instructions instructions' : List Instruction}

theorem renumbered_of_remarks (id : Text) (severity : Severity) {remarks remarks' : List Remark}
    (h : List.Forall₂ (Follows g) remarks remarks') :
    Renumbered g (.ok (remarks.map (finding id severity)))
      (.ok (remarks'.map (finding id severity))) := by
  refine .findings (List.forall₂_map_left_iff.mpr (List.forall₂_map_right_iff.mpr ?_))
  exact h.imp fun remark remark' hline => ⟨rfl, rfl, hline⟩

theorem isSteady_ofRemarks {id : Text} {severity : Severity}
    {remarks : List Instruction → List Remark}
    (h : ∀ (g : Nat → Nat) (instructions : List Instruction), g 0 = 0 →
      KeepsOrder g instructions →
      List.Forall₂ (Follows g) (remarks instructions) (remarks (instructions.map (renumber g)))) :
    (ofRemarks id severity remarks).IsSteady :=
  fun g instructions hzero horder =>
    renumbered_of_remarks id severity (h g instructions hzero horder)

theorem Renumbered.relabel {a b : Except Fault (List Finding)} (h : Renumbered g a b)
    (severity : Severity) :
    Renumbered g (a.map (·.map (relabel severity))) (b.map (·.map (relabel severity))) := by
  cases h with
  | fault fault => exact .fault fault
  | findings h =>
    refine .findings (List.forall₂_map_left_iff.mpr (List.forall₂_map_right_iff.mpr ?_))
    exact h.imp fun f f' hf => ⟨hf.ruleId, rfl, hf.line⟩

/-- What follows the same findings in place follows. -/
theorem Renumbered.of_common {a b common : Except Fault (List Finding)} (h : Renumbered g a common)
    (h' : Renumbered (fun line => line) b common) : Renumbered g a b := by
  cases h with
  | fault fault =>
    cases h'
    exact .fault fault
  | findings hfound =>
    cases h' with
    | findings hfound' =>
      refine .findings (forall₂_of_common hfound hfound' fun f f' shared hf hf' => ?_)
      obtain ⟨line, hline, hmoved⟩ := hf.line
      obtain ⟨other, hother, hsame⟩ := hf'.line
      exact ⟨hf'.ruleId.symm.trans hf.ruleId, hf'.severity.symm.trans hf.severity,
        line, hline, hother.trans (hsame.symm.trans hmoved)⟩

/-- A step and the same one on another line, where it may end elsewhere and have another comment. -/
structure Moves (g : Nat → Nat) (i i' : Instruction) : Prop where
  opcode : i'.opcode = i.opcode
  arguments : i'.arguments = i.arguments
  raw : i'.raw = i.raw
  execForm : i'.execForm = i.execForm
  line : i'.line = g i.line

theorem map_renumber_of_moves (h : List.Forall₂ (Moves g) instructions instructions') :
    instructions.map (renumber g) = instructions'.map (renumber fun line => line) := by
  rw [← List.forall₂_eq_eq_eq, List.forall₂_map_left_iff, List.forall₂_map_right_iff]
  refine h.imp fun i i' hi => ?_
  rw [renumber, renumber, hi.opcode, hi.arguments, hi.raw, hi.execForm, hi.line]

/-- A rule that looks at lines only to say where findings stand finds the same when steps move. -/
theorem IsSteady.renumbered {r : Rule} (h : r.IsSteady) (hzero : g 0 = 0)
    (horder : KeepsOrder g instructions)
    (hmoves : List.Forall₂ (Moves g) instructions instructions') :
    Renumbered g (r.inspect instructions) (r.inspect instructions') := by
  refine (h g instructions hzero horder).of_common ?_
  rw [map_renumber_of_moves hmoves]
  exact h _ instructions' rfl fun _ _ _ _ => Iff.rfl

theorem Renumbered.withSeverity {r : Rule}
    (h : Renumbered g (r.inspect instructions) (r.inspect instructions')) (severity : Severity) :
    Renumbered g ((r.withSeverity severity).inspect instructions)
      ((r.withSeverity severity).inspect instructions') := by
  unfold Rule.withSeverity
  split
  · exact h
  · exact h.relabel severity

theorem documented_renumbered (hzero : g 0 = 0) (threshold : Float)
    (h : instructions'.map Instruction.commented = instructions.map Instruction.commented) :
    Renumbered g ((documented threshold).inspect instructions)
      ((documented threshold).inspect instructions') := by
  rw [documented_eq]
  refine renumbered_of_remarks _ _ ?_
  rw [documentationRemarks_congr threshold h]
  refine follow_self hzero fun remark hremark => ?_
  unfold documentationRemarks at hremark
  split at hremark
  · exact absurd hremark List.not_mem_nil
  · rw [List.mem_singleton.mp hremark]

theorem dockerignorePresent_isSteady (s : IgnoreSearch) : (dockerignorePresent s).IsSteady := by
  intro g instructions hzero _
  show Renumbered g ((checkedIgnoreRemarks s).map _) ((checkedIgnoreRemarks s).map _)
  cases hremarks : checkedIgnoreRemarks s with
  | error fault => exact .fault fault
  | ok remarks =>
    refine renumbered_of_remarks _ _ (follow_self hzero fun remark hremark => ?_)
    obtain ⟨p, rfl⟩ := exists_path_of_mem_ignoreRemarks hremarks hremark
    rfl

end Steady

/-! ## All rules -/

/-- Every rule but the one about comments looks at lines only to say where its findings stand. -/
theorem isSteady_or_documented {o : RuleOptions} {r : Rule} (h : Registry.Makes o r) :
    r.IsSteady ∨ r = documented o.threshold := by
  have hremarks : ∀ {id : Text} {severity : Severity} {remarks : List Instruction → List Remark},
      (∀ (g : Nat → Nat) (instructions : List Instruction),
        List.Forall₂ (Follows g) (remarks instructions)
          (remarks (instructions.map (renumber g)))) →
      (ofRemarks id severity remarks).IsSteady :=
    fun h => isSteady_ofRemarks fun g instructions _ _ => h g instructions
  cases h with
  | minimalBaseImage =>
    rw [minimalBaseImage_eq]
    exact Or.inl (hremarks fun g => fullImageRemarks_follow g o.denylist)
  | explicitTag => exact Or.inl (explicitTag_eq ▸ hremarks tagRemarks_follow)
  | layerCachingOrder => exact Or.inl (layerCachingOrder_eq ▸ hremarks layerOrderRemarks_follow)
  | consolidateRun => exact Or.inl (consolidateRun_eq ▸ hremarks installBlockRemarks_follow)
  | cleanupArtifacts => exact Or.inl (cleanupArtifacts_eq ▸ hremarks artifactRemarks_follow)
  | specificCopy => exact Or.inl (hremarks contextCopyRemarks_follow)
  | nonRootUser =>
    rw [nonRootUser_eq]
    exact Or.inl (isSteady_ofRemarks fun g instructions hzero _ =>
      userRemarks_follow hzero instructions)
  | envNoSecrets => exact Or.inl (envNoSecrets_eq ▸ hremarks secretRemarks_follow)
  | documented => exact Or.inr rfl
  | dockerignorePresent => exact Or.inl (dockerignorePresent_isSteady o.search)
  | hasTestStep =>
    exact Or.inl (isSteady_ofRemarks fun g instructions hzero horder =>
      missingTestRemarks_follow hzero horder)

theorem keepsOrder_of_strictMonoOn {g : Nat → Nat} {instructions : List Instruction}
    (hmono : StrictMonoOn g (Set.Ici 1)) (hlines : ∀ i ∈ instructions, 1 ≤ i.line) :
    KeepsOrder g instructions :=
  fun i hi j hj => hmono.lt_iff_lt (hlines i hi) (hlines j hj)

/--
On other lines in the same order each rule, with whatever options and severity, finds what it found:
as many findings in the same order, of the same rule and severity, each where its line has gone. The
same holds of steps that move and may then end elsewhere, and as far as the rule about comments goes
if each of them keeps its comment.
-/
theorem inspect_renumbered {g : Nat → Nat} (hzero : g 0 = 0) (hmono : StrictMonoOn g (Set.Ici 1))
    {instructions : List Instruction} (hlines : ∀ i ∈ instructions, 1 ≤ i.line) (o : RuleOptions) :
    ∀ e ∈ Registry.entries, ∀ r, e.build o = .ok r → ∀ severity : Severity,
      Renumbered g ((r.withSeverity severity).inspect instructions)
        ((r.withSeverity severity).inspect
          (instructions.map fun i => { i with line := g i.line })) ∧
      ∀ instructions', List.Forall₂ (Moves g) instructions instructions' →
        (e.info.id = ("documented" : Text) →
          instructions'.map Instruction.commented = instructions.map Instruction.commented) →
        Renumbered g ((r.withSeverity severity).inspect instructions)
          ((r.withSeverity severity).inspect instructions') := by
  intro e he r hr severity
  have hmoved : ∀ instructions', List.Forall₂ (Moves g) instructions instructions' →
      (e.info.id = ("documented" : Text) →
        instructions'.map Instruction.commented = instructions.map Instruction.commented) →
      Renumbered g ((r.withSeverity severity).inspect instructions)
        ((r.withSeverity severity).inspect instructions') := by
    intro instructions' hmoves hcommented
    refine Renumbered.withSeverity ?_ severity
    rcases isSteady_or_documented (Registry.makes_of_build he hr) with hsteady | rfl
    · exact hsteady.renumbered hzero (keepsOrder_of_strictMonoOn hmono hlines) hmoves
    · have hid := (Registry.isFaithful_of_mem_entries e he o _ hr).id
      exact documented_renumbered hzero o.threshold (hcommented hid.symm)
  refine ⟨hmoved _ ?_ fun _ => ?_, hmoved⟩
  · exact List.forall₂_map_right_iff.mpr
      (List.forall₂_same.mpr fun i _ => ⟨rfl, rfl, rfl, rfl, rfl⟩)
  · rw [List.map_map]
    rfl

/-- Three steps move to lines three times as far down, and the missing test with them. -/
theorem inspect_renumbered_of_missing_test :
    ∃ (instructions instructions' : List Instruction) (found found' : List Finding),
      (∀ i ∈ instructions, 1 ≤ i.line) ∧
      List.Forall₂ (Moves (3 * ·)) instructions instructions' ∧
      hasTestStep.inspect instructions = .ok found ∧
      hasTestStep.inspect instructions' = .ok found' ∧
      List.Forall₂ (FindingFollows (3 * ·)) found found' ∧
      found.map Finding.line = [3] ∧ found'.map Finding.line = [9] := by
  let instructions : List Instruction :=
    [{ opcode := .base, arguments := ["a"], line := 1, endLine := 1, raw := "a" },
      { opcode := .run, arguments := ["make"], line := 2, endLine := 2, raw := "make" },
      { opcode := .cmd, arguments := ["x"], line := 3, endLine := 3, raw := "x" }]
  let instructions' : List Instruction :=
    [{ opcode := .base, arguments := ["a"], line := 3, endLine := 3, raw := "a" },
      { opcode := .run, arguments := ["make"], line := 6, endLine := 6, raw := "make",
        commented := true },
      { opcode := .cmd, arguments := ["x"], line := 9, endLine := 9, raw := "x" }]
  have hmono : StrictMonoOn (3 * ·) (Set.Ici 1) := fun a _ b _ hab => by
    show 3 * a < 3 * b
    omega
  have hlines : ∀ i ∈ instructions, 1 ≤ i.line := by decide
  have hmoves : List.Forall₂ (Moves (3 * ·)) instructions instructions' :=
    .cons ⟨rfl, rfl, rfl, rfl, rfl⟩
      (.cons ⟨rfl, rfl, rfl, rfl, rfl⟩ (.cons ⟨rfl, rfl, rfl, rfl, rfl⟩ .nil))
  have hentry : Registry.plain hasTestStep "HasTestStepRule"
      "Suggests running the test suite during the image build." "maintainability" ∈
        Registry.entries := List.mem_of_getElem? (show Registry.entries[10]? = some _ from rfl)
  have hown : hasTestStep.withSeverity .info = hasTestStep := if_pos rfl
  have hfound := ((inspect_renumbered (g := (3 * ·)) rfl hmono hlines {}) _ hentry _ rfl .info).2
    instructions' hmoves (fun h => absurd h (by decide))
  rw [hown] at hfound
  cases hfound with
  | findings hfollow =>
    exact ⟨instructions, instructions', _, _, hlines, hmoves, rfl, rfl, hfollow,
      by decide +kernel, by decide +kernel⟩

end Rule

end Drydock
