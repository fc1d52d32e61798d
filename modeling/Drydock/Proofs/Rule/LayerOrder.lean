/-
  Copies of everything before an installation. In each stage the rule looks for the first copy of
  everything and then for the first installation behind it (`copyBeforeInstall?_eq_some_iff`). It
  finds both just if some copy stands before some installation, whichever these are
  (`isSome_copyBeforeInstall?_iff`). So each stage of which this is true is found once, and no other
  one is (`late_installs_found`).
-/
import Drydock.Proofs.Dockerfile.Division
import Drydock.Proofs.Rule.Access

namespace Drydock

/-- The values of a partial function belong one by one to the members where it has one. -/
theorem forall₂_filterMap {α β : Type} {p : α → Prop} [DecidablePred p] {f : α → Option β}
    (h : ∀ a, (f a).isSome = true ↔ p a) (l : List α) :
    List.Forall₂ (fun a b => a ∈ l ∧ f a = some b) (l.filter fun a => p a) (l.filterMap f) := by
  induction l with
  | nil => exact .nil
  | cons a l ih =>
    have hrest := ih.imp fun b c (hbc : b ∈ l ∧ f b = some c) =>
      hbc.imp_left (List.mem_cons_of_mem a)
    cases hfa : f a with
    | none =>
      have hp : ¬p a := by
        rw [← h a, hfa]
        exact Bool.false_ne_true
      rw [List.filter_cons_of_neg (by simpa using hp), List.filterMap_cons_none hfa]
      exact hrest
    | some b =>
      have hp : p a := by
        rw [← h a, hfa]
        rfl
      rw [List.filter_cons_of_pos (by simpa using hp), List.filterMap_cons_some hfa]
      exact .cons ⟨List.mem_cons_self, hfa⟩ hrest

namespace Rule

variable {steps : List Instruction} {i copy install : Instruction}

/-! ## Copies and installations -/

/-- A step copies files, and a source of them is the whole build context. -/
structure CopiesAll (i : Instruction) : Prop where
  opcode : i.opcode = .copy ∨ i.opcode = .add
  source : ("." : Text) ∈ i.copySources ∨ ("./" : Text) ∈ i.copySources

theorem copiesContext_iff : i.copiesContext = true ↔ CopiesAll i := by
  have hsource : (i.copySources.any fun source => source = "." || source = "./") = true ↔
      ("." : Text) ∈ i.copySources ∨ ("./" : Text) ∈ i.copySources := by
    simp [and_or_left, exists_or]
  rw [Instruction.copiesContext, Bool.and_eq_true, hsource]
  constructor
  · rintro ⟨hopcode, hsource⟩
    exact ⟨by simpa [Opcode.copiesFiles] using hopcode, hsource⟩
  · rintro ⟨hopcode, hsource⟩
    exact ⟨by simpa [Opcode.copiesFiles] using hopcode, hsource⟩

/-- Some step copies everything, and some later step installs dependencies. -/
def InstallsLate (steps : List Instruction) : Prop :=
  ∃ copy install, [copy, install].Sublist steps ∧ CopiesAll copy ∧
    install.installsDependencies = true

/-- A step is the first that copies everything, and another one is the first behind it that installs
dependencies. -/
def AreFirst (steps : List Instruction) (copy install : Instruction) : Prop :=
  ∃ front between back, steps = front ++ copy :: (between ++ install :: back) ∧
    CopiesAll copy ∧ (∀ i ∈ front, ¬CopiesAll i) ∧
    install.installsDependencies = true ∧ ∀ i ∈ between, ¬i.installsDependencies = true

theorem AreFirst.mem_filter (h : AreFirst steps copy install) :
    copy ∈ steps.filter Instruction.copiesContext := by
  obtain ⟨front, between, back, rfl, hcopy, -⟩ := h
  exact List.mem_filter.mpr ⟨by simp, copiesContext_iff.mpr hcopy⟩

theorem copyBeforeInstall?_eq_some_iff :
    copyBeforeInstall? steps = some (copy, install) ↔ AreFirst steps copy install := by
  unfold copyBeforeInstall?
  constructor
  · intro h
    split at h
    · exact absurd h (by simp)
    · rename_i first rest hfirst
      obtain ⟨last, hlast, hpair⟩ := Option.map_eq_some_iff.mp h
      obtain ⟨rfl, rfl⟩ := Prod.mk.inj hpair
      obtain ⟨hinstalls, between, back, rfl, hbetween⟩ := List.find?_eq_some_iff_append.mp hlast
      have hsteps := List.takeWhile_append_dropWhile (p := fun i => !Instruction.copiesContext i)
        (l := steps)
      have hhead := List.head?_dropWhile_not (fun i => !Instruction.copiesContext i) steps
      rw [hfirst] at hhead hsteps
      refine ⟨_, between, back, hsteps.symm, copiesContext_iff.mp (by simpa using hhead),
        fun i hi => ?_, hinstalls, fun i hi => by simpa using hbetween i hi⟩
      rw [← copiesContext_iff]
      simpa using List.mem_takeWhile_imp hi
  · rintro ⟨front, between, back, rfl, hcopy, hfront, hinstalls, hbetween⟩
    have hdrop : (front ++ copy :: (between ++ install :: back)).dropWhile
        (fun i => !i.copiesContext) = copy :: (between ++ install :: back) := by
      rw [List.dropWhile_append_of_pos fun i hi => by
          simpa using mt copiesContext_iff.mp (hfront i hi),
        List.dropWhile_cons_of_neg (by simpa using copiesContext_iff.mpr hcopy)]
    have hfind : (between ++ install :: back).find? Instruction.installsDependencies =
        some install :=
      List.find?_eq_some_iff_append.mpr
        ⟨hinstalls, between, back, rfl, fun i hi => by simpa using hbetween i hi⟩
    rw [hdrop]
    dsimp only
    rw [hfind]
    rfl

/-- The first copy and the first installation behind it are found if there are any. -/
theorem isSome_copyBeforeInstall?_iff :
    (copyBeforeInstall? steps).isSome = true ↔ InstallsLate steps := by
  constructor
  · intro h
    obtain ⟨⟨copy, install⟩, hfound⟩ := Option.isSome_iff_exists.mp h
    obtain ⟨front, between, back, rfl, hcopy, -, hinstalls, -⟩ :=
      copyBeforeInstall?_eq_some_iff.mp hfound
    refine ⟨copy, install, ?_, hcopy, hinstalls⟩
    exact ((List.singleton_sublist.mpr (by simp)).cons_cons copy).trans
      (List.sublist_append_right front _)
  · rintro ⟨copy, install, hsublist, hcopy, hinstalls⟩
    obtain ⟨front, behind, rfl, hfront, hbehind⟩ := List.cons_sublist_iff.mp hsublist
    unfold copyBeforeInstall?
    rw [List.dropWhile_append]
    cases hdrop : front.dropWhile fun i => !i.copiesContext with
    | nil =>
      have hnone := List.dropWhile_eq_nil_iff.mp hdrop copy hfront
      exact absurd (copiesContext_iff.mpr hcopy) (by simpa using hnone)
    | cons first rest =>
      rw [List.isEmpty_cons, if_neg Bool.false_ne_true, List.cons_append]
      dsimp only
      rw [Option.isSome_map, List.find?_isSome]
      exact ⟨install, List.mem_append_right _ (List.singleton_sublist.mp hbehind), hinstalls⟩

instance : Decidable (InstallsLate steps) :=
  decidable_of_iff _ isSome_copyBeforeInstall?_iff

/-! ## Findings -/

/-- What is found of a copy of everything. -/
def contextCopyFinding (copy : Instruction) : Finding :=
  ⟨"specific-copy", .warning, copy.line, contextCopyMessage copy⟩

/-- What is found of a copy of everything before an installation. -/
def layerOrderFinding (copy install : Instruction) : Finding :=
  ⟨"layer-caching-order", .warning, copy.line, layerOrderMessage install⟩

theorem inspect_specificCopy (steps : List Instruction) :
    specificCopy.inspect steps =
      .ok ((steps.filter Instruction.copiesContext).map contextCopyFinding) := by
  rw [specificCopy, ofRemarks]
  dsimp only
  rw [contextCopyRemarks, List.map_map]
  rfl

/-- What is found in a stage. -/
def layerOrderFinding? (s : Stage) : Option Finding :=
  (copyBeforeInstall? s.instructions).map fun (copy, install) => layerOrderFinding copy install

theorem inspect_layerCachingOrder (steps : List Instruction) :
    layerCachingOrder.inspect steps =
      .ok ((Stage.split steps).stages.filterMap layerOrderFinding?) := by
  rw [layerCachingOrder_eq, ofRemarks]
  dsimp only
  rw [layerOrderRemarks, List.map_filterMap]
  refine congrArg (fun found => Except.ok (List.filterMap found _)) (funext fun s => ?_)
  rw [layerOrderRemark?, Option.map_map]
  rfl

/-- The copies found in stages are among all copies of the stages' steps, in the same order. -/
theorem sublist_copies (stages : List Stage) :
    ((stages.filterMap layerOrderFinding?).map Finding.line).Sublist
      ((((stages.flatMap fun s => s.opening :: s.instructions).filter
        Instruction.copiesContext).map contextCopyFinding).map Finding.line) := by
  induction stages with
  | nil => exact List.Sublist.refl _
  | cons s stages ih =>
    rw [List.flatMap_cons, List.filter_append, List.map_append, List.map_append]
    cases hfound : copyBeforeInstall? s.instructions with
    | none =>
      rw [List.filterMap_cons_none (by rw [layerOrderFinding?, hfound]; rfl)]
      exact ih.trans (List.sublist_append_right _ _)
    | some pair =>
      obtain ⟨copy, install⟩ := pair
      have hmem : copy ∈ (s.opening :: s.instructions).filter Instruction.copiesContext :=
        (List.Sublist.filter _ (List.sublist_cons_self _ _)).subset
          (copyBeforeInstall?_eq_some_iff.mp hfound).mem_filter
      rw [List.filterMap_cons_some (by rw [layerOrderFinding?, hfound]; rfl), List.map_cons]
      have hcopy := List.mem_map_of_mem (f := Finding.line)
        (List.mem_map_of_mem (f := contextCopyFinding) hmem)
      exact (List.singleton_sublist.mpr hcopy).append ih

/--
Neither rule about copies of everything fails. The rule about the order of layers finds one fault,
in the order of the stages, in each stage in which some step copies everything and some later one
installs dependencies, and nothing else: at the line of the first step of the stage that copies
everything, naming the line of the first step behind it that installs dependencies. The copy is also
found as a copy of everything, and those found by the one rule come in the same order among those
found by the other.
-/
theorem late_installs_found (steps : List Instruction) :
    ∃ (split : Stages) (found copies : List Finding),
      Stages.checkedSplit steps = .ok split ∧ layerCachingOrder.inspect steps = .ok found ∧
      specificCopy.inspect steps = .ok copies ∧
      List.Forall₂ (fun s f => ∃ copy install, AreFirst s.instructions copy install ∧
          f = layerOrderFinding copy install ∧ contextCopyFinding copy ∈ copies)
        (split.stages.filter fun s => InstallsLate s.instructions) found ∧
      (found.map Finding.line).Sublist (copies.map Finding.line) := by
  refine ⟨_, _, _, Stages.checkedSplit_eq steps, inspect_layerCachingOrder steps,
    inspect_specificCopy steps, ?_, ?_⟩
  · have hsome (s : Stage) :
        (layerOrderFinding? s).isSome = true ↔ InstallsLate s.instructions := by
      rw [layerOrderFinding?, Option.isSome_map, isSome_copyBeforeInstall?_iff]
    refine (forall₂_filterMap hsome _).imp fun s f ⟨hs, hfound⟩ => ?_
    obtain ⟨⟨copy, install⟩, hpair, rfl⟩ := Option.map_eq_some_iff.mp hfound
    have hfirst := copyBeforeInstall?_eq_some_iff.mp hpair
    obtain ⟨hmem, hcopies⟩ := List.mem_filter.mp hfirst.mem_filter
    have hcopy := List.mem_filter.mpr ⟨(Stage.isOf_of_mem_split hs).rest copy hmem, hcopies⟩
    exact ⟨copy, install, hfirst, rfl, List.mem_map_of_mem hcopy⟩
  · have hstages : ((Stage.split steps).stages.flatMap fun s =>
        s.opening :: s.instructions).Sublist steps := by
      conv_rhs => rw [(Stage.isDivision_split steps).whole]
      exact List.sublist_append_right _ _
    exact (sublist_copies _).trans (((hstages.filter _).map _).map _)

end Rule

end Drydock
