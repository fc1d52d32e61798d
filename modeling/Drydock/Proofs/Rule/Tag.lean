/-
  Images without a version. The rule about tags goes from stage to stage with the names given so far,
  and a lineage is looked up in a table of names that keeps the last stage of each. Still both tell
  the same bases from earlier stages (`lineage_eq_singleton_iff`). So the rule finds just the stages
  that are built on nothing but an image from outside, and on no fixed version of it
  (`unpinned_images_found`).
-/
import Drydock.Dockerfile.Parser
import Drydock.Proofs.Dockerfile.Lineage
import Drydock.Proofs.Dockerfile.Pursuit
import Drydock.Proofs.Rule.Access
import Drydock.Proofs.Text.Case
import Mathlib.Tactic.MkIffOfInductiveProp

namespace Drydock

/-! ## Stages that are built on no other -/

namespace Stage

variable {stages : List Stage} {s : Stage}

/-- A stage is built on no other just if its base says which image is meant, or if no stage before
it has the name of its base, whichever of several stages with this name were taken. -/
theorem lineage_eq_singleton_iff (h : IsNumbered stages) :
    lineage stages s = [s] ↔
      s.base.isPinned = true ∨ s.base.name ∉ names (stages.take s.index) := by
  rw [← definition?_eq_none_iff]
  constructor
  · intro hlineage
    by_contra hother
    obtain ⟨hopen, hname⟩ := not_or.mp hother
    obtain ⟨p, hp⟩ := Option.ne_none_iff_exists'.mp hname
    have hbefore := index_lt_of_mem_take h (mem_of_definition? hp).1
    obtain ⟨rest, hrest⟩ := exists_walk_eq stages s.index p
    have hwalk := walk_of_definition? (Bool.eq_false_iff.mpr hopen) hp hbefore
    rw [hrest] at hwalk
    exact absurd (hlineage.symm.trans hwalk) (by simp)
  · rintro (hpinned | hnone)
    · exact walk_of_pinned hpinned
    · exact walk_of_not_before fun p hp => absurd (hnone.symm.trans hp) (by simp)

end Stage

/-! ## Findings -/

namespace Rule

variable {stages : List Stage} {s : Stage}

/-- A stage is built on an image from outside and on no fixed version of it: on no other stage, and
on an image that is not the empty one, with a value for each variable, without a digest, and without
a tag or with the one that moves, in small or capital letters. -/
@[mk_iff]
structure IsUnpinned (stages : List Stage) (s : Stage) : Prop where
  lineage : Stage.lineage stages s = [s]
  name : s.base.name ≠ "scratch"
  resolved : s.base.resolved = true
  digest : s.base.digest = none
  tag : ∀ tag ∈ s.base.tag, tag.map Char.toLower = "latest"

instance : Decidable (IsUnpinned stages s) := decidable_of_iff' _ (isUnpinned_iff stages s)

/-- What is said about an image that is not pinned. -/
def unpinnedMessage (base : ImageReference) : Text :=
  if base.tag.isNone then missingTagMessage base.name else latestTagMessage base.name

theorem lower_eq_latest_iff (tag : Text) :
    Text.lower tag = "latest" ↔ tag.map Char.toLower = "latest" :=
  Text.lower_eq_iff_of_ascii (List.forall_iff_forall_mem.mp (by decide)) tag

theorem tagFault?_eq_some_iff {base : ImageReference} {message : Text} :
    tagFault? base = some message ↔
      (base.name ≠ "scratch" ∧ base.resolved = true ∧ base.digest = none ∧
        ∀ tag ∈ base.tag, tag.map Char.toLower = "latest") ∧ message = unpinnedMessage base := by
  have hjudged : (base.name = "scratch" || !base.resolved || base.digest.isSome) = false ↔
      base.name ≠ "scratch" ∧ base.resolved = true ∧ base.digest = none := by
    rw [Bool.or_eq_false_iff, Bool.or_eq_false_iff, decide_eq_false_iff_not, Bool.not_eq_false',
      Option.isSome_eq_false_iff, Option.isNone_iff_eq_none, and_assoc]
  unfold tagFault? unpinnedMessage
  split
  · rename_i hexempt
    refine iff_of_false (by simp) fun h => ?_
    exact absurd hexempt (by rw [hjudged.mpr ⟨h.1.1, h.1.2.1, h.1.2.2.1⟩]; simp)
  · rename_i hexempt
    obtain ⟨hname, hresolved, hdigest⟩ := hjudged.mp (Bool.eq_false_iff.mpr hexempt)
    cases base.tag with
    | none =>
      exact ⟨fun h => ⟨⟨hname, hresolved, hdigest, by simp⟩, (Option.some.inj h).symm⟩,
        fun h => congrArg some h.2.symm⟩
    | some tag =>
      dsimp only
      split
      · rename_i hlatest
        have htag : ∀ other ∈ some tag, other.map Char.toLower = "latest" := fun other hother =>
          Option.some.inj hother ▸ (lower_eq_latest_iff tag).mp hlatest
        exact ⟨fun h => ⟨⟨hname, hresolved, hdigest, htag⟩, (Option.some.inj h).symm⟩,
          fun h => congrArg some h.2.symm⟩
      · rename_i hother
        refine iff_of_false (by simp) fun h => ?_
        exact hother ((lower_eq_latest_iff tag).mpr (h.1.2.2.2 tag rfl))

/-- What the rule says about a stage, by the names of the stages before it. -/
theorem fault_eq_some_iff (h : Stage.IsNumbered stages) (s : Stage) (message : Text) :
    (if (Stage.names (stages.take s.index)).contains s.base.name && s.base.tag.isNone then none
      else tagFault? s.base) = some message ↔
      IsUnpinned stages s ∧ message = unpinnedMessage s.base := by
  rw [isUnpinned_iff, Stage.lineage_eq_singleton_iff h]
  by_cases hdigest : s.base.digest = none
  · have hstage : ((Stage.names (stages.take s.index)).contains s.base.name && s.base.tag.isNone) =
        true ↔ ¬(s.base.isPinned = true ∨ s.base.name ∉ Stage.names (stages.take s.index)) := by
      unfold ImageReference.isPinned
      cases s.base.tag <;> simp [hdigest]
    split
    · rename_i hbuilt
      exact iff_of_false (by simp) fun h => hstage.mp hbuilt h.1.1
    · rename_i hbuilt
      rw [tagFault?_eq_some_iff]
      exact and_congr_left' (and_iff_right (not_not.mp (mt hstage.mpr hbuilt))).symm
  · -- An image with a digest is passed over, whatever it is called.
    have hnone : tagFault? s.base ≠ some message := fun hfault =>
      hdigest (tagFault?_eq_some_iff.mp hfault).1.2.2.1
    refine iff_of_false ?_ fun h => hdigest h.1.2.2.2.1
    split
    · simp
    · exact hnone

/-- The remark on a stage that is built on no fixed version. -/
def unpinnedRemark (s : Stage) : Remark := (s.base.line, unpinnedMessage s.base)

/-- Behind some stages, the rule goes on with their names, and remarks on what is not pinned. -/
theorem tagRemarksAfter_eq (h : Stage.IsNumbered stages) (front rest : List Stage)
    (hstages : stages = front ++ rest) :
    tagRemarksAfter (Stage.names front) rest =
      (rest.filter fun s => IsUnpinned stages s).map unpinnedRemark := by
  induction rest generalizing front with
  | nil => rfl
  | cons s rest ih =>
    have hindex : s.index = front.length := Stage.index_of_append (hstages ▸ h)
    have hfront : stages.take s.index = front := by rw [hindex, hstages, List.take_left]
    have hnames : Stage.names front ++ s.base.stageName.toList = Stage.names (front ++ [s]) := by
      simp [Stage.names]
    rw [tagRemarksAfter, hnames, ih (front ++ [s]) (by rw [hstages, List.append_assoc]; rfl)]
    have hfault := fault_eq_some_iff h s
    rw [hfront] at hfault
    by_cases hunpinned : IsUnpinned stages s
    · have hsome := (hfault (unpinnedMessage s.base)).mpr ⟨hunpinned, rfl⟩
      rw [List.filter_cons_of_pos (by simpa using hunpinned), List.map_cons, hsome]
      rfl
    · have hnone := Option.eq_none_iff_forall_ne_some.mpr fun message hsome =>
        hunpinned ((hfault message).mp hsome).1
      rw [List.filter_cons_of_neg (by simpa using hunpinned), hnone]
      rfl

/--
The rule about tags finds one fault at the line of each stage that is built on no other stage, on an
image that is not the empty one, with a value for each variable, without a digest, and without a tag
or with the one that moves, in small or capital letters; and it finds nothing else. The findings are
in the order of the stages.
-/
theorem unpinned_images_found (instructions : List Instruction) :
    let stages := (Stage.split instructions).stages
    explicitTag.inspect instructions =
      .ok ((stages.filter fun s => IsUnpinned stages s).map fun s =>
        ⟨"explicit-tag", .error, s.base.line, unpinnedMessage s.base⟩) := by
  have hremarks : tagRemarks instructions = _ :=
    tagRemarksAfter_eq (Stage.isNumbered_split instructions) [] _ rfl
  rw [explicitTag_eq, ofRemarks]
  dsimp only
  rw [hremarks, List.map_map]
  rfl

end Rule

end Drydock
