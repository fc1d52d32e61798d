/-
  One stage on another base. A step that opens a stage parts the steps into those before it and those
  behind it (`split_opening`). Where another step stands in its place, which gives the stage the same
  name, and no stage has the name of either base, each stage builds on the same ones as before
  (`lineage_rebase`), so the last stage rests on this one just if it did before (`restsOn_iff`).
-/
import Drydock.Proofs.Dockerfile.Division
import Drydock.Proofs.Dockerfile.Lineage

namespace Drydock.Stage

variable {stages : List Stage} {i : Instruction} {s t : Stage} {base : ImageReference}

theorem eq_of_index_eq (h : IsNumbered stages) (hs : s ∈ stages) (ht : t ∈ stages)
    (hindex : s.index = t.index) : s = t := by
  obtain ⟨m, hm, rfl⟩ := List.getElem_of_mem hs
  obtain ⟨n, hn, rfl⟩ := List.getElem_of_mem ht
  rw [h m hm, h n hn] at hindex
  subst hindex
  rfl

/-! ## Around a step that opens a stage -/

theorem divide_opening (h : i.opcode = .base) (front back : List Instruction) :
    divide (front ++ i :: back) =
      ((divide front).1, (divide front).2 ++ (i, (divide back).1) :: (divide back).2) := by
  induction front with
  | nil => exact divide_cons_base h back
  | cons first front ih =>
    rw [List.cons_append, divide, divide, ih]
    by_cases hfirst : first.opcode = .base <;> simp [hfirst]

/-- The stages that further steps make behind some stages. -/
def later (place : Nat) (values : OrderedMap Text Text) (back : List Instruction) : List Stage :=
  ((divide back).2.zipIdx place).map (ofGroup values)

theorem le_index_of_mem_later {place : Nat} {values : OrderedMap Text Text}
    {back : List Instruction} (h : s ∈ later place values back) : place ≤ s.index := by
  obtain ⟨g, hg, rfl⟩ := List.mem_map.mp h
  exact List.le_snd_of_mem_zipIdx hg

/-- The stage that a step opens between others; its base has the values declared in front. -/
def opened (front : List Instruction) (i : Instruction) (back : List Instruction) : Stage where
  index := (split front).stages.length
  opening := i
  base := ImageReference.ofInstruction i (split front).globalArgs
  instructions := (divide back).1

/-- The stage that a step opens stands between those before it and those behind it. -/
theorem split_opening (h : i.opcode = .base) (front back : List Instruction) :
    (split (front ++ i :: back)).stages =
      (split front).stages ++ opened front i back ::
        later ((split front).stages.length + 1) (split front).globalArgs back := by
  rw [opened, split_eq, split_eq, divide_opening h, List.zipIdx_append, List.map_append,
    List.zipIdx_cons, List.map_cons, List.length_map, List.length_zipIdx, Nat.zero_add]
  rfl

theorem opened_mem_split (h : i.opcode = .base) (front back : List Instruction) :
    opened front i back ∈ (split (front ++ i :: back)).stages := by
  rw [split_opening h]
  exact List.mem_append_right _ List.mem_cons_self

/-! ## Another base -/

/-- A stage with a number is opened by another step, on another base. -/
def rebase (place : Nat) (i : Instruction) (base : ImageReference) (s : Stage) : Stage :=
  if s.index = place then { s with opening := i, base } else s

theorem rebase_of_ne {place : Nat} (h : s.index ≠ place) : rebase place i base s = s := if_neg h

theorem index_rebase (place : Nat) (i : Instruction) (base : ImageReference) (s : Stage) :
    (rebase place i base s).index = s.index := by
  unfold rebase
  split <;> rfl

/-- With another step in the place of one that opens a stage, just this stage is another. -/
theorem split_rebase {j : Instruction} (hi : i.opcode = .base) (hj : j.opcode = .base)
    (front back : List Instruction) :
    (split (front ++ j :: back)).stages =
      (split (front ++ i :: back)).stages.map
        (rebase (opened front i back).index j (opened front j back).base) := by
  have hfront : ∀ s ∈ (split front).stages, s.index ≠ (opened front i back).index := by
    intro s hs
    obtain ⟨n, hn, rfl⟩ := List.getElem_of_mem hs
    rw [isNumbered_split front n hn]
    exact hn.ne
  have hback : ∀ s ∈ later ((split front).stages.length + 1) (split front).globalArgs back,
      s.index ≠ (opened front i back).index := by
    intro s hs
    exact Nat.ne_of_gt (le_index_of_mem_later hs)
  rw [split_opening hi, split_opening hj, List.map_append, List.map_cons,
    List.map_congr_left fun s hs => rebase_of_ne (hfront s hs), List.map_id',
    List.map_congr_left fun s hs => rebase_of_ne (hback s hs), List.map_id', rebase, if_pos rfl]
  rfl

/-- A base that a stage can have instead: the stage keeps its name, the image is told by a tag or a
digest just if it was, and otherwise nothing is named as either base. -/
structure CanReplace (stages : List Stage) (s : Stage) (base : ImageReference) : Prop where
  stageName : base.stageName = s.base.stageName
  isPinned : base.isPinned = s.base.isPinned
  old : s.base.isPinned = false → s.base.name ∉ names stages
  new : s.base.isPinned = false → base.name ∉ names stages

/-- On a base that it can have instead, a stage and all others build on the same ones as before. -/
theorem lineage_rebase (hnumbered : IsNumbered stages) (hs : s ∈ stages)
    (h : CanReplace stages s base) (i : Instruction) (ht : t ∈ stages) :
    lineage (stages.map (rebase s.index i base)) (rebase s.index i base t) =
      (lineage stages t).map (rebase s.index i base) := by
  have hsame {u : Stage} (hu : u ∈ stages) (hindex : u.index = s.index) : u = s :=
    eq_of_index_eq hnumbered hu hs hindex
  have hname : ∀ u ∈ stages,
      (rebase s.index i base u).base.stageName = u.base.stageName := by
    intro u hu
    unfold rebase
    split
    · rename_i hindex
      rw [hsame hu hindex]
      exact h.stageName
    · rfl
  refine lineageFrom_map (S := (· ∈ stages)) (f := rebase s.index i base)
    (fun _ _ hfound => List.mem_of_mem_take (mem_of_get?_byName hfound).1)
    (fun u _ => index_rebase _ i base u) (fun u hu => ?_) (fun u hu hopen => ?_) ht
  · unfold rebase
    split
    · rename_i hindex
      rw [hsame hu hindex]
      exact h.isPinned
    · rfl
  · rw [get?_byName, index_rebase, get?_byName, definition?_map hname]
    by_cases hindex : u.index = s.index
    · -- The lineage ends here, before and after.
      obtain rfl := hsame hu hindex
      have hend {name : Text} (hnone : name ∉ names stages) :
          definition? stages t.index name = none := by
        rw [definition?_eq_none_iff, mem_names_iff]
        rintro ⟨p, hp, hpname⟩
        exact hnone (mem_names_iff.mpr ⟨p, List.mem_of_mem_take hp, hpname⟩)
      have hunpinned := Bool.eq_false_iff.mpr hopen
      rw [rebase, if_pos rfl, hend (h.old hunpinned), hend (h.new hunpinned)]
    · rw [rebase_of_ne hindex]

/-! ## What the last stage rests on -/

/-- The stage that the last one rests on. -/
def finalRoot? (stages : List Stage) : Option Stage :=
  stages.getLast?.bind fun s => (lineage stages s).getLast?

theorem mem_of_finalRoot? (h : finalRoot? stages = some s) : s ∈ stages := by
  obtain ⟨t, ht, hs⟩ := Option.bind_eq_some_iff.mp h
  exact mem_of_mem_lineage (List.mem_of_getLast? ht) (List.mem_of_getLast? hs)

theorem finalRoot?_rebase (hnumbered : IsNumbered stages) (hs : s ∈ stages)
    (h : CanReplace stages s base) (i : Instruction) :
    finalRoot? (stages.map (rebase s.index i base)) =
      (finalRoot? stages).map (rebase s.index i base) := by
  unfold finalRoot?
  rw [List.getLast?_map]
  cases hlast : stages.getLast? with
  | none => rfl
  | some t =>
    rw [Option.map_some, Option.bind_some, Option.bind_some,
      lineage_rebase hnumbered hs h i (List.mem_of_getLast? hlast), List.getLast?_map]

/-- The last stage rests on the one that a step opens between others. -/
def RestsOn (front : List Instruction) (i : Instruction) (back : List Instruction) : Prop :=
  finalRoot? (split (front ++ i :: back)).stages = some (opened front i back)

instance (front : List Instruction) (i : Instruction) (back : List Instruction) :
    Decidable (RestsOn front i back) :=
  inferInstanceAs (Decidable (_ = _))

/-- The last stage rests on itself if its image is pinned. -/
theorem restsOn_of_isPinned {front back : List Instruction} (hi : i.opcode = .base)
    (hback : ∀ j ∈ back, j.opcode ≠ .base) (hpinned : (opened front i back).base.isPinned = true) :
    RestsOn front i back := by
  have hlater : later ((split front).stages.length + 1) (split front).globalArgs back = [] := by
    rw [later, divide_eq_nil_iff.mpr hback]
    rfl
  rw [RestsOn, split_opening hi, hlater, finalRoot?, List.getLast?_concat, Option.bind_some,
    lineage, lineageFrom, if_pos hpinned]
  rfl

/-- With another step in the place of one, the last stage rests on this one just if it did before. -/
theorem restsOn_iff {front back : List Instruction} {j : Instruction} (hi : i.opcode = .base)
    (hj : j.opcode = .base)
    (h : CanReplace (split (front ++ i :: back)).stages (opened front i back)
      (opened front j back).base) :
    RestsOn front j back ↔ RestsOn front i back := by
  have hnumbered := isNumbered_split (front ++ i :: back)
  have hmem := opened_mem_split hi front back
  have hopened : rebase (opened front i back).index j (opened front j back).base
      (opened front i back) = opened front j back := if_pos rfl
  unfold RestsOn
  rw [split_rebase hi hj, finalRoot?_rebase hnumbered hmem h, Option.map_eq_some_iff]
  constructor
  · rintro ⟨s, hs, hrebased⟩
    have hindex := congrArg Stage.index hrebased
    rw [index_rebase] at hindex
    rw [hs, eq_of_index_eq hnumbered (mem_of_finalRoot? hs) hmem hindex]
  · intro hroot
    exact ⟨_, hroot, hopened⟩

end Drydock.Stage
