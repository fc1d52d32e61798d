/-
  What changes in a tree. To make a directory, and those above it that are missing, keeps all that
  stands and adds directories on the way of the path (`onlyMakesWay_makeDirectories`); to write a
  file then changes nothing but what stands where the path leads (`ChangesOnly`).
-/
import Drydock.Proofs.Files.Tree

namespace Drydock.FileTree

variable {t between t' : FileTree} {p : Path} {place here : List Text} {node : FileNode}

/-! ## What stays -/

/-- Whatever stands in a tree stands in another. -/
def Keeps (t t' : FileTree) : Prop :=
  ∀ place node, t.node? place = some node → t'.node? place = some node

theorem Keeps.walk {names : List Text} {found : List Text × FileNode} (h : t.Keeps t')
    (hway : t.walk here names = .ok found) : t'.walk here names = .ok found := by
  obtain ⟨there, node⟩ := found
  induction names generalizing here with
  | nil =>
    obtain ⟨rfl, hnode⟩ := walk_nil_eq_ok_iff.mp hway
    exact walk_nil_eq_ok_iff.mpr ⟨rfl, h here node hnode⟩
  | cons name rest ih =>
    have hhere := directory_of_walk_cons hway
    rw [walk_cons hhere] at hway
    rw [walk_cons (h here .directory hhere)]
    exact ih hway

theorem Keeps.find {found : List Text × FileNode} (h : t.Keeps t')
    (hdirectory : t'.directory = t.directory) (hfound : t.find p = .ok found) :
    t'.find p = .ok found := by
  have horigin : t'.origin p = t.origin p := by rw [origin, origin, hdirectory]
  rw [FileTree.find, horigin]
  exact h.walk hfound

theorem keeps_put (hplace : t.node? place = none) (node : FileNode) :
    t.Keeps (t.put place node) := by
  have hne := ne_nil_of_node?_eq_none hplace
  intro other found hfound
  have hother : other ≠ place := by
    rintro rfl
    exact absurd (hplace.symm.trans hfound) (by simp)
  rw [node?_put t hne, if_neg hother, hfound]

/-! ## New directories -/

/-- The place is on the way of a path, and a directory stands there. -/
def IsOnWay (t : FileTree) (p : Path) (place : List Text) : Prop :=
  ∃ names, names <+: p.parts ∧ t.find ⟨p.anchor, names⟩ = .ok (place, .directory)

/-- All that stands in a tree stays, and what is new are directories on the way of a path. -/
structure MakesWay (p : Path) (t t' : FileTree) : Prop where
  directory : t'.directory = t.directory
  terminals : t'.terminals = t.terminals
  kept : t.Keeps t'
  made : ∀ place node, t.node? place = none → t'.node? place = some node →
    node = .directory ∧ t'.IsOnWay p place

namespace MakesWay

theorem refl (p : Path) (t : FileTree) : MakesWay p t t where
  directory := rfl
  terminals := rfl
  kept := fun _ _ h => h
  made := fun _ _ hnone h => absurd (hnone.symm.trans h) (by simp)

theorem trans (h : MakesWay p t between) (h' : MakesWay p between t') : MakesWay p t t' where
  directory := h'.directory.trans h.directory
  terminals := h'.terminals.trans h.terminals
  kept := fun place node hnode => h'.kept place node (h.kept place node hnode)
  made := by
    intro place node hnone hnode
    cases hbetween : between.node? place with
    | none => exact h'.made place node hbetween hnode
    | some found =>
      obtain ⟨rfl, names, hnames, hfind⟩ := h.made place found hnone hbetween
      obtain rfl := Option.some.inj ((h'.kept place _ hbetween).symm.trans hnode)
      exact ⟨rfl, names, hnames, h'.kept.find h'.directory hfind⟩

/-- What is on the way of a path is on the way of one that goes on from there. -/
theorem mono {q : Path} (h : MakesWay p t t') (hanchor : p.anchor = q.anchor)
    (hparts : p.parts <+: q.parts) : MakesWay q t t' where
  directory := h.directory
  terminals := h.terminals
  kept := h.kept
  made := by
    intro place node hnone hnode
    obtain ⟨rfl, names, hnames, hfind⟩ := h.made place node hnone hnode
    exact ⟨rfl, names, hnames.trans hparts, hanchor ▸ hfind⟩

end MakesWay

/-- One new directory is on the way of the path that leads to it. -/
theorem makesWay_of_makeDirectory (h : t.makeDirectory p = .ok t') : MakesWay p t t' := by
  unfold makeDirectory at h
  split at h
  · exact absurd h (by simp)
  · next hnew =>
    obtain ⟨place, hplace, rfl⟩ := exists_of_map_eq_ok h
    have hnone := node?_eq_none_of_placeFor hnew hplace
    have hne := ne_nil_of_node?_eq_none hnone
    refine ⟨rfl, rfl, keeps_put hnone .directory, fun other node hother hnode => ?_⟩
    rw [node?_put t hne] at hnode
    split at hnode
    · next hsame =>
      obtain rfl := Option.some.inj hnode
      exact ⟨rfl, p.parts, List.prefix_rfl, hsame ▸ find_put_of_placeFor hnew hplace .directory⟩
    · exact absurd (hother.symm.trans hnode) (by simp)
  · exact absurd h (by simp)

section Making

variable {α β : Type}

/-- Whatever an action comes to, it only makes directories on the way of a path. -/
def OnlyMakesWay (p : Path) (x : StateM FileTree α) : Prop := ∀ t, MakesWay p t (x t).2

theorem Finds.onlyMakesWay {P : α → Prop} {x : StateM FileTree α} (h : Finds P x) (p : Path) :
    OnlyMakesWay p x := by
  intro t
  rw [(h t).2]
  exact MakesWay.refl p t

theorem onlyMakesWay_pure (p : Path) (a : α) : OnlyMakesWay p (pure a) :=
  fun t => MakesWay.refl p t

theorem OnlyMakesWay.bind {x : StateM FileTree α} {f : α → StateM FileTree β}
    (hx : OnlyMakesWay p x) (hf : ∀ a, OnlyMakesWay p (f a)) : OnlyMakesWay p (x >>= f) := by
  intro t
  have hgo : x t = ((x t).1, (x t).2) := rfl
  rw [bind_of_eq hgo]
  exact (hx t).trans (hf (x t).1 (x t).2)

theorem OnlyMakesWay.mono {q : Path} {x : StateM FileTree α} (h : OnlyMakesWay p x)
    (hanchor : p.anchor = q.anchor) (hparts : p.parts <+: q.parts) : OnlyMakesWay q x :=
  fun t => (h t).mono hanchor hparts

theorem onlyMakesWay_makeDirectory (p : Path) : OnlyMakesWay p (Host.makeDirectory p) := by
  intro t
  show MakesWay p t (change (fun t => t.makeDirectory p) t).2
  unfold change
  split
  · next t' hmade => exact makesWay_of_makeDirectory hmade
  · exact MakesWay.refl p t

theorem onlyLooks_unlessDirectory (p : Path) (result : Except FileError Unit) :
    OnlyLooks (Host.unlessDirectory p result : StateM FileTree _) := by
  cases result with
  | ok _ => exact Finds.pure trivial
  | error e => exact fun _ => ⟨trivial, rfl⟩

/-- The names are taken back one by one until a directory is there, and then made one by one. -/
theorem onlyMakesWay_makeAll (anchor : Anchor) (reversed : List Text) :
    OnlyMakesWay ⟨anchor, reversed.reverse⟩
      (Host.makeAll anchor reversed : StateM FileTree (Except FileError Unit)) := by
  induction reversed with
  | nil =>
    unfold Host.makeAll
    refine (onlyMakesWay_makeDirectory _).bind fun result => ?_
    split
    · exact onlyMakesWay_pure _ _
    · exact (onlyLooks_unlessDirectory _ _).onlyMakesWay _
  | cons name above ih =>
    have hprefix : above.reverse <+: (name :: above).reverse := by simp
    unfold Host.makeAll
    refine (onlyMakesWay_makeDirectory _).bind fun result => ?_
    split
    · have habove : OnlyMakesWay ⟨anchor, (name :: above).reverse⟩ _ := ih.mono rfl hprefix
      refine habove.bind fun made => ?_
      cases made with
      | error e => exact onlyMakesWay_pure _ _
      | ok _ =>
        refine (onlyMakesWay_makeDirectory _).bind fun result => ?_
        exact (onlyLooks_unlessDirectory _ result).onlyMakesWay _
    · exact (onlyLooks_unlessDirectory _ _).onlyMakesWay _

/-- To make a directory, and those above it that are missing, only makes the way there. -/
theorem onlyMakesWay_makeDirectories (p : Path) :
    OnlyMakesWay p (Host.makeDirectories p : StateM FileTree (Except FileError Unit)) := by
  have hway := onlyMakesWay_makeAll p.anchor p.parts.reverse
  rw [List.reverse_reverse] at hway
  exact hway

end Making

/-! ## New content -/

/-- A path leads to a file at a place. -/
def IsFileOf (t : FileTree) (p : Path) (place : List Text) : Prop :=
  ∃ content, t.find p = .ok (place, .file content)

/-- All that stands in a tree stays, but for a file to which a path leads; and what is new is such a
file, or a directory on the way there. -/
structure ChangesOnly (p : Path) (t t' : FileTree) : Prop where
  directory : t'.directory = t.directory
  terminals : t'.terminals = t.terminals
  kept : ∀ place node, t.node? place = some node →
    t'.node? place = some node ∨ node ≠ .directory ∧ t'.IsFileOf p place
  made : ∀ place node, t.node? place = none → t'.node? place = some node →
    t'.IsFileOf p place ∨ node = .directory ∧ t'.IsOnWay p.parent place

theorem ChangesOnly.refl (p : Path) (t : FileTree) : ChangesOnly p t t where
  directory := rfl
  terminals := rfl
  kept := fun _ _ h => Or.inl h
  made := fun _ _ hnone h => absurd (hnone.symm.trans h) (by simp)

theorem MakesWay.changesOnly (h : MakesWay p.parent t t') : ChangesOnly p t t' where
  directory := h.directory
  terminals := h.terminals
  kept := fun place node hnode => Or.inl (h.kept place node hnode)
  made := fun place node hnone hnode => Or.inr (h.made place node hnone hnode)

/-- A file that is written behind its way changes nothing else. -/
theorem MakesWay.changesOnly_write {content : Text.Octets} (h : MakesWay p.parent t between)
    (hwrite : between.write p content = .ok t') : ChangesOnly p t t' := by
  obtain ⟨place, rfl, hplace, hfound⟩ := exists_put_of_write hwrite
  have hput (other : List Text) : (between.put place (.file content)).node? other =
      if other = place then some (.file content) else between.node? other :=
    node?_put between (ne_nil_of_not_directory hplace) (.file content)
  refine ⟨h.directory, h.terminals, fun other node hnode => ?_, fun other node hnone hnode => ?_⟩
  · have hbetween := h.kept other node hnode
    rw [hput]
    by_cases hsame : other = place
    · obtain rfl := hsame
      refine Or.inr ⟨?_, content, hfound⟩
      rintro rfl
      exact hplace hbetween
    · rw [if_neg hsame]
      exact Or.inl hbetween
  · rw [hput] at hnode
    by_cases hsame : other = place
    · obtain rfl := hsame
      exact Or.inl ⟨content, hfound⟩
    · rw [if_neg hsame] at hnode
      obtain ⟨rfl, names, hnames, hway⟩ := h.made other node hnone hnode
      have hway' := walk_put hplace (.file content) hway
      rw [if_neg hsame] at hway'
      exact Or.inr ⟨rfl, names, hnames, hway'⟩

end Drydock.FileTree
