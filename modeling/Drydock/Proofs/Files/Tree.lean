/-
  What a tree of files holds. Paths lead through directories, so a change at a place where no
  directory stands leaves all ways as they are, and what is written to a file is read from it
  (`read_of_write`). Most actions only look at files and leave the tree as it is (`Finds`).
-/
import Drydock.Files.Tree
import Drydock.Proofs.Except

namespace Drydock.FileTree

variable {t : FileTree} {place here there : List Text} {node old : FileNode} {names : List Text}

/-! ## Places -/

theorem node?_put (t : FileTree) (hne : place ≠ []) (node : FileNode) :
    (t.put place node).node? here = if here = place then some node else t.node? here := by
  have hget : (t.nodes.insert place node).get? here =
      if here = place then some node else t.nodes.get? here := by
    rw [OrderedMap.get?_insert]
    by_cases heq : here = place
    · rw [if_pos heq.symm, if_pos heq]
    · rw [if_neg (Ne.symm heq), if_neg heq]
  unfold node? put
  cases here with
  | nil => rw [List.isEmpty_nil, if_pos rfl, if_neg (Ne.symm hne), if_pos rfl]
  | cons name here => simpa using hget

theorem ne_nil_of_not_directory (h : t.node? place ≠ some .directory) : place ≠ [] := by
  rintro rfl
  exact h rfl

theorem ne_nil_of_node?_eq_none (h : t.node? place = none) : place ≠ [] := by
  apply ne_nil_of_not_directory (t := t)
  simp [h]

/-! ## Ways -/

theorem walk_cons {name : Text} {rest : List Text} (h : t.node? here = some .directory) :
    t.walk here (name :: rest) =
      t.walk (if name = ['.', '.'] then here.dropLast else here ++ [name]) rest := by
  rw [walk, h]

/-- A way goes on through a directory, if it goes on at all. -/
theorem directory_of_walk_cons {name : Text} {rest : List Text} {found : List Text × FileNode}
    (h : t.walk here (name :: rest) = .ok found) : t.node? here = some .directory := by
  rw [walk] at h
  cases hnode : t.node? here with
  | none =>
    rw [hnode] at h
    exact absurd h (by simp)
  | some node =>
    cases node with
    | directory => rfl
    | file content =>
      rw [hnode] at h
      exact absurd h (by simp)

theorem walk_nil_eq_ok_iff :
    t.walk here [] = .ok (there, node) ↔ here = there ∧ t.node? here = some node := by
  rw [walk]
  cases t.node? here with
  | none => simp
  | some found => simp

/-- What a way leads to stands there. -/
theorem node?_of_walk (h : t.walk here names = .ok (there, node)) :
    t.node? there = some node := by
  induction names generalizing here with
  | nil =>
    obtain ⟨rfl, hnode⟩ := walk_nil_eq_ok_iff.mp h
    exact hnode
  | cons name rest ih =>
    rw [walk_cons (directory_of_walk_cons h)] at h
    exact ih h

/-- A change where no directory stands leaves all ways as they are. -/
theorem walk_put (hplace : t.node? place ≠ some .directory) (new : FileNode)
    (h : t.walk here names = .ok (there, node)) :
    (t.put place new).walk here names = .ok (there, if there = place then new else node) := by
  have hput (other : List Text) : (t.put place new).node? other =
      if other = place then some new else t.node? other :=
    node?_put t (ne_nil_of_not_directory hplace) new
  induction names generalizing here with
  | nil =>
    obtain ⟨rfl, hnode⟩ := walk_nil_eq_ok_iff.mp h
    refine walk_nil_eq_ok_iff.mpr ⟨rfl, ?_⟩
    rw [hput, hnode]
    by_cases heq : here = place
    · rw [if_pos heq, if_pos heq]
    · rw [if_neg heq, if_neg heq]
  | cons name rest ih =>
    have hhere := directory_of_walk_cons h
    have hne : here ≠ place := by
      rintro rfl
      exact hplace hhere
    rw [walk_cons hhere] at h
    rw [walk_cons (by rw [hput, if_neg hne, hhere])]
    exact ih h

/-- One more name leads to what stands in a directory under it. -/
theorem walk_concat {above : List Text} {name : Text} (hname : name ≠ ['.', '.'])
    (h : t.walk here names = .ok (above, .directory)) :
    t.walk here (names ++ [name]) =
      match t.node? (above ++ [name]) with
      | some node => .ok (above ++ [name], node)
      | none => .error .notFound := by
  induction names generalizing here with
  | nil =>
    obtain ⟨rfl, hnode⟩ := walk_nil_eq_ok_iff.mp h
    rw [List.nil_append, walk_cons hnode, if_neg hname]
    cases hfound : t.node? (here ++ [name]) <;> rw [walk, hfound]
  | cons first rest ih =>
    have hhere := directory_of_walk_cons h
    rw [walk_cons hhere] at h
    rw [List.cons_append, walk_cons hhere]
    exact ih h

/-! ## Files -/

variable {t' : FileTree} {p : Path} {content : Text.Octets}

/-- The place of something new is a name in the directory that the path before it leads to. -/
theorem exists_above_of_placeFor (h : t.placeFor p = .ok place) : ∃ above,
    place = above ++ [p.name] ∧ t.walk (t.origin p) p.parts.dropLast = .ok (above, .directory) ∧
      p.name ≠ ['.', '.'] ∧ p.parts = p.parts.dropLast ++ [p.name] := by
  unfold placeFor at h
  cases hparent : t.find p.parent with
  | error e =>
    rw [hparent] at h
    exact absurd h (by simp)
  | ok found =>
    obtain ⟨above, node⟩ := found
    rw [hparent] at h
    cases node with
    | file old => exact absurd h (by simp)
    | directory =>
      dsimp only at h
      split at h
      · exact absurd h (by simp)
      · next hname =>
        rw [Bool.or_eq_true, not_or, decide_eq_true_eq, List.isEmpty_iff] at hname
        refine ⟨above, (Except.ok.inj h).symm, hparent, hname.1, ?_⟩
        rw [Path.name, List.getLast?_eq_some_getLast hname.2]
        exact (List.dropLast_append_getLast hname.2).symm

/-- Nothing stands at the place of something new. -/
theorem node?_eq_none_of_placeFor (hnew : t.find p = .error .notFound)
    (h : t.placeFor p = .ok place) : t.node? place = none := by
  obtain ⟨above, rfl, habove, hname, hparts⟩ := exists_above_of_placeFor h
  rw [find, hparts, walk_concat hname habove] at hnew
  cases hnode : t.node? (above ++ [p.name]) with
  | none => rfl
  | some node =>
    rw [hnode] at hnew
    exact absurd hnew (by simp)

/-- Something new stands where the path to it leads. -/
theorem find_put_of_placeFor (hnew : t.find p = .error .notFound) (h : t.placeFor p = .ok place)
    (new : FileNode) : (t.put place new).find p = .ok (place, new) := by
  have hnone := node?_eq_none_of_placeFor hnew h
  obtain ⟨above, rfl, habove, hname, hparts⟩ := exists_above_of_placeFor h
  have hplace : t.node? (above ++ [p.name]) ≠ some .directory := by simp [hnone]
  have hway := walk_put hplace new habove
  rw [if_neg (by simp)] at hway
  rw [find, hparts]
  refine (walk_concat hname hway).trans ?_
  rw [node?_put t (ne_nil_of_node?_eq_none hnone), if_pos rfl]

/-- What is written, be the file new or not, is put where the path leads, and no directory stands
there before. -/
theorem exists_put_of_write (h : t.write p content = .ok t') :
    ∃ place, t' = t.put place (.file content) ∧ t.node? place ≠ some .directory ∧
      t'.find p = .ok (place, .file content) := by
  unfold write at h
  cases hfind : t.find p with
  | ok found =>
    obtain ⟨place, node⟩ := found
    rw [hfind] at h
    cases node with
    | directory => exact absurd h (by simp)
    | file old =>
      obtain rfl := Except.ok.inj h
      have hplace : t.node? place ≠ some .directory := by
        rw [node?_of_walk hfind]
        simp
      have hway := walk_put hplace (.file content) hfind
      rw [if_pos rfl] at hway
      exact ⟨place, rfl, hplace, hway⟩
  | error e =>
    rw [hfind] at h
    cases e with
    | notFound =>
      obtain ⟨place, hplace, rfl⟩ := exists_of_map_eq_ok h
      have hnone := node?_eq_none_of_placeFor hfind hplace
      exact ⟨place, rfl, by simp [hnone], find_put_of_placeFor hfind hplace _⟩
    | _ => exact absurd h (by simp)

/-- What is written to a file is read from it, be the file new or not. -/
theorem read_of_write (h : t.write p content = .ok t') : t'.read p = .ok content := by
  obtain ⟨place, -, -, hfound⟩ := exists_put_of_write h
  rw [read, hfound]

/-! ## Actions -/

/-- An action goes on with the tree that the one before it has left. -/
theorem bind_of_eq {α β : Type} {x : StateM FileTree α} {a : α} (h : x t = (a, t'))
    (f : α → StateM FileTree β) : (x >>= f) t = f a t' := by
  show f (x t).1 (x t).2 = f a t'
  rw [h]

/-- An action leaves the tree as it is and comes to what has a property. -/
def Finds {α : Type} (P : α → Prop) (x : StateM FileTree α) : Prop :=
  ∀ t, P (x t).1 ∧ (x t).2 = t

/-- An action leaves the tree as it is. -/
abbrev OnlyLooks {α : Type} (x : StateM FileTree α) : Prop := Finds (fun _ => True) x

namespace Finds

variable {α β : Type} {P : α → Prop} {Q : β → Prop}

theorem pure {a : α} (h : P a) : Finds P (Pure.pure a) := fun _ => ⟨h, rfl⟩

theorem eq {x : StateM FileTree α} (h : Finds P x) (t : FileTree) : x t = ((x t).1, t) :=
  Prod.ext rfl (h t).2

theorem bind {x : StateM FileTree α} {f : α → StateM FileTree β} (hx : Finds P x)
    (hf : ∀ a, P a → Finds Q (f a)) : Finds Q (x >>= f) := by
  intro t
  rw [bind_of_eq (hx.eq t)]
  exact hf (x t).1 (hx t).1 t

end Finds

theorem onlyLooks_directory : OnlyLooks Host.directory := fun _ => ⟨trivial, rfl⟩

theorem onlyLooks_pathExists (p : Path) : OnlyLooks (Host.pathExists p) := fun _ => ⟨trivial, rfl⟩

theorem onlyLooks_isFile (p : Path) : OnlyLooks (Host.isFile p) := fun _ => ⟨trivial, rfl⟩

theorem onlyLooks_read (p : Path) : OnlyLooks (Host.read p) := fun _ => ⟨trivial, rfl⟩

theorem onlyLooks_isTerminal (stream : Stream) : OnlyLooks (Host.isTerminal stream) :=
  fun _ => ⟨trivial, rfl⟩

theorem onlyLooks_now : OnlyLooks Host.now := fun _ => ⟨trivial, rfl⟩

theorem onlyLooks_finish {α : Type} (work : List (Text × (Unit → α))) (seconds : Option Float) :
    OnlyLooks (Host.finish work seconds) := fun _ => ⟨trivial, rfl⟩

end Drydock.FileTree
