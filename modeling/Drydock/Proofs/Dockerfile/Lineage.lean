/-
  What stages build on. A base without tag and digest may be an earlier stage, the last one that
  was given the name (`definition?`). The lineage of a stage is looked up in the names as they are
  at this stage, also for the stages further back. So it is the lineage of its parent as far as
  no name on the way is given again in between (`lineage_step`).
-/
import Drydock.Dockerfile.Parser
import Drydock.Proofs.Dockerfile.Stage
import Mathlib.Data.List.Chain

namespace Drydock.Stage

/-! ## Fronts of related neighbours -/

/-- The longest front of a list in which neighbours are related. -/
structure IsLongestChain {α : Type} (R : α → α → Prop) (front l : List α) : Prop where
  isPrefix : front <+: l
  isChain : front.IsChain R
  longest : ∀ other, other <+: l → other.IsChain R → other <+: front

namespace IsLongestChain

variable {α : Type} {R : α → α → Prop} {a b : α} {front l : List α}

theorem singleton : IsLongestChain R [a] [a] :=
  ⟨List.prefix_rfl, List.isChain_singleton a, fun _ hother _ => hother⟩

theorem cons (h : IsLongestChain R front l) (hhead : ∀ b ∈ front.head?, R a b) :
    IsLongestChain R (a :: front) (a :: l) := by
  refine ⟨List.cons_prefix_cons.mpr ⟨rfl, h.isPrefix⟩, h.isChain.cons hhead, ?_⟩
  intro other hother hchain
  cases other with
  | nil => exact List.nil_prefix
  | cons first other =>
    obtain ⟨rfl, hothers⟩ := List.cons_prefix_cons.mp hother
    exact List.cons_prefix_cons.mpr ⟨rfl, h.longest other hothers hchain.tail⟩

/-- Where the first two are not related, the first is all. -/
theorem stop (h : ¬R a b) : IsLongestChain R [a] (a :: b :: l) := by
  refine ⟨List.cons_prefix_cons.mpr ⟨rfl, List.nil_prefix⟩, List.isChain_singleton a, ?_⟩
  intro other hother hchain
  match other with
  | [] => exact List.nil_prefix
  | [first] => exact (List.cons_prefix_cons.mp hother).1 ▸ List.prefix_rfl
  | first :: second :: other =>
    obtain ⟨rfl, hothers⟩ := List.cons_prefix_cons.mp hother
    obtain ⟨rfl, -⟩ := List.cons_prefix_cons.mp hothers
    exact absurd (List.isChain_cons_cons.mp hchain).1 h

theorem eq_iff (h : IsLongestChain R front l) : front = l ↔ l.IsChain R := by
  constructor
  · rintro rfl
    exact h.isChain
  · intro hchain
    exact h.isPrefix.eq_of_length_le (h.longest l List.prefix_rfl hchain).length_le

end IsLongestChain

/-! ## Names and numbers -/

/-- The last stage before a place that has a name. -/
def definition? (stages : List Stage) (place : Nat) (name : Text) : Option Stage :=
  ((stages.take place).filter fun s => s.base.stageName = some name).getLast?

theorem filter_named (stages : List Stage) (name : Text) :
    (stages.filterMap fun s => s.base.stageName.map (·, s)).filter (fun e => e.1 = name) =
      (stages.filter fun s => s.base.stageName = some name).map (name, ·) := by
  induction stages with
  | nil => rfl
  | cons s stages ih =>
    cases hname : s.base.stageName with
    | none => simp [hname, ih]
    | some other => by_cases hother : other = name <;> simp [hname, hother, ih]

/-- A table of names leads to the last stage of each name. -/
theorem get?_byName (stages : List Stage) (place : Nat) (name : Text) :
    (byName (stages.take place)).get? name = definition? stages place name := by
  rw [byName, OrderedMap.get?_ofList, definition?, filter_named, List.getLast?_map, Option.map_map]
  exact congrFun Option.map_id _

/-- The names that stages are given. -/
def names (stages : List Stage) : List Text := stages.flatMap fun s => s.base.stageName.toList

theorem mem_names_iff {stages : List Stage} {name : Text} :
    name ∈ names stages ↔ ∃ s ∈ stages, s.base.stageName = some name := by
  simp [names, List.mem_flatMap, Option.mem_toList]

theorem definition?_eq_none_iff {stages : List Stage} {place : Nat} {name : Text} :
    definition? stages place name = none ↔ name ∉ names (stages.take place) := by
  rw [definition?, List.getLast?_eq_none_iff, List.filter_eq_nil_iff, mem_names_iff]
  simp

/-- Where stages are changed but keep their names, names mean the changed stages. -/
theorem definition?_map {stages : List Stage} {f : Stage → Stage}
    (hf : ∀ s ∈ stages, (f s).base.stageName = s.base.stageName) (place : Nat) (name : Text) :
    definition? (stages.map f) place name = (definition? stages place name).map f := by
  have hfilter : (stages.take place).filter
      ((fun s => decide (s.base.stageName = some name)) ∘ f) =
      (stages.take place).filter fun s => s.base.stageName = some name :=
    List.filter_congr fun s hs => by
      rw [Function.comp_apply, hf s (List.mem_of_mem_take hs)]
  unfold definition?
  rw [← List.map_take, List.filter_map, List.getLast?_map, hfilter]

section Numbered

variable {stages : List Stage} {i j : Nat} {name : Text} {s p : Stage}

theorem index_lt_of_mem_take (h : IsNumbered stages) (hs : s ∈ stages.take i) : s.index < i := by
  obtain ⟨k, hk, rfl⟩ := List.getElem_of_mem hs
  rw [List.getElem_take, h]
  exact (List.length_take ▸ hk).trans_le (Nat.min_le_left _ _)

theorem le_index_of_mem_drop (h : IsNumbered stages) (hs : s ∈ (stages.take i).drop j) :
    j ≤ s.index := by
  obtain ⟨k, hk, rfl⟩ := List.getElem_of_mem hs
  rw [List.getElem_drop, List.getElem_take, h]
  exact Nat.le_add_right j k

theorem mem_of_definition? (h : definition? stages i name = some p) :
    p ∈ stages.take i ∧ p.base.stageName = some name := by
  have hmem := List.mem_filter.mp (List.mem_of_getLast? h)
  exact ⟨hmem.1, of_decide_eq_true hmem.2⟩

/-- Further on a name means what it meant, or a stage in between. -/
theorem definition?_cases (h : IsNumbered stages) (hji : j ≤ i) (name : Text) :
    definition? stages i name = definition? stages j name ∨
      ∃ p, definition? stages i name = some p ∧ j ≤ p.index := by
  have hsplit : stages.take i = stages.take j ++ (stages.take i).drop j := by
    conv_lhs => rw [← List.take_append_drop j (stages.take i), List.take_take, Nat.min_eq_left hji]
  unfold definition?
  rw [hsplit, List.filter_append, List.getLast?_append]
  cases hlater :
      (((stages.take i).drop j).filter fun s => s.base.stageName = some name).getLast? with
  | none => exact Or.inl rfl
  | some p =>
    refine Or.inr ⟨p, rfl, ?_⟩
    exact le_index_of_mem_drop h (List.mem_filter.mp (List.mem_of_getLast? hlater)).1

/-! ## Walks -/

/-- The stages that are come to from a stage by the names as they are before a place. -/
def walk (stages : List Stage) (place : Nat) (s : Stage) : List Stage :=
  lineageFrom (byName (stages.take place)) s

theorem walk_of_pinned (h : s.base.isPinned = true) : walk stages i s = [s] := by
  rw [walk, lineageFrom, if_pos h]

/-- A walk ends where a name is not there or not before the stage that builds on it. -/
theorem walk_of_not_before
    (h : ∀ p, definition? stages i s.base.name = some p → s.index ≤ p.index) :
    walk stages i s = [s] := by
  rw [walk, lineageFrom, get?_byName]
  cases hname : definition? stages i s.base.name with
  | none => exact ite_self _
  | some p =>
    dsimp only
    rw [if_neg (Nat.not_lt.mpr (h p hname)), ite_self]

theorem walk_of_definition? (hopen : s.base.isPinned = false)
    (h : definition? stages i s.base.name = some p) (hp : p.index < s.index) :
    walk stages i s = s :: walk stages i p := by
  rw [walk, lineageFrom, get?_byName, h]
  simp [hopen, hp, walk]

/-- A walk goes on with an earlier stage or ends. -/
theorem walk_cases (stages : List Stage) (place : Nat) (s : Stage) :
    (∃ p, s.base.isPinned = false ∧ definition? stages place s.base.name = some p ∧
      p.index < s.index) ∨
    s.base.isPinned = true ∨
      ∀ p, definition? stages place s.base.name = some p → s.index ≤ p.index := by
  by_cases hpinned : s.base.isPinned = true
  · exact Or.inr (Or.inl hpinned)
  · by_cases hstep : ∃ p, definition? stages place s.base.name = some p ∧ p.index < s.index
    · obtain ⟨p, hp, hbefore⟩ := hstep
      exact Or.inl ⟨p, Bool.eq_false_iff.mpr hpinned, hp, hbefore⟩
    · exact Or.inr (Or.inr fun p hp => Nat.not_lt.mp fun hbefore => hstep ⟨p, hp, hbefore⟩)

theorem exists_walk_eq (stages : List Stage) (place : Nat) (s : Stage) :
    ∃ rest, walk stages place s = s :: rest :=
  exists_lineageFrom_eq (byName (stages.take place)) s

/-- A stage builds on another by the names before a place. -/
def BuildsOn (stages : List Stage) (place : Nat) (s p : Stage) : Prop :=
  definition? stages place s.base.name = some p

/-- With more names a walk goes the same way as long as they mean the same. -/
theorem isLongestChain_walk (h : IsNumbered stages) (hji : j ≤ i) (hsj : s.index ≤ j) :
    IsLongestChain (BuildsOn stages i) (walk stages i s) (walk stages j s) := by
  induction hn : s.index using Nat.strong_induction_on generalizing s with
  | _ n ih =>
    subst hn
    -- A name that is given in between leads to no stage before the one that the walk is at.
    have hlater : ∀ q, definition? stages i s.base.name = some q → j ≤ q.index →
        walk stages i s = [s] := by
      intro q hq hjq
      refine walk_of_not_before fun p hp => ?_
      exact Option.some_inj.mp (hq.symm.trans hp) ▸ hsj.trans hjq
    rcases walk_cases stages j s with ⟨p, hopen, hp, hbefore⟩ | hpinned | hlate
    · rw [walk_of_definition? hopen hp hbefore]
      rcases definition?_cases h hji s.base.name with hsame | ⟨q, hq, hjq⟩
      · rw [hp] at hsame
        rw [walk_of_definition? hopen hsame hbefore]
        refine (ih p.index hbefore (hbefore.le.trans hsj) rfl).cons fun q hq => ?_
        obtain ⟨rest, hrest⟩ := exists_walk_eq stages i p
        rw [hrest, List.head?_cons, Option.mem_some_iff] at hq
        exact hq ▸ hsame
      · obtain ⟨rest, hrest⟩ := exists_walk_eq stages j p
        rw [hlater q hq hjq, hrest]
        refine IsLongestChain.stop fun hlink => ?_
        have hpq : q = p := Option.some_inj.mp (hq.symm.trans hlink)
        rw [hpq] at hjq
        omega
    · rw [walk_of_pinned hpinned, walk_of_pinned hpinned]
      exact IsLongestChain.singleton
    · have hends : walk stages i s = [s] := by
        rcases definition?_cases h hji s.base.name with hsame | ⟨q, hq, hjq⟩
        · exact walk_of_not_before fun p hp => hlate p (hsame ▸ hp)
        · exact hlater q hq hjq
      rw [walk_of_not_before hlate, hends]
      exact IsLongestChain.singleton

theorem eq_of_named_of_nodup {l : List Stage}
    (hnames : (l.filterMap fun s => s.base.stageName).Nodup) (hs : s ∈ l) (hp : p ∈ l)
    (hsname : s.base.stageName = some name) (hpname : p.base.stageName = some name) : s = p := by
  by_contra hne
  have hdiffer : l.Pairwise fun s p => ∀ n, s.base.stageName = some n →
      p.base.stageName ≠ some n :=
    (List.pairwise_filterMap.mp hnames).imp fun h n hn hn' => h n hn n hn' rfl
  have : Std.Symm fun s p : Stage => ∀ n, s.base.stageName = some n → p.base.stageName ≠ some n :=
    ⟨fun _ _ h n hn hn' => h n hn' hn⟩
  exact hdiffer.forall hs hp hne name hsname hpname

/-- If no name is given twice before a place, then names mean there what they meant before. -/
theorem isChain_walk_of_nodup (h : IsNumbered stages) (hji : j ≤ i) (hsj : s.index ≤ j)
    (hnames : ((stages.take i).filterMap fun s => s.base.stageName).Nodup) :
    (walk stages j s).IsChain (BuildsOn stages i) := by
  refine (isLongestChain_walk h le_rfl hsj).isChain.imp fun c p hp => ?_
  rcases definition?_cases h hji c.base.name with hsame | ⟨q, hq, -⟩
  · exact hsame.trans hp
  · obtain ⟨hpmem, hpname⟩ := mem_of_definition? hp
    obtain ⟨hqmem, hqname⟩ := mem_of_definition? hq
    have hpmem' : p ∈ stages.take i := (List.take_subset_take_left stages hji) hpmem
    rw [eq_of_named_of_nodup hnames hpmem' hqmem hpname hqname]
    exact hq

end Numbered

/-! ## Lineages -/

/--
A stage with a pinned base, and one whose base no stage before it is named, builds on nothing else.
Another builds on the last stage before it that bears the name, and on what that builds on as far as
the names on the way are not given again before the stage. So its lineage goes on with the whole
lineage of its parent just if none is, and in particular if no name is given twice before it.
-/
theorem lineage_step (instructions : List Instruction) (s : Stage) :
    let stages := (split instructions).stages
    ((s.base.isPinned = true ∨ definition? stages s.index s.base.name = none) →
      lineage stages s = [s]) ∧
    ∀ p, s.base.isPinned = false → definition? stages s.index s.base.name = some p →
      p ∈ stages ∧ p.index < s.index ∧
      (∃ rest, lineage stages s = s :: rest ∧ rest.head? = some p ∧
        IsLongestChain (BuildsOn stages s.index) rest (lineage stages p)) ∧
      (lineage stages s = s :: lineage stages p ↔
        (lineage stages p).IsChain (BuildsOn stages s.index)) ∧
      (((stages.take s.index).filterMap fun s => s.base.stageName).Nodup →
        lineage stages s = s :: lineage stages p) := by
  have hnumbered := isNumbered_split instructions
  refine ⟨?_, fun p hopen hp => ?_⟩
  · rintro (hpinned | hnone)
    · exact walk_of_pinned hpinned
    · exact walk_of_not_before fun p hp => absurd (hnone.symm.trans hp) (by simp)
  · have hmem := (mem_of_definition? hp).1
    have hbefore : p.index < s.index := index_lt_of_mem_take hnumbered hmem
    have hlineage := walk_of_definition? hopen hp hbefore
    have hlongest := isLongestChain_walk hnumbered hbefore.le (le_refl p.index)
    have hwhole : lineage (split instructions).stages s =
        s :: lineage (split instructions).stages p ↔
        (lineage (split instructions).stages p).IsChain
          (BuildsOn (split instructions).stages s.index) := by
      refine Iff.trans ⟨fun h => ?_, fun h => ?_⟩ hlongest.eq_iff
      · exact (List.cons.inj (hlineage.symm.trans h)).2
      · exact hlineage.trans (congrArg (s :: ·) h)
    obtain ⟨rest, hrest⟩ := exists_walk_eq (split instructions).stages s.index p
    refine ⟨List.mem_of_mem_take hmem, hbefore, ⟨_, hlineage, ?_, hlongest⟩, hwhole, ?_⟩
    · rw [hrest, List.head?_cons]
    · exact fun hnames =>
        hwhole.mpr (isChain_walk_of_nodup hnumbered hbefore.le (le_refl p.index) hnames)

/-- A step that opens a stage, on a line of its own. -/
def openingAt (line : Nat) (arguments : List Text) : Instruction :=
  { opcode := .base, arguments, line, endLine := line, raw := Text.joinWith " " arguments }

/-- The third stage builds on the second one, and that on the first. -/
theorem lineage_step_of_three_stages :
    ∃ (d : Dockerfile) (s p : Stage),
      Dockerfile.parse "FROM x AS a\nFROM a AS b\nFROM b\n" = .ok d ∧
      (split d.instructions).stages[2]? = some s ∧ (split d.instructions).stages[1]? = some p ∧
      s.base.isPinned = false ∧
      definition? (split d.instructions).stages s.index s.base.name = some p ∧
      lineage (split d.instructions).stages s = s :: lineage (split d.instructions).stages p := by
  let d : Dockerfile :=
    { instructions :=
        [openingAt 1 ["x", "AS", "a"], openingAt 2 ["a", "AS", "b"], openingAt 3 ["b"]]
      warnings := []
      escape := .backslash }
  obtain ⟨s, p, hs, hp, hopen, hname, hnames⟩ : ∃ s p,
      (split d.instructions).stages[2]? = some s ∧ (split d.instructions).stages[1]? = some p ∧
      s.base.isPinned = false ∧
      definition? (split d.instructions).stages s.index s.base.name = some p ∧
      (((split d.instructions).stages.take s.index).filterMap
        fun s => s.base.stageName).Nodup := by
    refine ⟨_, _, rfl, rfl, ?_, ?_, ?_⟩ <;> decide +kernel
  exact ⟨d, s, p, by decide +kernel, hs, hp, hopen, hname,
    ((lineage_step d.instructions s).2 p hopen hname).2.2.2.2 hnames⟩

/-- The parent of the last stage builds on the first one, but its base is named again before the
last stage. So the lineage of the last stage ends at its parent. -/
theorem lineage_short_of_name_given_again :
    ∃ (d : Dockerfile) (s p x : Stage),
      Dockerfile.parse "FROM x AS a\nFROM a AS b\nFROM y AS a\nFROM b\n" = .ok d ∧
      (split d.instructions).stages[3]? = some s ∧ (split d.instructions).stages[1]? = some p ∧
      s.base.isPinned = false ∧
      definition? (split d.instructions).stages s.index s.base.name = some p ∧
      lineage (split d.instructions).stages p = [p, x] ∧
      lineage (split d.instructions).stages s = [s, p] ∧
      lineage (split d.instructions).stages s ≠ s :: lineage (split d.instructions).stages p := by
  let d : Dockerfile :=
    { instructions :=
        [openingAt 1 ["x", "AS", "a"], openingAt 2 ["a", "AS", "b"],
          openingAt 3 ["y", "AS", "a"], openingAt 4 ["b"]]
      warnings := []
      escape := .backslash }
  let stages := (split d.instructions).stages
  obtain ⟨x, p, y, s, -, hp, -, hs, hsopen, hpopen, hbuilds, hxp, hps, hpx, hend, hagain, hyp⟩ :
      ∃ x p y s, stages[0]? = some x ∧ stages[1]? = some p ∧ stages[2]? = some y ∧
      stages[3]? = some s ∧ s.base.isPinned = false ∧ p.base.isPinned = false ∧
      definition? stages s.index s.base.name = some p ∧ x.index < p.index ∧ p.index < s.index ∧
      definition? stages p.index p.base.name = some x ∧
      definition? stages p.index x.base.name = none ∧
      definition? stages s.index p.base.name = some y ∧ p.index ≤ y.index := by
    refine ⟨_, _, _, _, rfl, rfl, rfl, rfl, ?_, ?_, ?_, ?_, ?_, ?_, ?_, ?_, ?_⟩ <;> decide +kernel
  have hparent : lineage stages p = [p, x] := by
    refine (walk_of_definition? hpopen hpx hxp).trans ?_
    rw [walk_of_not_before fun q hq => absurd (hend.symm.trans hq) (by simp)]
  have hshort : lineage stages s = [s, p] := by
    refine (walk_of_definition? hsopen hbuilds hps).trans ?_
    rw [walk_of_not_before fun q hq => Option.some_inj.mp (hagain.symm.trans hq) ▸ hyp]
  exact ⟨d, s, p, x, by decide +kernel, hs, hp, hsopen, hbuilds, hparent, hshort,
    by rw [hshort, hparent]; simp⟩

end Drydock.Stage
