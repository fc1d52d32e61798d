/-
  Where stages come from. A stage is opened by a step of the Dockerfile and consists of further
  steps of it (`isOf_of_mem_split`), there is no stage just if nothing opens one
  (`split_stages_eq_nil_iff`), and a stage builds on stages only (`mem_of_mem_lineage`).
-/
import Drydock.Dockerfile.Stage
import Drydock.Proofs.OrderedMap

namespace Drydock.Stage

/-- A stage is made of given steps: one opens it, at whose line its base stands. -/
structure IsOf (instructions : List Instruction) (s : Stage) : Prop where
  opening : s.opening ∈ instructions
  opcode : s.opening.opcode = .base
  line : s.base.line = s.opening.line
  rest : ∀ i ∈ s.instructions, i ∈ instructions

theorem divide_cons_base {i : Instruction} (h : i.opcode = .base) (rest : List Instruction) :
    divide (i :: rest) = ([], (i, (divide rest).1) :: (divide rest).2) := by
  simp [divide, h]

theorem divide_cons_of_ne {i : Instruction} (h : i.opcode ≠ .base) (rest : List Instruction) :
    divide (i :: rest) = (i :: (divide rest).1, (divide rest).2) := by
  simp [divide, h]

theorem opcode_of_mem_divide {instructions : List Instruction}
    {g : Instruction × List Instruction} (h : g ∈ (divide instructions).2) :
    g.1.opcode = .base := by
  induction instructions with
  | nil => exact absurd h List.not_mem_nil
  | cons i rest ih =>
    rw [divide] at h
    dsimp only at h
    split at h
    · rename_i hbase
      rcases List.mem_cons.mp h with rfl | h
      · exact hbase
      · exact ih h
    · exact ih h

/-- A change that keeps what opens a stage keeps the division. -/
theorem divide_map {f : Instruction → Instruction} (hf : ∀ i, (f i).opcode = i.opcode)
    (instructions : List Instruction) : divide (instructions.map f) =
      ((divide instructions).1.map f, (divide instructions).2.map (Prod.map f (List.map f))) := by
  induction instructions with
  | nil => rfl
  | cons i rest ih =>
    rw [List.map_cons, divide, divide, ih, hf]
    by_cases hbase : i.opcode = .base
    · simp [hbase]
    · simp [hbase]

theorem isOf_of_mem_split {instructions : List Instruction} {s : Stage}
    (h : s ∈ (split instructions).stages) : IsOf instructions s := by
  obtain ⟨⟨g, index⟩, hg, rfl⟩ := List.mem_map.mp h
  have hgroup : g ∈ (divide instructions).2 := List.fst_mem_of_mem_zipIdx hg
  have hmem : ∀ i ∈ g.1 :: g.2, i ∈ instructions := fun i hi => by
    rw [← divide_append instructions]
    exact List.mem_append_right _ (List.mem_flatMap.mpr ⟨g, hgroup, hi⟩)
  exact
    { opening := hmem _ List.mem_cons_self
      opcode := opcode_of_mem_divide hgroup
      line := rfl
      rest := fun i hi => hmem i (List.mem_cons_of_mem _ hi) }

theorem divide_eq_nil_iff {instructions : List Instruction} :
    (divide instructions).2 = [] ↔ ∀ i ∈ instructions, i.opcode ≠ .base := by
  induction instructions with
  | nil => simp [divide]
  | cons i rest ih => by_cases h : i.opcode = .base <;> simp [divide, h, ih]

theorem split_stages_eq_nil_iff {instructions : List Instruction} :
    (split instructions).stages = [] ↔ ∀ i ∈ instructions, i.opcode ≠ .base := by
  rw [← divide_eq_nil_iff]
  simp [split]

theorem base_of_mem_split {instructions : List Instruction} {s : Stage}
    (h : s ∈ (split instructions).stages) :
    s.base = ImageReference.ofInstruction s.opening (split instructions).globalArgs := by
  obtain ⟨⟨g, index⟩, -, rfl⟩ := List.mem_map.mp h
  rfl

/-- Stages are numbered in order. -/
def IsNumbered (stages : List Stage) : Prop :=
  ∀ (i : Nat) (h : i < stages.length), stages[i].index = i

theorem isNumbered_split (instructions : List Instruction) :
    IsNumbered (split instructions).stages := by
  intro i h
  simp [split]

theorem index_of_append {front rest : List Stage} {s : Stage}
    (h : IsNumbered (front ++ s :: rest)) :
    s.index = front.length := by
  have hs := h front.length (by simp)
  simpa using hs

/-! ## Lineage -/

theorem mem_of_mem_lineageFrom {table : OrderedMap Text Stage} {stages : List Stage}
    (htable : ∀ name s, table.get? name = some s → s ∈ stages) {current s : Stage}
    (hcurrent : current ∈ stages) (h : s ∈ lineageFrom table current) : s ∈ stages := by
  fun_induction lineageFrom table current with
  | case1 => exact List.mem_singleton.mp h ▸ hcurrent
  | case2 => exact List.mem_singleton.mp h ▸ hcurrent
  | case3 current _ parent hparent _ ih =>
    rcases List.mem_cons.mp h with rfl | h
    · exact hcurrent
    · exact ih (htable _ _ hparent) h
  | case4 => exact List.mem_singleton.mp h ▸ hcurrent

/-- Where stages are changed in some way, and bases lead to the changed stages just as they led to
the stages, lineages are changed stage by stage. -/
theorem lineageFrom_map {S : Stage → Prop} {f : Stage → Stage} {table table' : OrderedMap Text Stage}
    (htable : ∀ name s, table.get? name = some s → S s)
    (hindex : ∀ s, S s → (f s).index = s.index)
    (hpinned : ∀ s, S s → (f s).base.isPinned = s.base.isPinned)
    (hparent : ∀ s, S s → ¬s.base.isPinned = true →
      table'.get? (f s).base.name = (table.get? s.base.name).map f)
    {s : Stage} (hs : S s) : lineageFrom table' (f s) = (lineageFrom table s).map f := by
  fun_induction lineageFrom table s with
  | case1 s hpin =>
    rw [lineageFrom, hpinned s hs, if_pos hpin]
    rfl
  | case2 s hpin hnone =>
    rw [lineageFrom, hpinned s hs, if_neg hpin, hparent s hs hpin, hnone]
    rfl
  | case3 s hpin parent hfound hbefore ih =>
    have hS := htable _ _ hfound
    have hbefore' : (f parent).index < (f s).index := by rwa [hindex parent hS, hindex s hs]
    rw [lineageFrom, hpinned s hs, if_neg hpin, hparent s hs hpin, hfound]
    dsimp only [Option.map_some]
    rw [if_pos hbefore', ih hS]
    rfl
  | case4 s hpin parent hfound hlate =>
    have hlate' : ¬(f parent).index < (f s).index := by
      rwa [hindex parent (htable _ _ hfound), hindex s hs]
    rw [lineageFrom, hpinned s hs, if_neg hpin, hparent s hs hpin, hfound]
    dsimp only [Option.map_some]
    rw [if_neg hlate']
    rfl

/-- A lineage begins with the stage whose it is. -/
theorem exists_lineageFrom_eq (table : OrderedMap Text Stage) (s : Stage) :
    ∃ rest, lineageFrom table s = s :: rest := by
  fun_cases lineageFrom table s with
  | case3 parent => exact ⟨_, rfl⟩
  | _ => exact ⟨[], rfl⟩

theorem mem_of_get?_byName {stages : List Stage} {name : Text} {s : Stage}
    (h : (byName stages).get? name = some s) : s ∈ stages ∧ s.base.stageName = some name := by
  obtain ⟨named, hmem, hpair⟩ := List.mem_filterMap.mp (OrderedMap.mem_of_get?_ofList h)
  obtain ⟨key, hkey, hsame⟩ := Option.map_eq_some_iff.mp hpair
  obtain ⟨rfl, rfl⟩ := Prod.mk.inj hsame
  exact ⟨hmem, hkey⟩

/-- A stage builds on stages of the same Dockerfile. -/
theorem mem_of_mem_lineage {stages : List Stage} {s ancestor : Stage} (hs : s ∈ stages)
    (h : ancestor ∈ lineage stages s) : ancestor ∈ stages := by
  exact mem_of_mem_lineageFrom
    (fun _ _ hfound => List.mem_of_mem_take (mem_of_get?_byName hfound).1) hs h

end Drydock.Stage
