/-
  The run of the rule about left files. One step takes away files that are left so far and may leave
  others (`turn`): what it finds and what is left behind it is said once for all
  (`of_mem_found`, `of_mem_left_turn`). The run over two parts of a Dockerfile is the run over the
  first one, and over the second one from what the first one leaves (`after_append`).
-/
import Drydock.Proofs.OrderedMap
import Drydock.Rule.Artifacts

namespace Drydock

theorem Artifact.same_self (file : Text) : Artifact.same file file = true := by simp [same]

namespace Rule.Removal

variable {created : Created} {i : Instruction} {r : Removal} {file path : Text} {line : Nat}
  {paths : List Text}

/-- The file of a removal, and the line of the step that made it. -/
def origin (r : Removal) : Text × Nat := (r.file, r.createdAt)

/-! ## Taking files away -/

theorem mem_of_take? {e : Text × Nat} (h : take? created path = some e) :
    e ∈ created.entries ∧ Artifact.same e.1 path = true :=
  ⟨List.mem_of_find?_eq_some h, by simpa using List.find?_some h⟩

/-- The files that are taken away and those that are left are all that were there. -/
theorem perm_sweep (line : Nat) (created : Created) (paths : List Text) :
    ((sweep line created paths).1.map origin ++ (sweep line created paths).2.entries).Perm
      created.entries := by
  induction paths generalizing created with
  | nil => exact .refl _
  | cons path rest ih =>
    rw [sweep]
    cases htake : take? created path with
    | none => exact ih created
    | some e =>
      have hfirst := OrderedMap.perm_erase (mem_of_take? htake).1
      exact ((ih (created.erase e.1)).cons e).trans hfirst

theorem of_mem_sweep (h : r ∈ (sweep line created paths).1) :
    r.line = line ∧ ∃ path ∈ paths, Artifact.same r.file path = true := by
  induction paths generalizing created with
  | nil => exact absurd h List.not_mem_nil
  | cons path rest ih =>
    have hlater {created : Created} (h : r ∈ (sweep line created rest).1) :
        r.line = line ∧ ∃ other ∈ path :: rest, Artifact.same r.file other = true := by
      obtain ⟨hline, other, hother, hsame⟩ := ih h
      exact ⟨hline, other, List.mem_cons_of_mem _ hother, hsame⟩
    rw [sweep] at h
    cases htake : take? created path with
    | none =>
      rw [htake] at h
      exact hlater h
    | some e =>
      rw [htake] at h
      rcases List.mem_cons.mp h with rfl | h
      · exact ⟨rfl, path, List.mem_cons_self, (mem_of_take? htake).2⟩
      · exact hlater h

/-- A file that is there, and that some path may mean, is taken away, or else another file is that
the path may mean. -/
theorem exists_mem_sweep (hfile : file ∈ created.keys) (hpath : path ∈ paths)
    (hsame : Artifact.same file path = true) :
    ∃ r ∈ (sweep line created paths).1, r.file = file ∨ Artifact.same r.file path = true := by
  induction paths generalizing created with
  | nil => exact absurd hpath List.not_mem_nil
  | cons first rest ih =>
    rw [sweep]
    cases htake : take? created first with
    | none =>
      rcases List.mem_cons.mp hpath with rfl | hpath
      · obtain ⟨e, he, rfl⟩ := List.mem_map.mp hfile
        exact absurd hsame (by simpa using List.find?_eq_none.mp htake e he)
      · exact ih hfile hpath
    | some e =>
      dsimp only
      by_cases hfirst : path = first
      · subst hfirst
        exact ⟨_, List.mem_cons_self, Or.inr (mem_of_take? htake).2⟩
      · by_cases htaken : e.1 = file
        · exact ⟨_, List.mem_cons_self, Or.inl htaken⟩
        · have hkept : file ∈ (created.erase e.1).keys := by
            obtain ⟨entry, hentry, rfl⟩ := List.mem_map.mp hfile
            exact List.mem_map_of_mem (List.mem_filter.mpr ⟨hentry, by simpa using Ne.symm htaken⟩)
          obtain ⟨r, hr, hmeant⟩ := ih hkept ((List.mem_cons.mp hpath).resolve_left hfirst)
          exact ⟨r, List.mem_cons_of_mem _ hr, hmeant⟩

/-! ## Leaving files -/

/-- A step leaves a file: it makes the file, and none of the paths that it removes may mean it. -/
structure Leaves (i : Instruction) (file : Text) : Prop where
  made : file ∈ i.createdFiles
  kept : ∀ path ∈ i.removedFiles, Artifact.same file path = false

/-- What is there stays, and what is not there comes with the line if it is made and not removed. -/
theorem mem_record_iff (line : Nat) (removed : List Text) (created : Created) (files : List Text)
    {n : Nat} : (file, n) ∈ (record line removed created files).entries ↔
      (file, n) ∈ created.entries ∨ (file ∉ created.keys ∧ n = line ∧ file ∈ files ∧
        ∀ path ∈ removed, Artifact.same file path = false) := by
  induction files generalizing created with
  | nil => simp [record]
  | cons first rest ih =>
    have hstep : record line removed created (first :: rest) = record line removed
        (if removed.any (Artifact.same first) || created.contains first then created
          else created.insert first line) rest := rfl
    rw [hstep, ih]
    by_cases hskip : (removed.any (Artifact.same first) || created.contains first) = true
    · rw [if_pos hskip]
      have hfirst : first ∈ created.keys ∨ ∃ path ∈ removed, Artifact.same first path = true := by
        rw [Bool.or_eq_true, List.any_eq_true, OrderedMap.contains_iff] at hskip
        exact hskip.symm
      refine or_congr_right ⟨fun ⟨hnew, hn, hrest, hkept⟩ => ?_, fun ⟨hnew, hn, hfile, hkept⟩ => ?_⟩
      · exact ⟨hnew, hn, List.mem_cons_of_mem _ hrest, hkept⟩
      · refine ⟨hnew, hn, (List.mem_cons.mp hfile).resolve_left ?_, hkept⟩
        rintro rfl
        rcases hfirst with hold | ⟨path, hpath, hsame⟩
        · exact hnew hold
        · exact absurd hsame (by simp [hkept path hpath])
    · rw [if_neg hskip]
      have hnew : first ∉ created.keys ∧ ∀ path ∈ removed, Artifact.same first path = false := by
        rw [Bool.or_eq_true, List.any_eq_true, OrderedMap.contains_iff, not_or] at hskip
        exact ⟨hskip.2, fun path hpath => Bool.eq_false_iff.mpr fun h => hskip.1 ⟨path, hpath, h⟩⟩
      rw [OrderedMap.entries_insert_of_not_mem hnew.1, OrderedMap.keys_insert, if_neg hnew.1]
      by_cases hfile : file = first
      · subst hfile
        simp [hnew.1, and_iff_left hnew.2]
      · simp [hfile]

/-! ## One step -/

/-- What a step finds, and the files that are left behind it: a base leaves none. -/
def turn (created : Created) (i : Instruction) : List Removal × Created :=
  if i.opcode = .base then ([], .empty)
  else if i.opcode = .run then
    ((sweep i.line created i.removedFiles).1,
      record i.line i.removedFiles (sweep i.line created i.removedFiles).2 i.createdFiles)
  else ([], created)

theorem turn_of_base (h : i.opcode = .base) (created : Created) :
    turn created i = ([], .empty) :=
  if_pos h

theorem turn_of_run (h : i.opcode = .run) (created : Created) :
    turn created i = ((sweep i.line created i.removedFiles).1,
      record i.line i.removedFiles (sweep i.line created i.removedFiles).2 i.createdFiles) := by
  rw [turn, if_neg (by simp [h]), if_pos h]

theorem turn_of_other (hbase : i.opcode ≠ .base) (hrun : i.opcode ≠ .run) (created : Created) :
    turn created i = ([], created) := by
  rw [turn, if_neg hbase, if_neg hrun]

theorem found_eq_nil (h : i.opcode ≠ .run) (created : Created) : (turn created i).1 = [] := by
  by_cases hbase : i.opcode = .base
  · rw [turn_of_base hbase]
  · rw [turn_of_other hbase h]

/-- What a step finds: a command removes what may be a file that is left so far. -/
theorem of_mem_found (h : r ∈ (turn created i).1) :
    i.opcode = .run ∧ r.line = i.line ∧ r.origin ∈ created.entries ∧
      ∃ path ∈ i.removedFiles, Artifact.same r.file path = true := by
  by_cases hrun : i.opcode = .run
  · rw [turn_of_run hrun] at h
    obtain ⟨hline, hpath⟩ := of_mem_sweep h
    have hthere : r.origin ∈ created.entries :=
      (perm_sweep i.line created i.removedFiles).subset
        (List.mem_append_left _ (List.mem_map_of_mem h))
    exact ⟨hrun, hline, hthere, hpath⟩
  · rw [found_eq_nil hrun] at h
    exact absurd h List.not_mem_nil

/-- What is left behind a step: it was left before and is not found, and no stage is opened, or the
step is a command that leaves it. -/
theorem of_mem_left_turn {e : Text × Nat} (h : e ∈ (turn created i).2.entries) :
    (e ∈ created.entries ∧ e ∉ (turn created i).1.map origin ∧ i.opcode ≠ .base) ∨
      (i.opcode = .run ∧ e.2 = i.line ∧ Leaves i e.1) := by
  by_cases hbase : i.opcode = .base
  · rw [turn_of_base hbase] at h
    exact absurd h List.not_mem_nil
  · by_cases hrun : i.opcode = .run
    · rw [turn_of_run hrun] at h ⊢
      rcases (mem_record_iff ..).mp h with hleft | ⟨-, hline, hmade, hkept⟩
      · have hperm := perm_sweep i.line created i.removedFiles
        have hdistinct := hperm.nodup_iff.mpr (created.distinct.of_map _)
        refine Or.inl ⟨hperm.subset (List.mem_append_right _ hleft), fun hfound => ?_, hbase⟩
        exact (List.nodup_append.mp hdistinct).2.2 e hfound e hleft rfl
      · exact Or.inr ⟨hrun, hline, hmade, hkept⟩
    · rw [turn_of_other hbase hrun] at h ⊢
      exact Or.inl ⟨h, List.not_mem_nil, hbase⟩

/-- A step finds no file twice. -/
theorem nodup_found (created : Created) (i : Instruction) :
    ((turn created i).1.map origin).Nodup := by
  by_cases hrun : i.opcode = .run
  · rw [turn_of_run hrun]
    have hperm := perm_sweep i.line created i.removedFiles
    exact (List.nodup_append.mp (hperm.nodup_iff.mpr (created.distinct.of_map _))).1
  · rw [found_eq_nil hrun]
    exact List.nodup_nil

/-- A file that a command leaves is left behind it. -/
theorem mem_left_of_leaves (hrun : i.opcode = .run) (h : Leaves i file) (created : Created) :
    file ∈ (turn created i).2.keys := by
  rw [turn_of_run hrun]
  by_cases hthere : file ∈ (sweep i.line created i.removedFiles).2.keys
  · obtain ⟨e, he, rfl⟩ := List.mem_map.mp hthere
    exact List.mem_map_of_mem ((mem_record_iff ..).mpr (Or.inl he))
  · exact List.mem_map_of_mem
      ((mem_record_iff ..).mpr (Or.inr ⟨hthere, rfl, h.made, h.kept⟩))

/-- If a command removes a file that is left so far, it is found, or another file that may be it. -/
theorem exists_mem_found (hrun : i.opcode = .run) (hleft : file ∈ created.keys)
    (hremoved : file ∈ i.removedFiles) :
    ∃ r ∈ (turn created i).1, r.line = i.line ∧ Artifact.same r.file file = true := by
  obtain ⟨r, hr, hmeant⟩ : ∃ r ∈ (sweep i.line created i.removedFiles).1,
      r.file = file ∨ Artifact.same r.file file = true :=
    exists_mem_sweep hleft hremoved (Artifact.same_self file)
  rw [turn_of_run hrun]
  refine ⟨r, hr, (of_mem_sweep hr).1, ?_⟩
  rcases hmeant with rfl | hsame
  · exact Artifact.same_self r.file
  · exact hsame

/-! ## The run -/

theorem after_cons (created : Created) (i : Instruction) (rest : List Instruction) :
    after created (i :: rest) = (turn created i).1 ++ after (turn created i).2 rest := by
  rw [after, turn]
  split
  · rfl
  · split <;> rfl

/-- The files that are left behind some steps. -/
def left (created : Created) (steps : List Instruction) : Created :=
  steps.foldl (fun created i => (turn created i).2) created

theorem left_concat (created : Created) (steps : List Instruction) (i : Instruction) :
    left created (steps ++ [i]) = (turn (left created steps) i).2 :=
  List.foldl_append

/-- The run over two parts is the run over the first, and that over the second from what is left. -/
theorem after_append (created : Created) (front behind : List Instruction) :
    after created (front ++ behind) =
      after created front ++ after (left created front) behind := by
  induction front generalizing created with
  | nil => rfl
  | cons i front ih =>
    rw [List.cons_append, after_cons, after_cons, ih, List.append_assoc]
    rfl

/-- A removal is one that is found at some step, from what is left behind the steps before it. -/
theorem mem_after_iff {steps : List Instruction} : r ∈ after created steps ↔
    ∃ front i behind, steps = front ++ i :: behind ∧ r ∈ (turn (left created front) i).1 := by
  constructor
  · intro h
    induction steps generalizing created with
    | nil => exact absurd h List.not_mem_nil
    | cons i rest ih =>
      rw [after_cons] at h
      rcases List.mem_append.mp h with h | h
      · exact ⟨[], i, rest, rfl, h⟩
      · obtain ⟨front, j, behind, rfl, hfound⟩ := ih h
        exact ⟨i :: front, j, behind, rfl, hfound⟩
  · rintro ⟨front, i, behind, rfl, hfound⟩
    rw [after_append, after_cons]
    exact List.mem_append_right _ (List.mem_append_left _ hfound)

/-- Steps that are neither bases nor commands leave what is there. -/
theorem left_of_idle {steps : List Instruction}
    (h : ∀ i ∈ steps, i.opcode ≠ .base ∧ i.opcode ≠ .run) (created : Created) :
    left created steps = created := by
  induction steps generalizing created with
  | nil => rfl
  | cons i rest ih =>
    obtain ⟨hi, hrest⟩ := List.forall_mem_cons.mp h
    have hstep : left created (i :: rest) = left (turn created i).2 rest := rfl
    rw [hstep, turn_of_other hi.1 hi.2, ih hrest]

end Rule.Removal

end Drydock
