/-
  Which file a removal names. The files that are left stand in the order in which they were first
  made (`Tracks`), and a path that is removed is taken for the first of them that it may mean. So a
  removal names the file that is removed, and the first command that made it, unless another file
  that may be it was made ahead of it (`removed_file_named`): then it names the other one, although
  the file itself is there.
-/
import Drydock.Proofs.Rule.Artifacts
import Drydock.Proofs.Rule.Scope

namespace Drydock

/-! ## What stands ahead -/

section Ahead

variable {α : Type} [DecidableEq α] {a b : α} {l l' : List α}

/-- The members of a list in front of the first place of a member. -/
def ahead (l : List α) (a : α) : List α := l.takeWhile (· ≠ a)

theorem ahead_cons_self (a : α) (l : List α) : ahead (a :: l) a = [] := by simp [ahead]

theorem ahead_cons_of_ne (h : b ≠ a) (l : List α) : ahead (b :: l) a = b :: ahead l a := by
  simp [ahead, h]

theorem ahead_subset (l : List α) (a : α) : ahead l a ⊆ l :=
  (List.takeWhile_prefix _).subset

theorem ahead_append_of_not_mem (h : a ∉ l) (l' : List α) :
    ahead (l ++ l') a = l ++ ahead l' a :=
  List.takeWhile_append_of_pos fun b hb => by
    rw [decide_eq_true_iff]
    rintro rfl
    exact h hb

theorem ahead_append_of_mem (h : a ∈ l) (l' : List α) : ahead (l ++ l') a = ahead l a := by
  induction l with
  | nil => exact absurd h List.not_mem_nil
  | cons b l ih =>
    rw [List.cons_append]
    by_cases hb : b = a
    · rw [hb, ahead_cons_self, ahead_cons_self]
    · rw [ahead_cons_of_ne hb, ahead_cons_of_ne hb,
        ih ((List.mem_cons.mp h).resolve_left (Ne.symm hb))]

theorem ahead_subset_append (l l' : List α) (a : α) : ahead l a ⊆ ahead (l ++ l') a := by
  by_cases h : a ∈ l
  · rw [ahead_append_of_mem h]
    exact fun b hb => hb
  · rw [ahead_append_of_not_mem h]
    exact fun b hb => List.mem_append_left _ (ahead_subset l a hb)

/-- Where no member comes twice, leaving out others brings nothing ahead of a member. -/
theorem ahead_subset_of_sublist (hnodup : l.Nodup) (h : l'.Sublist l) (ha : a ∈ l') :
    ahead l' a ⊆ ahead l a := by
  induction h with
  | slnil => exact absurd ha List.not_mem_nil
  | @cons l' l b h ih =>
    obtain ⟨hb, hrest⟩ := List.nodup_cons.mp hnodup
    have hne : b ≠ a := fun heq => hb (heq ▸ h.subset ha)
    rw [ahead_cons_of_ne hne]
    exact fun c hc => List.mem_cons_of_mem _ (ih hrest ha hc)
  | @cons_cons l' l b h ih =>
    by_cases hne : b = a
    · rw [hne, ahead_cons_self, ahead_cons_self]
      exact fun c hc => hc
    · rw [ahead_cons_of_ne hne, ahead_cons_of_ne hne]
      have hrest := ih (List.nodup_cons.mp hnodup).2
        ((List.mem_cons.mp ha).resolve_left (Ne.symm hne))
      exact List.cons_subset_cons b hrest

/-- Of two members, one stands ahead of the other. -/
theorem mem_ahead_or (ha : a ∈ l) (hne : a ≠ b) : a ∈ ahead l b ∨ b ∈ ahead l a := by
  induction l with
  | nil => exact absurd ha List.not_mem_nil
  | cons c l ih =>
    by_cases hca : c = a
    · rw [hca, ahead_cons_of_ne hne]
      exact Or.inl List.mem_cons_self
    · by_cases hcb : c = b
      · rw [hcb, ahead_cons_of_ne (Ne.symm hne)]
        exact Or.inr List.mem_cons_self
      · rw [ahead_cons_of_ne hca, ahead_cons_of_ne hcb]
        exact (ih ((List.mem_cons.mp ha).resolve_left (Ne.symm hca))).imp
          (List.mem_cons_of_mem _) (List.mem_cons_of_mem _)

/-- Of two members, only one stands ahead of the other. -/
theorem not_mem_ahead_of_mem_ahead (h : a ∈ ahead l b) : b ∉ ahead l a := by
  induction l with
  | nil => exact absurd h List.not_mem_nil
  | cons c l ih =>
    by_cases hcb : c = b
    · rw [hcb, ahead_cons_self] at h
      exact absurd h List.not_mem_nil
    · by_cases hca : c = a
      · rw [hca, ahead_cons_self]
        exact List.not_mem_nil
      · rw [ahead_cons_of_ne hcb] at h
        rw [ahead_cons_of_ne hca]
        intro hmem
        exact ih ((List.mem_cons.mp h).resolve_left (Ne.symm hca))
          ((List.mem_cons.mp hmem).resolve_left (Ne.symm hcb))

end Ahead

namespace Rule.Removal

variable {created : Created} {steps : List Instruction} {i first : Instruction}
  {file other : Text} {line n : Nat} {paths made files : List Text} {e : Text × Nat}

/-! ## Files that no path may mean -/

theorem sublist_sweep (line : Nat) (created : Created) (paths : List Text) :
    (sweep line created paths).2.entries.Sublist created.entries := by
  induction paths generalizing created with
  | nil => exact List.Sublist.refl _
  | cons path rest ih =>
    rw [sweep]
    cases take? created path with
    | none => exact ih created
    | some e => exact (ih (created.erase e.1)).trans List.filter_sublist

theorem mem_sweep_of_spared (he : e ∈ created.entries)
    (h : ∀ path ∈ paths, Artifact.same e.1 path = false) :
    e ∈ (sweep line created paths).2.entries := by
  rcases List.mem_append.mp ((perm_sweep line created paths).symm.subset he) with htaken | hleft
  · obtain ⟨r, hr, rfl⟩ := List.mem_map.mp htaken
    obtain ⟨-, path, hpath, hsame⟩ := of_mem_sweep hr
    exact absurd hsame (Bool.eq_false_iff.mp (h path hpath))
  · exact hleft

/-- No command among some steps removes what may be a file. -/
def Spares (steps : List Instruction) (file : Text) : Prop :=
  ∀ i ∈ steps, i.opcode = .run → ∀ path ∈ i.removedFiles, Artifact.same file path = false

instance (steps : List Instruction) (file : Text) : Decidable (Spares steps file) :=
  inferInstanceAs (Decidable (∀ i ∈ steps, _ → ∀ path ∈ i.removedFiles, _))

/-- What is left stays if a step opens no stage and does not remove it. -/
theorem mem_left_turn_of_spared (he : e ∈ created.entries) (hbase : i.opcode ≠ .base)
    (h : Spares [i] e.1) : e ∈ (turn created i).2.entries := by
  by_cases hrun : i.opcode = .run
  · rw [turn_of_run hrun]
    exact (mem_record_iff ..).mpr (Or.inl
      (mem_sweep_of_spared he (h i (List.mem_singleton_self i) hrun)))
  · rw [turn_of_other hbase hrun]
    exact he

/-! ## The order of the files that are left -/

/-- The files that the commands among some steps make, in order. -/
def filesMade (steps : List Instruction) : List Text :=
  (steps.filter fun i => i.opcode = .run).flatMap Instruction.createdFiles

theorem filesMade_append (steps more : List Instruction) :
    filesMade (steps ++ more) = filesMade steps ++ filesMade more := by
  unfold filesMade
  rw [List.filter_append, List.flatMap_append]

/-- Whether a step is a command that makes a file. -/
def makes (file : Text) (i : Instruction) : Bool := i.opcode = .run && i.createdFiles.contains file

theorem makes_iff : makes file i = true ↔ i.opcode = .run ∧ file ∈ i.createdFiles := by
  simp [makes]

theorem mem_filesMade_iff : file ∈ filesMade steps ↔ ∃ i ∈ steps, makes file i = true := by
  simp [filesMade, makes, and_assoc]

/-- The files that are left are among those made. A file is left if it was made, and then only
files that were made ahead of it stand ahead of it. -/
structure Tracks (file : Text) (made : List Text) (created : Created) : Prop where
  subset : created.keys ⊆ made
  there : file ∈ made → file ∈ created.keys
  order : ahead created.keys file ⊆ ahead made file

/-- What was made ahead of a file, and is left too, is left ahead of it. -/
theorem Tracks.mem_ahead (h : Tracks other made created) (hother : other ∈ ahead made file) :
    other ∈ ahead created.keys file := by
  have hne : other ≠ file := fun heq => not_mem_ahead_of_mem_ahead hother (heq ▸ hother)
  have hleft : other ∈ created.keys := h.there (ahead_subset made file hother)
  exact (mem_ahead_or hleft hne).resolve_right fun hahead =>
    not_mem_ahead_of_mem_ahead hother (h.order hahead)

theorem tracks_empty (file : Text) : Tracks file [] .empty where
  subset := fun _ h => h
  there := fun h => h
  order := fun _ h => h

theorem Tracks.sweep (h : Tracks file made created)
    (hspared : ∀ path ∈ paths, Artifact.same file path = false) :
    Tracks file made (sweep line created paths).2 := by
  have hsublist := (sublist_sweep line created paths).map Prod.fst
  have hthere : file ∈ made → file ∈ (Removal.sweep line created paths).2.keys := fun hmade => by
    obtain ⟨e, he, rfl⟩ := List.mem_map.mp (h.there hmade)
    exact List.mem_map_of_mem (mem_sweep_of_spared he hspared)
  have hsubset := List.Subset.trans hsublist.subset h.subset
  refine ⟨hsubset, hthere, ?_⟩
  by_cases hmade : file ∈ made
  · have hahead := ahead_subset_of_sublist created.distinct hsublist (hthere hmade)
    exact List.Subset.trans hahead h.order
  · have hall : ahead made file = made := by
      simpa [ahead] using ahead_append_of_not_mem hmade []
    rw [hall]
    exact List.Subset.trans (ahead_subset _ file) hsubset

/-- One more file is made: it is passed over, or goes behind all that are left. -/
theorem Tracks.concat (h : Tracks file made created) {removed : List Text}
    (hspared : ∀ path ∈ removed, Artifact.same file path = false) (new : Text) :
    Tracks file (made ++ [new])
      (if removed.any (Artifact.same new) || created.contains new then created
        else created.insert new line) := by
  have hsubset := List.Subset.trans h.subset (List.subset_append_left made [new])
  split
  · rename_i hskip
    refine ⟨hsubset, fun hmade => ?_,
      List.Subset.trans h.order (ahead_subset_append made [new] file)⟩
    rcases List.mem_append.mp hmade with hmade | hnew
    · exact h.there hmade
    · -- The file itself is not passed over as one that is removed.
      obtain rfl := List.mem_singleton.mp hnew
      rw [Bool.or_eq_true, OrderedMap.contains_iff] at hskip
      refine hskip.resolve_left fun hremoved => ?_
      obtain ⟨path, hpath, hsame⟩ := List.any_eq_true.mp hremoved
      exact absurd hsame (Bool.eq_false_iff.mp (hspared path hpath))
  · rename_i hinsert
    rw [Bool.or_eq_true, OrderedMap.contains_iff, not_or] at hinsert
    have hkeys : (created.insert new line).keys = created.keys ++ [new] := by
      rw [OrderedMap.keys_insert, if_neg hinsert.2]
    refine ⟨?_, fun hmade => ?_, ?_⟩
    · rw [hkeys]
      exact List.append_subset.mpr ⟨hsubset, List.subset_append_right _ _⟩
    · rw [hkeys]
      rcases List.mem_append.mp hmade with hmade | hnew
      · exact List.mem_append_left _ (h.there hmade)
      · exact List.mem_append_right _ hnew
    · rw [hkeys]
      by_cases hmade : file ∈ made
      · rw [ahead_append_of_mem (h.there hmade), ahead_append_of_mem hmade]
        exact h.order
      · have hleft : file ∉ created.keys := fun hkey => hmade (h.subset hkey)
        rw [ahead_append_of_not_mem hleft, ahead_append_of_not_mem hmade]
        refine List.append_subset.mpr ⟨?_, List.subset_append_right _ _⟩
        exact List.Subset.trans h.subset (List.subset_append_left _ _)

theorem Tracks.record (h : Tracks file made created) {removed : List Text}
    (hspared : ∀ path ∈ removed, Artifact.same file path = false) (files : List Text) :
    Tracks file (made ++ files) (record line removed created files) := by
  induction files generalizing made created with
  | nil =>
    rw [List.append_nil]
    exact h
  | cons new rest ih =>
    rw [List.append_cons]
    exact ih (h.concat hspared new)

theorem Tracks.turn (h : Tracks file made created) (hbase : i.opcode ≠ .base)
    (hspared : Spares [i] file) : Tracks file (made ++ filesMade [i]) (turn created i).2 := by
  by_cases hrun : i.opcode = .run
  · have hpaths := hspared i (List.mem_singleton_self i) hrun
    have hmade : filesMade [i] = i.createdFiles := by simp [filesMade, hrun]
    rw [turn_of_run hrun, hmade]
    exact (h.sweep hpaths).record hpaths i.createdFiles
  · have hmade : filesMade [i] = [] := by simp [filesMade, hrun]
    rw [turn_of_other hbase hrun, hmade, List.append_nil]
    exact h

/-- Behind the steps of one stage, none of which removes what may be a file, the files are left in
their order. -/
theorem tracks_left (hbase : ∀ i ∈ steps, i.opcode ≠ .base) (hspared : Spares steps file) :
    Tracks file (filesMade steps) (left .empty steps) := by
  induction steps using List.reverseRecOn with
  | nil => exact tracks_empty file
  | append_singleton steps i ih =>
    obtain ⟨hsteps, hi⟩ := List.forall_mem_append.mp hbase
    obtain ⟨hspares, hsparesLast⟩ := List.forall_mem_append.mp hspared
    rw [left_concat, filesMade_append]
    exact (ih hsteps hspares).turn (hi i (List.mem_singleton_self i)) hsparesLast

/-- A file that is not removed is left with the line of the first command that makes it. -/
theorem mem_left_of_first (hbase : ∀ i ∈ steps, i.opcode ≠ .base) (hspared : Spares steps file)
    (hfirst : steps.find? (makes file) = some first) :
    (file, first.line) ∈ (left .empty steps).entries := by
  induction steps using List.reverseRecOn with
  | nil => exact absurd hfirst (by simp)
  | append_singleton steps i ih =>
    obtain ⟨hsteps, hi⟩ := List.forall_mem_append.mp hbase
    obtain ⟨hspares, hsparesLast⟩ := List.forall_mem_append.mp hspared
    rw [left_concat]
    cases hearlier : steps.find? (makes file) with
    | some earlier =>
      rw [List.find?_append, hearlier] at hfirst
      obtain rfl := Option.some.inj hfirst
      exact mem_left_turn_of_spared (ih hsteps hspares hearlier) (hi i (List.mem_singleton_self i))
        hsparesLast
    | none =>
      rw [List.find?_append, hearlier, Option.none_or] at hfirst
      obtain rfl := List.mem_singleton.mp (List.mem_of_find?_eq_some hfirst)
      obtain ⟨hrun, hmakes⟩ := makes_iff.mp (List.find?_some hfirst)
      have hnew : file ∉ (left .empty steps).keys := fun hkey => by
        obtain ⟨j, hj, hmade⟩ :=
          mem_filesMade_iff.mp ((tracks_left hsteps hspares).subset hkey)
        exact List.find?_eq_none.mp hearlier j hj hmade
      have hswept := (sublist_sweep first.line (left .empty steps) first.removedFiles).map Prod.fst
      rw [turn_of_run hrun]
      exact (mem_record_iff ..).mpr (Or.inr ⟨fun hkey => hnew (hswept.subset hkey), rfl, hmakes,
        hsparesLast first (List.mem_singleton_self first) hrun⟩)

/-! ## The file that is taken -/

/-- If a path is removed that is a file left, the path is taken for the file, or for one ahead of
the file that the path may mean, and not for the file if there is one. -/
theorem exists_take?_eq (h : (file, n) ∈ created.entries) :
    ∃ e, take? created file = some e ∧ e ∈ created.entries ∧ Artifact.same e.1 file = true ∧
      (e = (file, n) ∨ e.1 ∈ ahead created.keys file) ∧
      ∀ other ∈ ahead created.keys file, Artifact.same other file = true → e.1 ≠ file := by
  have hsome : (take? created file).isSome :=
    List.find?_isSome.mpr ⟨_, h, Artifact.same_self file⟩
  obtain ⟨e, he⟩ := Option.isSome_iff_exists.mp hsome
  obtain ⟨hmem, hsame⟩ := mem_of_take? he
  obtain ⟨-, front, behind, hentries, hfront⟩ := List.find?_eq_some_iff_append.mp he
  have hpassed : ∀ name ∈ front.map Prod.fst, Artifact.same name file = false := by
    intro name hname
    obtain ⟨entry, hentry, rfl⟩ := List.mem_map.mp hname
    simpa using hfront entry hentry
  have hkeys : created.keys = front.map Prod.fst ++ e.1 :: behind.map Prod.fst := by
    rw [OrderedMap.keys, hentries, List.map_append, List.map_cons]
  have hnot : file ∉ front.map Prod.fst := fun hname =>
    absurd (Artifact.same_self file) (Bool.eq_false_iff.mp (hpassed file hname))
  refine ⟨e, he, hmem, hsame, ?_, fun other hother hmeant hnamed => ?_⟩
  · by_cases hnamed : e.1 = file
    · exact Or.inl (List.inj_on_of_nodup_map created.distinct hmem h hnamed)
    · rw [hkeys, ahead_append_of_not_mem hnot, ahead_cons_of_ne hnamed]
      exact Or.inr (List.mem_append_right _ List.mem_cons_self)
  · rw [hkeys, hnamed, ahead_append_of_not_mem hnot, ahead_cons_self, List.append_nil] at hother
    exact absurd hmeant (Bool.eq_false_iff.mp (hpassed other hother))

/-- A command that removes one path removes the file that the path is taken for. -/
theorem turn_of_single (hrun : i.opcode = .run) (hremoved : i.removedFiles = [file])
    (htake : take? created file = some e) : (turn created i).1 = [⟨i.line, e.1, e.2⟩] := by
  rw [turn_of_run hrun, hremoved, Removal.sweep, htake]
  rfl

/-- What is left behind some steps is left by those of the last stage among them. -/
theorem left_append_stage {before : List Instruction}
    (hbefore : ∀ i ∈ before.getLast?, i.opcode = .base) (stage : List Instruction) :
    left .empty (before ++ stage) = left .empty stage := by
  have hstart : left .empty before = .empty := by
    rcases List.eq_nil_or_concat before with rfl | ⟨front, i, rfl⟩
    · rfl
    · rw [List.concat_eq_append] at hbefore ⊢
      rw [left_concat, turn_of_base (hbefore i (by simp))]
  have hsteps : left .empty (before ++ stage) = left (left .empty before) stage :=
    List.foldl_append
  rw [hsteps, hstart]

/-- A finding stands at the line of a step. -/
theorem exists_step_of_finding {f : Finding} (h : f ∈ (after created steps).map asFinding) :
    ∃ i ∈ steps, f.line = i.line := by
  obtain ⟨r, hr, rfl⟩ := List.mem_map.mp h
  obtain ⟨i, hi, -, hline⟩ := exists_run_of_mem_after hr
  exact ⟨i, hi, congrArg Nat.cast hline⟩

end Rule.Removal

/-! ## Findings -/

namespace Rule

section Named

open Removal (Spares filesMade makes)

variable {before stage back : List Instruction} {removing first : Instruction} {file : Text}

/--
Let a command remove one path, which some commands of its stage made, and let none of the commands
of the stage before it remove what may be that file. Then the rule about left files finds just one
removal at the command, of a file of the stage that may be the removed one, and none on its line
elsewhere if no other step stands on its line. The removal names the file itself and the line of the
first command that made it, or else a file that was made ahead of it. So it names the file itself if
none that was made ahead of it may be it, and does not if one that was made ahead of it may be it
and is not removed before.
-/
theorem removed_file_named (hbefore : ∀ i ∈ before.getLast?, i.opcode = .base)
    (hstage : ∀ i ∈ stage, i.opcode ≠ .base) (hfirst : stage.find? (makes file) = some first)
    (hspared : Spares stage file) (hremoving : removing.opcode = .run)
    (hremoved : removing.removedFiles = [file]) :
    ∃ (found more : List Finding) (r : Removal),
      cleanupArtifacts.inspect (before ++ stage) = .ok found ∧
      cleanupArtifacts.inspect (before ++ stage ++ removing :: back) =
        .ok (found ++ r.asFinding :: more) ∧
      r.line = removing.line ∧ Artifact.same r.file file = true ∧
      Removal.IsLeftBy stage r.file r.createdAt ∧
      ((∀ i ∈ before ++ stage ++ back, i.line ≠ removing.line) →
        ∀ f ∈ found ++ more, f.line ≠ removing.line) ∧
      (r.origin = (file, first.line) ∨ r.file ∈ ahead (filesMade stage) file) ∧
      ((∀ other ∈ ahead (filesMade stage) file, Artifact.same other file = false) →
        r.origin = (file, first.line)) ∧
      ∀ other ∈ ahead (filesMade stage) file, Artifact.same other file = true →
        Spares stage other → r.file ≠ file := by
  have hleft := Removal.left_append_stage hbefore stage
  have hthere := Removal.mem_left_of_first hstage hspared hfirst
  have htracks := Removal.tracks_left hstage hspared
  obtain ⟨e, htake, hmem, hsame, hcases, hnot⟩ := Removal.exists_take?_eq hthere
  let r : Removal := ⟨removing.line, e.1, e.2⟩
  have hfound : (Removal.turn (Removal.left .empty stage) removing).1 = [r] :=
    Removal.turn_of_single hremoving hremoved htake
  let behind := (Removal.turn (Removal.left .empty stage) removing).2
  have hwhole : Removal.after .empty (before ++ stage ++ removing :: back) =
      Removal.after .empty (before ++ stage) ++ r :: Removal.after behind back := by
    rw [Removal.after_append, Removal.after_cons, hleft, hfound]
    rfl
  have hnamed : r.origin = (file, first.line) ∨ r.file ∈ ahead (filesMade stage) file :=
    hcases.imp_right fun hahead => htracks.order hahead
  refine ⟨_, (Removal.after behind back).map Removal.asFinding, r, inspect_cleanupArtifacts _, ?_,
    rfl, hsame, Removal.isLeftBy_of_mem_left hmem, fun hlines f hf => ?_, hnamed,
    fun hnone => ?_, fun other hother hmeant hspares => ?_⟩
  · rw [inspect_cleanupArtifacts, hwhole, List.map_append, List.map_cons]
  · have hother : ∃ i ∈ before ++ stage ++ back, f.line = i.line := by
      rcases List.mem_append.mp hf with hf | hf
      · obtain ⟨i, hi, hline⟩ := Removal.exists_step_of_finding hf
        exact ⟨i, List.mem_append_left _ hi, hline⟩
      · obtain ⟨i, hi, hline⟩ := Removal.exists_step_of_finding hf
        exact ⟨i, List.mem_append_right _ hi, hline⟩
    obtain ⟨i, hi, hline⟩ := hother
    rw [hline]
    exact fun hsameLine => hlines i hi (Int.ofNat.inj hsameLine)
  · exact hnamed.resolve_right fun hahead =>
      absurd hsame (Bool.eq_false_iff.mp (hnone r.file hahead))
  · exact hnot other ((Removal.tracks_left hstage hspares).mem_ahead hother) hmeant

end Named

/-- Two archives have one name, and the one that was fetched first is removed. -/
theorem removed_file_named_of_two_archives :
    ∃ (d : Dockerfile) (before stage back : List Instruction) (removing first : Instruction)
      (file : Text) (r : Removal) (found more : List Finding),
      Dockerfile.parse
        "FROM a\nRUN curl -o /tmp/a.zip u\nRUN curl -o a.zip v\nRUN rm -f /tmp/a.zip/\nRUN rm b\n" =
          .ok d ∧
      d.instructions = before ++ stage ++ removing :: back ∧
      (∀ i ∈ before.getLast?, i.opcode = .base) ∧ (∀ i ∈ stage, i.opcode ≠ .base) ∧
      stage.find? (Removal.makes file) = some first ∧ Removal.Spares stage file ∧
      removing.opcode = .run ∧ removing.removedFiles = [file] ∧
      (∀ other ∈ ahead (Removal.filesMade stage) file, Artifact.same other file = false) ∧
      cleanupArtifacts.inspect d.instructions = .ok (found ++ r.asFinding :: more) ∧
      r = ⟨4, "/tmp/a.zip", 2⟩ := by
  let run (line : Nat) (arguments : List Text) : Instruction :=
    { opcode := .run, arguments, line, endLine := line, raw := Text.joinWith " " arguments }
  let base : Instruction :=
    { opcode := .base, arguments := ["a"], line := 1, endLine := 1, raw := "a" }
  let first := run 2 ["curl", "-o", "/tmp/a.zip", "u"]
  let stage : List Instruction := [first, run 3 ["curl", "-o", "a.zip", "v"]]
  let removing := run 4 ["rm", "-f", "/tmp/a.zip/"]
  let back : List Instruction := [run 5 ["rm", "b"]]
  let d : Dockerfile :=
    { instructions := [base] ++ stage ++ removing :: back, warnings := [], escape := .backslash }
  have hbefore : ∀ i ∈ [base].getLast?, i.opcode = .base := by simp [base]
  have hstage : ∀ i ∈ stage, i.opcode ≠ .base := by decide
  have hfirst : stage.find? (Removal.makes "/tmp/a.zip") = some first := by decide +kernel
  have hspared : Removal.Spares stage "/tmp/a.zip" := by decide +kernel
  have hremoved : removing.removedFiles = ["/tmp/a.zip"] := by decide +kernel
  have halone : ∀ other ∈ ahead (Removal.filesMade stage) "/tmp/a.zip",
      Artifact.same other "/tmp/a.zip" = false := by decide +kernel
  obtain ⟨found, more, r, -, hfound, hline, -, -, -, -, hnamed, -⟩ :=
    @removed_file_named [base] stage back removing first "/tmp/a.zip" hbefore hstage hfirst hspared
      rfl hremoved
  obtain ⟨hfile, hcreated⟩ := Prod.mk.inj (hnamed halone)
  have hr : r = ⟨4, "/tmp/a.zip", 2⟩ := by
    obtain ⟨line, file, createdAt⟩ := r
    obtain rfl : line = 4 := hline
    obtain rfl : file = "/tmp/a.zip" := hfile
    obtain rfl : createdAt = 2 := hcreated
    rfl
  exact ⟨d, [base], stage, back, removing, first, "/tmp/a.zip", r, found, more, by decide +kernel,
    rfl, hbefore, hstage, hfirst, hspared, rfl, hremoved, halone, hfound, hr⟩

/-- Two archives have one name, and the one that was fetched last is removed: the removal names the
first one. -/
theorem other_file_named :
    ∃ (d : Dockerfile) (before stage : List Instruction) (removing first : Instruction)
      (file : Text) (r : Removal),
      Dockerfile.parse
        "FROM a\nRUN curl -o a.zip u\nRUN curl -o /tmp/a.zip v\nRUN rm /tmp/a.zip\n" = .ok d ∧
      d.instructions = before ++ stage ++ [removing] ∧
      (∀ i ∈ before.getLast?, i.opcode = .base) ∧ (∀ i ∈ stage, i.opcode ≠ .base) ∧
      stage.find? (Removal.makes file) = some first ∧ Removal.Spares stage file ∧
      removing.opcode = .run ∧ removing.removedFiles = [file] ∧
      cleanupArtifacts.inspect d.instructions = .ok [r.asFinding] ∧
      r.file ≠ file ∧ r.createdAt ≠ first.line := by
  let run (line : Nat) (arguments : List Text) : Instruction :=
    { opcode := .run, arguments, line, endLine := line, raw := Text.joinWith " " arguments }
  let base : Instruction :=
    { opcode := .base, arguments := ["a"], line := 1, endLine := 1, raw := "a" }
  let first := run 3 ["curl", "-o", "/tmp/a.zip", "v"]
  let stage : List Instruction := [run 2 ["curl", "-o", "a.zip", "u"], first]
  let removing := run 4 ["rm", "/tmp/a.zip"]
  let d : Dockerfile :=
    { instructions := [base] ++ stage ++ [removing], warnings := [], escape := .backslash }
  have hstage : ∀ i ∈ stage, i.opcode ≠ .base := by decide
  have hspared : Removal.Spares stage "/tmp/a.zip" := by decide +kernel
  exact ⟨d, [base], stage, removing, first, "/tmp/a.zip", ⟨4, "a.zip", 2⟩, by decide +kernel, rfl,
    by simp [base], hstage, by decide +kernel, hspared, rfl, by decide +kernel, by decide +kernel,
    by decide, by decide⟩

end Rule

end Drydock
