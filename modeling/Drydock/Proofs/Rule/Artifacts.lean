/-
  Files that are removed too late. Every finding is a real removal: a command of a stage left the
  file, and a later command of the same stage removes what may be it; no file is found twice for one
  command that left it, and a base starts anew (`removals_found_are_real`). A file that is still
  there behind a command and removed by the next one is found, but not if the first command removes
  what may be the file before making it (`left_file_found`).
-/
import Drydock.Dockerfile.Parser
import Drydock.Proofs.Rule.Access
import Drydock.Proofs.Rule.Removal
import Drydock.Proofs.Text.Number

namespace Drydock.Rule

namespace Removal

variable {created : Created} {steps : List Instruction} {r r' : Removal}

/-! ## What is said -/

/-- A removal as the rule reports it. -/
def asFinding (r : Removal) : Finding := finding "cleanup-artifacts" .warning r.remark

/-- The text names the file and the line of the step that made it. -/
theorem origin_eq_of_message (h : r.message = r'.message) : r.origin = r'.origin := by
  have hmessage (r : Removal) : r.message =
      ("'" ++ r.file ++ "' created by the RUN at line" ++ ' ' :: Text.ofNat r.createdAt) ++
        " is removed in a separate RUN; create, use and delete it in the same RUN." := by
    have hline : ("' created by the RUN at line " : Text) =
        "' created by the RUN at line" ++ [' '] := by decide
    simp [message, Text.concat, hline]
  rw [hmessage, hmessage] at h
  obtain ⟨hfront, hline⟩ := Text.append_ofNat_inj (List.append_cancel_right h)
  exact Prod.ext (List.append_cancel_left (List.append_cancel_right hfront)) hline

theorem eq_of_asFinding (h : r.asFinding = r'.asFinding) : r = r' := by
  obtain ⟨-, -, hline, hmessage⟩ := Finding.mk.inj h
  obtain ⟨hfile, hcreated⟩ := Prod.mk.inj (origin_eq_of_message hmessage)
  cases r; cases r'
  simp_all [remark]

/-! ## Where files come from -/

/-- Among some steps, a command on a line leaves a file, and no stage is opened behind it. -/
def IsLeftBy (steps : List Instruction) (file : Text) (line : Nat) : Prop :=
  ∃ front made between, steps = front ++ made :: between ∧ made.opcode = .run ∧
    made.line = line ∧ Leaves made file ∧ ∀ j ∈ between, j.opcode ≠ .base

/-- A removal happens among some steps: a command on its line removes what may be the file, and the
steps before it left the file in the same stage. -/
def Happens (steps : List Instruction) (r : Removal) : Prop :=
  ∃ before removing behind, steps = before ++ removing :: behind ∧ removing.opcode = .run ∧
    removing.line = r.line ∧ (∃ path ∈ removing.removedFiles, Artifact.same r.file path = true) ∧
    IsLeftBy before r.file r.createdAt

theorem IsLeftBy.concat {file : Text} {line : Nat} (h : IsLeftBy steps file line)
    {i : Instruction} (hi : i.opcode ≠ .base) : IsLeftBy (steps ++ [i]) file line := by
  obtain ⟨front, made, between, rfl, hrun, hline, hleaves, hbetween⟩ := h
  refine ⟨front, made, between ++ [i], by simp, hrun, hline, hleaves, ?_⟩
  exact List.forall_mem_append.mpr ⟨hbetween, List.forall_mem_singleton.mpr hi⟩

/-- Whatever is left behind some steps was left by one of them in the last stage. -/
theorem isLeftBy_of_mem_left {e : Text × Nat} (h : e ∈ (left .empty steps).entries) :
    IsLeftBy steps e.1 e.2 := by
  induction steps using List.reverseRecOn with
  | nil => exact absurd h List.not_mem_nil
  | append_singleton steps i ih =>
    rw [left_concat] at h
    rcases of_mem_left_turn h with ⟨hbefore, -, hbase⟩ | ⟨hrun, hline, hleaves⟩
    · exact (ih hbefore).concat hbase
    · exact ⟨steps, i, [], rfl, hrun, hline.symm, hleaves, fun j hj => absurd hj List.not_mem_nil⟩

theorem happens_of_mem_after (h : r ∈ after .empty steps) : Happens steps r := by
  obtain ⟨front, i, behind, hsteps, hfound⟩ := mem_after_iff.mp h
  obtain ⟨hrun, hline, hthere, hpath⟩ := of_mem_found hfound
  exact ⟨front, i, behind, hsteps, hrun, hline.symm, hpath, isLeftBy_of_mem_left hthere⟩

theorem Happens.createdAt_lt (h : Happens steps r)
    (hlines : (steps.map Instruction.line).Pairwise (· < ·)) : r.createdAt < r.line := by
  obtain ⟨before, removing, behind, rfl, -, hline, -, hleft⟩ := h
  obtain ⟨front, made, between, rfl, -, hmade, -, -⟩ := hleft
  rw [← hline, ← hmade]
  rw [List.map_append, List.map_cons] at hlines
  refine (List.pairwise_append.mp hlines).2.2 made.line ?_ removing.line List.mem_cons_self
  simp

/-! ## No file twice -/

theorem origin_of_mem_after (h : r ∈ after created steps) :
    r.origin ∈ created.entries ∨ ∃ i ∈ steps, r.createdAt = i.line := by
  induction steps generalizing created with
  | nil => exact absurd h List.not_mem_nil
  | cons i rest ih =>
    rw [after_cons] at h
    rcases List.mem_append.mp h with h | h
    · exact Or.inl (of_mem_found h).2.2.1
    · rcases ih h with hleft | ⟨j, hj, hline⟩
      · rcases of_mem_left_turn hleft with ⟨hbefore, -, -⟩ | ⟨-, hline, -⟩
        · exact Or.inl hbefore
        · exact Or.inr ⟨i, List.mem_cons_self, hline⟩
      · exact Or.inr ⟨j, List.mem_cons_of_mem _ hj, hline⟩

/-- On increasing lines, no file is found twice for one step that made it. -/
theorem nodup_origins (hlines : (steps.map Instruction.line).Pairwise (· < ·))
    (hcreated : ∀ e ∈ created.entries, ∀ i ∈ steps, e.2 < i.line) :
    ((after created steps).map origin).Nodup := by
  induction steps generalizing created with
  | nil => exact List.nodup_nil
  | cons i rest ih =>
    rw [List.map_cons, List.pairwise_cons] at hlines
    have hbehind : ∀ j ∈ rest, i.line < j.line := fun j hj =>
      hlines.1 j.line (List.mem_map_of_mem hj)
    have hleft : ∀ e ∈ (turn created i).2.entries, ∀ j ∈ rest, e.2 < j.line := by
      intro e he j hj
      rcases of_mem_left_turn he with ⟨hbefore, -, -⟩ | ⟨-, hline, -⟩
      · exact hcreated e hbefore j (List.mem_cons_of_mem _ hj)
      · rw [hline]
        exact hbehind j hj
    rw [after_cons, List.map_append]
    refine List.nodup_append.mpr ⟨nodup_found created i, ih hlines.2 hleft, ?_⟩
    rintro e hfound _ hlater rfl
    -- What this step finds was made above its line, and is left behind it no more.
    obtain ⟨r, hr, rfl⟩ := List.mem_map.mp hfound
    obtain ⟨r', hr', horigin⟩ := List.mem_map.mp hlater
    have hearlier : r.createdAt < i.line :=
      hcreated _ (of_mem_found hr).2.2.1 i List.mem_cons_self
    rcases origin_of_mem_after hr' with hthere | ⟨j, hj, hline⟩
    · rw [horigin] at hthere
      rcases of_mem_left_turn hthere with ⟨-, hnot, -⟩ | ⟨-, hline, -⟩
      · exact hnot hfound
      · exact absurd hline (Nat.ne_of_lt hearlier)
    · have hsame : r'.createdAt = r.createdAt := congrArg Prod.snd horigin
      have := hbehind j hj
      omega

end Removal

/-! ## Findings -/

theorem inspect_cleanupArtifacts (steps : List Instruction) :
    cleanupArtifacts.inspect steps = .ok ((Removal.after .empty steps).map Removal.asFinding) := by
  rw [cleanupArtifacts_eq, ofRemarks]
  dsimp only
  rw [artifactRemarks, List.map_map]
  rfl

/-- What stands in front of a base and what stands behind it are inspected each for itself. -/
theorem after_append_base {base : Instruction} (hbase : base.opcode = .base)
    (front behind : List Instruction) :
    Removal.after .empty (front ++ base :: behind) =
      Removal.after .empty front ++ Removal.after .empty behind := by
  rw [Removal.after_append, Removal.after_cons, Removal.turn_of_base hbase, List.nil_append]

/--
The rule about left files never fails, and each of its findings is a removal. On increasing lines,
whatever removal a finding tells of, the file was made above the line of the finding, a command of
the same stage on the line that it names made the file and did not itself remove it, and a command
on its own line removes what may be the file; and no two findings name the same file and the same
line where it was made. On any lines, a base starts anew: what stands in front of it and what stands
behind it are inspected each for itself.
-/
theorem removals_found_are_real :
    (∀ steps : List Instruction, (steps.map Instruction.line).Pairwise (· < ·) →
      ∃ found, cleanupArtifacts.inspect steps = .ok found ∧
        (∀ f ∈ found, ∃ r : Removal, f = r.asFinding) ∧
        (∀ r : Removal, r.asFinding ∈ found → r.createdAt < r.line ∧ r.Happens steps) ∧
        found.Pairwise fun f f' => ∀ r r' : Removal, f = r.asFinding → f' = r'.asFinding →
          ¬(r.file = r'.file ∧ r.createdAt = r'.createdAt)) ∧
    ∀ (base : Instruction) (front behind : List Instruction), base.opcode = .base →
      ∃ found more, cleanupArtifacts.inspect front = .ok found ∧
        cleanupArtifacts.inspect behind = .ok more ∧
        cleanupArtifacts.inspect (front ++ base :: behind) = .ok (found ++ more) := by
  constructor
  · intro steps hlines
    refine ⟨_, inspect_cleanupArtifacts steps, fun f hf => ?_, fun r hr => ?_, ?_⟩
    · obtain ⟨r, -, rfl⟩ := List.mem_map.mp hf
      exact ⟨r, rfl⟩
    · obtain ⟨r', hr', hsame⟩ := List.mem_map.mp hr
      have hhappens := Removal.happens_of_mem_after (Removal.eq_of_asFinding hsame ▸ hr')
      exact ⟨hhappens.createdAt_lt hlines, hhappens⟩
    · have hstart : ∀ e ∈ (OrderedMap.empty : Created).entries, ∀ i ∈ steps, e.2 < i.line :=
        fun e he => absurd he List.not_mem_nil
      rw [List.pairwise_map]
      refine (List.pairwise_map.mp (Removal.nodup_origins hlines hstart)).imp ?_
      intro s s' hne r r' hr hr' hsame
      refine hne ?_
      rw [Removal.eq_of_asFinding hr, Removal.eq_of_asFinding hr']
      exact Prod.ext hsame.1 hsame.2
  · intro base front behind hbase
    refine ⟨_, _, inspect_cleanupArtifacts front, inspect_cleanupArtifacts behind, ?_⟩
    rw [inspect_cleanupArtifacts, after_append_base hbase, List.map_append]

/-- An archive is fetched, unpacked and removed by three commands; another stage removes it too. -/
theorem removals_found_are_real_of_archive :
    ∃ (d : Dockerfile) (base : Instruction) (front behind : List Instruction) (r : Removal)
      (found more : List Finding),
      Dockerfile.parse
        "FROM a\nRUN curl -o /x.tgz u\nRUN tar xf /x.tgz\nRUN rm x.tgz\nFROM b\nRUN rm x.tgz\n" =
          .ok d ∧
      d.instructions = front ++ base :: behind ∧ base.opcode = .base ∧
      (d.instructions.map Instruction.line).Pairwise (· < ·) ∧
      cleanupArtifacts.inspect d.instructions = .ok (found ++ more) ∧
      cleanupArtifacts.inspect front = .ok found ∧ cleanupArtifacts.inspect behind = .ok more ∧
      found = [r.asFinding] ∧ more = [] ∧ r = ⟨4, "/x.tgz", 2⟩ ∧ r.Happens d.instructions := by
  let run (line : Nat) (arguments : List Text) : Instruction :=
    { opcode := .run, arguments, line, endLine := line, raw := Text.joinWith " " arguments }
  let base (line : Nat) (name : Text) : Instruction :=
    { opcode := .base, arguments := [name], line, endLine := line, raw := name }
  let front : List Instruction :=
    [base 1 "a", run 2 ["curl", "-o", "/x.tgz", "u"], run 3 ["tar", "xf", "/x.tgz"],
      run 4 ["rm", "x.tgz"]]
  let behind : List Instruction := [run 6 ["rm", "x.tgz"]]
  let d : Dockerfile :=
    { instructions := front ++ base 5 "b" :: behind, warnings := [], escape := .backslash }
  let r : Removal := ⟨4, "/x.tgz", 2⟩
  have hlines : (d.instructions.map Instruction.line).Pairwise (· < ·) := by decide
  have hfront : cleanupArtifacts.inspect front = .ok [r.asFinding] := by decide +kernel
  have hbehind : cleanupArtifacts.inspect behind = .ok [] := by decide +kernel
  obtain ⟨found, more, hfound, hmore, hwhole⟩ :=
    removals_found_are_real.2 (base 5 "b") front behind rfl
  obtain rfl : found = [r.asFinding] := Except.ok.inj (hfound.symm.trans hfront)
  obtain rfl : more = [] := Except.ok.inj (hmore.symm.trans hbehind)
  obtain ⟨all, hall, -, hreal, -⟩ := removals_found_are_real.1 d.instructions hlines
  have hmem : r.asFinding ∈ all := by
    rw [Except.ok.inj (hall.symm.trans hwhole)]
    exact List.mem_cons_self
  exact ⟨d, base 5 "b", front, behind, r, _, _, by decide +kernel, rfl, rfl, hlines, hwhole, hfront,
    hbehind, rfl, rfl, rfl, (hreal r hmem).2⟩

/-! ## Files that are still there -/

/-- Some part of a step makes a file, and no later part of it removes what may be the file. -/
def StaysBehind (i : Instruction) (file : Text) : Prop :=
  ∃ earlier part later, i.segments = earlier ++ part :: later ∧ file ∈ Artifact.createdIn part ∧
    ∀ segment ∈ later, ∀ path ∈ Artifact.removedIn segment, Artifact.same file path = false

section Left

variable {front between back : List Instruction} {made removing : Instruction} {file : Text}

theorem StaysBehind.mem_createdFiles (h : StaysBehind made file) : file ∈ made.createdFiles := by
  obtain ⟨earlier, part, later, hsegments, hpart, -⟩ := h
  refine List.mem_flatMap.mpr ⟨part, ?_, hpart⟩
  rw [hsegments]
  exact List.mem_append_right _ List.mem_cons_self

/-- If a command leaves a file, and the next command of the stage removes it, a removal is found
there of what may be the file. -/
theorem exists_mem_after_of_leaves (hmade : made.opcode = .run) (hremoving : removing.opcode = .run)
    (hbetween : ∀ i ∈ between, i.opcode ≠ .base ∧ i.opcode ≠ .run)
    (hleaves : Removal.Leaves made file) (hremoved : file ∈ removing.removedFiles) :
    ∃ r ∈ Removal.after .empty (front ++ made :: (between ++ removing :: back)),
      r.line = removing.line ∧ Artifact.same r.file file = true := by
  have hleft : file ∈ (Removal.left .empty (front ++ made :: between)).keys := by
    have hsteps : Removal.left .empty (front ++ made :: between) =
        Removal.left (Removal.turn (Removal.left .empty front) made).2 between :=
      List.foldl_append
    rw [hsteps, Removal.left_of_idle hbetween]
    exact Removal.mem_left_of_leaves hmade hleaves _
  obtain ⟨r, hr, hfound⟩ := Removal.exists_mem_found hremoving hleft hremoved
  have hafter := Removal.mem_after_iff.mpr ⟨front ++ made :: between, removing, back, rfl, hr⟩
  rw [List.append_assoc, List.cons_append] at hafter
  exact ⟨r, hafter, hfound⟩

/-- On increasing lines, a removal that names the line of a command tells of a file that this
command leaves. -/
theorem Removal.Happens.leaves {steps : List Instruction} {r : Removal} (h : r.Happens steps)
    (hlines : (steps.map Instruction.line).Pairwise (· < ·)) (hmade : made ∈ steps)
    (hline : r.createdAt = made.line) : Leaves made r.file := by
  obtain ⟨_, removing, behind, rfl, -, -, -, front, other, between, rfl, -, hother, hleaves, -⟩ := h
  have hsame : other = made := by
    refine List.inj_on_of_nodup_map (hlines.imp Nat.ne_of_lt) ?_ hmade (hother.trans hline)
    simp
  exact hsame ▸ hleaves

/--
Let some part of a command make a file that no later part of it removes, and let the next command of
the stage remove the file. If no part of the first command removes what may be the file, the rule
about left files finds a removal at the line of the second one, of the file or of one that may be
it. But if some part does, be it before the file is made, the rule takes the file for removed: then
no finding says that the first command made it.
-/
theorem left_file_found (hmade : made.opcode = .run) (hremoving : removing.opcode = .run)
    (hbetween : ∀ i ∈ between, i.opcode ≠ .base ∧ i.opcode ≠ .run) (hstays : StaysBehind made file)
    (hremoved : file ∈ removing.removedFiles) :
    let steps := front ++ made :: (between ++ removing :: back)
    ∃ found, cleanupArtifacts.inspect steps = .ok found ∧
      ((∀ path ∈ made.removedFiles, Artifact.same file path = false) →
        ∃ r : Removal, r.asFinding ∈ found ∧ r.line = removing.line ∧
          Artifact.same r.file file = true) ∧
      ((∃ path ∈ made.removedFiles, Artifact.same file path = true) →
        (steps.map Instruction.line).Pairwise (· < ·) →
        ∀ r : Removal, r.asFinding ∈ found → ¬(r.file = file ∧ r.createdAt = made.line)) := by
  intro steps
  refine ⟨_, inspect_cleanupArtifacts steps, fun hkept => ?_, fun hswept hlines r hr hnamed => ?_⟩
  · obtain ⟨r, hr, hline, hsame⟩ := exists_mem_after_of_leaves hmade hremoving hbetween
      ⟨hstays.mem_createdFiles, hkept⟩ hremoved
    exact ⟨r, List.mem_map_of_mem hr, hline, hsame⟩
  · obtain ⟨r', hr', hsame⟩ := List.mem_map.mp hr
    obtain rfl := Removal.eq_of_asFinding hsame
    have hmem : made ∈ steps := by simp [steps]
    have hleaves := (Removal.happens_of_mem_after hr').leaves hlines hmem hnamed.2
    obtain ⟨path, hpath, hmeant⟩ := hswept
    have hkept := hleaves.kept path hpath
    rw [hnamed.1, hmeant] at hkept
    exact Bool.noConfusion hkept

end Left

/-- A file is made and removed by two commands, each of which removes another one too. -/
theorem left_file_found_of_archive :
    ∃ (d : Dockerfile) (base made copy removing : Instruction) (file : Text) (found : List Finding)
      (r : Removal),
      Dockerfile.parse
        "FROM a\nRUN rm /tmp/b; curl -o /x.tgz u\nCOPY c d\nRUN rm -r /tmp/c /x.tgz/\n" = .ok d ∧
      d.instructions = [base] ++ made :: ([copy] ++ removing :: []) ∧ made.opcode = .run ∧
      removing.opcode = .run ∧ (∀ i ∈ [copy], i.opcode ≠ .base ∧ i.opcode ≠ .run) ∧
      StaysBehind made file ∧ file ∈ removing.removedFiles ∧
      (∀ path ∈ made.removedFiles, Artifact.same file path = false) ∧
      cleanupArtifacts.inspect d.instructions = .ok found ∧ r.asFinding ∈ found ∧ r.line = 4 ∧
      Artifact.same r.file file = true ∧ found.map Finding.line = [4] := by
  let run (line : Nat) (arguments : List Text) : Instruction :=
    { opcode := .run, arguments, line, endLine := line, raw := Text.joinWith " " arguments }
  let base : Instruction :=
    { opcode := .base, arguments := ["a"], line := 1, endLine := 1, raw := "a" }
  let copy : Instruction :=
    { opcode := .copy, arguments := ["c", "d"], line := 3, endLine := 3, raw := "c d" }
  let made := run 2 ["rm", "/tmp/b;", "curl", "-o", "/x.tgz", "u"]
  let removing := run 4 ["rm", "-r", "/tmp/c", "/x.tgz/"]
  have hbetween : ∀ i ∈ [copy], i.opcode ≠ .base ∧ i.opcode ≠ .run := by decide
  have hstays : StaysBehind made "/x.tgz" :=
    ⟨["rm /tmp/b"], "curl -o /x.tgz u", [], by decide +kernel, by decide +kernel, by simp⟩
  have hremoved : ("/x.tgz" : Text) ∈ removing.removedFiles := by decide +kernel
  have hkept : ∀ path ∈ made.removedFiles, Artifact.same "/x.tgz" path = false := by decide +kernel
  obtain ⟨found, hfound, htells, -⟩ :=
    @left_file_found [base] [copy] [] made removing "/x.tgz" rfl rfl hbetween hstays hremoved
  obtain ⟨r, hr, hline, hsame⟩ := htells hkept
  have hlines : (cleanupArtifacts.inspect
      ([base] ++ made :: ([copy] ++ removing :: []))).map (·.map Finding.line) = .ok [4] := by
    decide +kernel
  rw [hfound] at hlines
  exact ⟨{ instructions := [base, made, copy, removing], warnings := [], escape := .backslash },
    base, made, copy, removing, "/x.tgz", found, r, by decide +kernel, rfl, rfl, rfl, hbetween,
    hstays, hremoved, hkept, hfound, hr, hline, hsame, Except.ok.inj hlines⟩

/-- An old file is removed before a new one is made in its place, and the next command removes the
new one: nothing is found. -/
theorem file_made_anew_missed :
    ∃ (d : Dockerfile) (base made removing : Instruction) (file : Text),
      Dockerfile.parse
        "FROM a\nRUN rm -f /tmp/a.zip && curl -o /tmp/a.zip https://h/a.zip\nRUN rm /tmp/a.zip\n" =
          .ok d ∧
      d.instructions = [base, made, removing] ∧ made.opcode = .run ∧ removing.opcode = .run ∧
      StaysBehind made file ∧ file ∈ removing.removedFiles ∧
      cleanupArtifacts.inspect d.instructions = .ok [] := by
  let run (line : Nat) (arguments : List Text) : Instruction :=
    { opcode := .run, arguments, line, endLine := line, raw := Text.joinWith " " arguments }
  let base : Instruction :=
    { opcode := .base, arguments := ["a"], line := 1, endLine := 1, raw := "a" }
  let made := run 2 ["rm", "-f", "/tmp/a.zip", "&&", "curl", "-o", "/tmp/a.zip", "https://h/a.zip"]
  let removing := run 3 ["rm", "/tmp/a.zip"]
  have hstays : StaysBehind made "/tmp/a.zip" :=
    ⟨["rm -f /tmp/a.zip"], "curl -o /tmp/a.zip https://h/a.zip", [], by decide +kernel,
      by decide +kernel, by simp⟩
  exact ⟨{ instructions := [base, made, removing], warnings := [], escape := .backslash }, base,
    made, removing, "/tmp/a.zip", by decide +kernel, rfl, rfl, rfl, hstays, by decide +kernel,
    by decide +kernel⟩

end Drydock.Rule
