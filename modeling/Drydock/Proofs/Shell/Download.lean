/-
  How a downloader is told where to put what it fetches. The file may be the next argument or stand
  behind the letter of the flag, which may be the last of several; the long form takes it as the
  next argument or behind an equals sign. All of these add the file to the ones named before and
  await nothing (`foldl_of_namesOutput`), and which files the later arguments name does not depend
  on those (`Follows.foldl`). So a call leaves the same files behind in every spelling
  (`output_spelled_alike`).
-/
import Drydock.Proofs.Rule.Access

namespace Drydock.Downloader

/-! ## Spellings -/

/-- The downloaders by the names of their tools. -/
def tools : List (Text × Downloader) := [("curl", curl), ("wget", wget)]

/-- The flags of a downloader: one of the two letters for each short one, two dashes in front of the
long one. -/
structure HasUsualFlags (d : Downloader) : Prop where
  output : d.outputFlag = 'o' ∨ d.outputFlag = 'O'
  remote : ∀ flag, d.remoteFlag = some flag → flag = 'o' ∨ flag = 'O'
  long : ∃ name, d.longOutput = '-' :: '-' :: name

/-- Letters of other flags, which may stand in front of the one that names the file. -/
def IsCluster (cluster : Text) : Prop :=
  ∀ c ∈ cluster, Text.isLetter c = true ∧ c ≠ 'o' ∧ c ≠ 'O'

/-- The ways to name the file; a cluster without letters leaves the flag alone. -/
inductive NamesOutput (d : Downloader) (file : Text) : List Text → Prop
  | short {cluster : Text} (h : IsCluster cluster) :
    NamesOutput d file ['-' :: (cluster ++ [d.outputFlag]), file]
  | shortAttached {cluster : Text} (h : IsCluster cluster) :
    NamesOutput d file ['-' :: (cluster ++ d.outputFlag :: file)]
  | long : NamesOutput d file [d.longOutput, file]
  | longAttached : NamesOutput d file [d.longOutput ++ '=' :: file]

variable {d : Downloader} {tool file : Text} {s : Scan}

theorem hasUsualFlags_of_mem_tools (h : (tool, d) ∈ tools) : d.HasUsualFlags := by
  rcases List.mem_pair.mp h with h | h <;> obtain ⟨rfl, rfl⟩ := Prod.mk.inj h
  · exact ⟨.inl rfl, fun flag h => .inr (Option.some.inj h).symm, ⟨_, rfl⟩⟩
  · exact ⟨.inr rfl, fun flag h => absurd h (by simp [wget]), ⟨_, rfl⟩⟩

theorem createdBy_of_mem_tools (h : (tool, d) ∈ tools) (arguments : List Text) :
    Artifact.createdBy tool arguments = d.files arguments := by
  rcases List.mem_pair.mp h with h | h <;> obtain ⟨rfl, rfl⟩ := Prod.mk.inj h <;> rfl

/-! ## Reading one argument -/

/-- What an awaited argument looks like makes no difference. -/
theorem readArgument_of_awaited (h : s.expectsOutput = true) (argument : Text) :
    d.readArgument s argument = { s.output argument with expectsOutput := false } :=
  if_pos h

theorem readArgument_long (h : s.expectsOutput = false) :
    d.readArgument s d.longOutput = { s with expectsOutput := true } := by
  have hbare : d.longOutput.startsWith (d.longOutput ++ ['=']) = false := by
    refine Bool.eq_false_iff.mpr fun hprefix => ?_
    have hle := (List.isPrefixOf_iff_prefix.mp hprefix).length_le
    rw [List.length_append, List.length_singleton] at hle
    omega
  simp [readArgument, h, hbare]

theorem readArgument_longAttached (h : s.expectsOutput = false) (file : Text) :
    d.readArgument s (d.longOutput ++ '=' :: file) = s.output file := by
  have hprefix : (d.longOutput ++ '=' :: file).startsWith (d.longOutput ++ ['=']) = true :=
    List.isPrefixOf_iff_prefix.mpr ⟨file, by simp⟩
  simp [readArgument, h, hprefix]

/-- A dash in front of anything but a dash begins a cluster of flags. -/
theorem readArgument_dash (hd : d.HasUsualFlags) (h : s.expectsOutput = false) {c : Char}
    (hc : c ≠ '-') (cluster : Text) :
    d.readArgument s ('-' :: c :: cluster) = d.readCluster s (c :: cluster) := by
  obtain ⟨name, hname⟩ := hd.long
  simp [readArgument, h, hname, Text.startsWith, hc, Ne.symm hc]

/-- A cluster with the output flag behind letters of other flags only names a file. -/
theorem readCluster_named (hd : d.HasUsualFlags) {cluster : Text} (h : IsCluster cluster)
    (s : Scan) (file : Text) :
    d.readCluster s (cluster ++ d.outputFlag :: file) = s.attached (some file) := by
  have hoe {flag : Char} (hflag : flag = 'o' ∨ flag = 'O') : flag ∉ cluster := by
    intro hmem
    exact hflag.elim (h flag hmem).2.1 (h flag hmem).2.2
  have hremote : d.remoteFlag.any cluster.contains = false := by
    cases hflag : d.remoteFlag with
    | none => rfl
    | some flag => simpa using hoe (hd.remote flag hflag)
  unfold readCluster
  rw [Text.cut_append_of_not_mem (hoe hd.output)]
  dsimp only
  rw [hremote, if_neg Bool.false_ne_true]

theorem readArgument_cluster (hd : d.HasUsualFlags) (hs : s.expectsOutput = false) {cluster : Text}
    (h : IsCluster cluster) (file : Text) :
    d.readArgument s ('-' :: (cluster ++ d.outputFlag :: file)) = s.attached (some file) := by
  rw [← readCluster_named hd h]
  cases cluster with
  | nil =>
    have hc : d.outputFlag ≠ '-' := by rcases hd.output with h | h <;> rw [h] <;> decide
    exact readArgument_dash hd hs hc file
  | cons c cluster =>
    have hc : c ≠ '-' := by
      rintro rfl
      exact absurd (h '-' List.mem_cons_self).1 (by decide)
    exact readArgument_dash hd hs hc _

/-! ## Reading a spelling -/

/-- However a file is named, it is noted behind the others, and no argument is awaited. -/
theorem foldl_of_namesOutput (hd : d.HasUsualFlags) (hs : s.expectsOutput = false)
    (hfile : file ≠ []) {spelled : List Text} (h : NamesOutput d file spelled) :
    spelled.foldl d.readArgument s = s.output file := by
  have hawaited : d.readArgument { s with expectsOutput := true } file = s.output file := by
    rw [readArgument_of_awaited rfl, Scan.output, Scan.output, hs]
  cases h with
  | short h =>
    rw [List.foldl_cons, readArgument_cluster hd hs h]
    exact hawaited
  | shortAttached h =>
    rw [List.foldl_cons, readArgument_cluster hd hs h]
    obtain ⟨c, file, rfl⟩ := List.exists_cons_of_ne_nil hfile
    rfl
  | long =>
    rw [List.foldl_cons, readArgument_long hs]
    exact hawaited
  | longAttached => exact readArgument_longAttached hs file

/-! ## Reading a call -/

/-- What is read of the arguments of a call. -/
def scan (d : Downloader) (arguments : List Text) : Scan := arguments.foldl d.readArgument d.start

/-- Two readings of the same arguments, one of them behind other files and addresses. -/
structure Follows (front : List Text) (s s' : Scan) : Prop where
  outputs : s.outputs = front ++ s'.outputs
  awaits : s.expectsOutput = s'.expectsOutput

variable {front : List Text} {s' : Scan}

theorem Follows.output (h : Follows front s s') (file : Text) :
    Follows front (s.output file) (s'.output file) where
  outputs := by rw [Scan.output, h.outputs, List.append_assoc]; rfl
  awaits := h.awaits

theorem Follows.attached (h : Follows front s s') (file : Option Text) :
    Follows front (s.attached file) (s'.attached file) := by
  match file with
  | none => exact h
  | some [] => exact ⟨h.outputs, rfl⟩
  | some (c :: file) => exact h.output (c :: file)

theorem Follows.readCluster (h : Follows front s s') (d : Downloader) (cluster : Text) :
    Follows front (d.readCluster s cluster) (d.readCluster s' cluster) := by
  have hattached := h.attached (Text.cut d.outputFlag cluster).2
  unfold Downloader.readCluster
  dsimp only
  split
  · exact ⟨hattached.outputs, hattached.awaits⟩
  · exact hattached

/-- One argument names the same files in both readings, and awaits one in both or in none. -/
theorem Follows.readArgument (h : Follows front s s') (d : Downloader) (argument : Text) :
    Follows front (d.readArgument s argument) (d.readArgument s' argument) := by
  unfold Downloader.readArgument
  rw [h.awaits]
  split_ifs
  · exact ⟨(h.output argument).outputs, rfl⟩
  · exact h.output _
  · exact ⟨h.outputs, rfl⟩
  · exact ⟨h.outputs, rfl⟩
  · exact h.readCluster d _
  · exact ⟨h.outputs, rfl⟩
  · exact h

theorem Follows.foldl (h : Follows front s s') (d : Downloader) (arguments : List Text) :
    Follows front (arguments.foldl d.readArgument s) (arguments.foldl d.readArgument s') := by
  induction arguments generalizing s s' with
  | nil => exact h
  | cons argument arguments ih => exact ih (h.readArgument d argument)

/-- The files that a call names are those before the one that is spelled, this one, and those behind
it. -/
theorem outputs_of_namesOutput (hd : d.HasUsualFlags) {before : List Text}
    (hbefore : (d.scan before).expectsOutput = false) (hfile : file ≠ []) {spelled : List Text}
    (h : NamesOutput d file spelled) (behind : List Text) :
    (d.scan (before ++ spelled ++ behind)).outputs =
      (d.scan before).outputs ++ file :: (d.scan behind).outputs := by
  have hread : d.scan (before ++ spelled ++ behind) =
      behind.foldl d.readArgument ((d.scan before).output file) := by
    rw [scan, List.foldl_append, List.foldl_append]
    exact congrArg (behind.foldl d.readArgument) (foldl_of_namesOutput hd hbefore hfile h)
  have hfollows :
      Follows ((d.scan before).outputs ++ [file]) ((d.scan before).output file) d.start :=
    ⟨(List.append_nil _).symm, hbefore⟩
  rw [hread, (hfollows.foldl d behind).outputs, List.append_assoc, List.singleton_append]
  rfl

/-- Files that were named are left behind, and no names are taken from addresses. -/
theorem files_of_outputs_ne_nil {arguments : List Text} (h : (d.scan arguments).outputs ≠ []) :
    d.files arguments = (d.scan arguments).outputs.filter isFileName := by
  have hnamed : (d.scan arguments).named = (d.scan arguments).outputs := by
    simp [Scan.named, h]
  exact congrArg (List.filter isFileName) hnamed

theorem isFileName_iff : isFileName file = true ↔ file ≠ [] ∧ file ≠ "-" := by
  simp [isFileName]

/--
Where no file is awaited, a call of a downloader leaves the same files behind in whatever way the
next file is named: those named before it, the file, and those named behind it, but neither the
empty name nor the one that stands for the output. The file is one of them unless it is that name.
-/
theorem output_spelled_alike (h : (tool, d) ∈ tools) (hfile : file ≠ []) {before : List Text}
    (hbefore : (d.scan before).expectsOutput = false) (behind : List Text) :
    ∃ files : List Text,
      (∀ spelled, NamesOutput d file spelled →
        Artifact.checkedCreatedBy tool (before ++ spelled ++ behind) = .ok files) ∧
      files = ((d.scan before).outputs ++ file :: (d.scan behind).outputs).filter isFileName ∧
      (file ∈ files ↔ file ≠ "-") ∧ [] ∉ files ∧ "-".toList ∉ files := by
  refine ⟨_, fun spelled hspelled => ?_, rfl, ?_, ?_, ?_⟩
  · have houtputs := outputs_of_namesOutput (hasUsualFlags_of_mem_tools h) hbefore hfile hspelled
      behind
    have hsome : (d.scan (before ++ spelled ++ behind)).outputs ≠ [] := by
      rw [houtputs]
      exact List.append_ne_nil_of_right_ne_nil _ (List.cons_ne_nil _ _)
    rw [Artifact.checkedCreatedBy_eq, createdBy_of_mem_tools h, files_of_outputs_ne_nil hsome,
      houtputs]
  · simp [List.mem_filter, isFileName_iff, hfile]
  · simp [List.mem_filter, isFileName_iff]
  · simp [List.mem_filter, isFileName_iff]

/-- A file whose name looks like a flag with an equals sign, between one that is named as the next
argument and the output. -/
theorem output_spelled_alike_of_dashed_name :
    ("wget".toList, wget) ∈ tools ∧ "-O=o".toList ≠ [] ∧
      (wget.scan ["-q", "-O", "a"]).expectsOutput = false ∧
      NamesOutput wget "-O=o" ["-qnO-O=o"] ∧
      NamesOutput wget "-O=o" ["--output-document", "-O=o"] ∧
      Artifact.checkedCreatedBy "wget" (["-q", "-O", "a"] ++ ["-qnO-O=o"] ++ ["-O-", "h://x"]) =
        .ok ["a", "-O=o"] ∧
      Artifact.checkedCreatedBy "wget"
          (["-q", "-O", "a"] ++ ["--output-document", "-O=o"] ++ ["-O-", "h://x"]) =
        .ok ["a", "-O=o"] := by
  have hcluster : IsCluster "qn" := List.forall_iff_forall_mem.mp (by decide)
  have hshort : NamesOutput wget "-O=o" ["-qnO-O=o"] := .shortAttached hcluster
  have hlong : NamesOutput wget "-O=o" ["--output-document", "-O=o"] := .long
  have htool : ("wget".toList, wget) ∈ tools := by decide
  have hbefore : (wget.scan ["-q", "-O", "a"]).expectsOutput = false := by decide
  obtain ⟨files, hfiles, heq, -⟩ :=
    @output_spelled_alike wget "wget" "-O=o" htool (by decide) _ hbefore ["-O-", "h://x"]
  have hleft : files = ["a".toList, "-O=o".toList] := heq.trans (by decide)
  rw [hleft] at hfiles
  have hattached := hfiles _ hshort
  have hapart := hfiles _ hlong
  exact ⟨htool, by decide, hbefore, hshort, hlong, hattached, hapart⟩

end Drydock.Downloader
