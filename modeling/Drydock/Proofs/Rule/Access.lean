/-
  Accesses that rules make. What a rule asks for is always there: a piece of a split text, a file
  that was found among those created, the last of several steps, a share of some steps. So a rule
  that makes remarks by checked accesses is the one that makes them without
  (`minimalBaseImage_eq` and so on), and raises no fault.
-/
import Drydock.Proofs.Dockerfile.Access
import Drydock.Proofs.Dockerfile.Stage
import Drydock.Proofs.Except
import Drydock.Rule.Artifacts
import Drydock.Rule.BaseImage
import Drydock.Rule.BuildContext
import Drydock.Rule.Commands
import Drydock.Rule.Documentation
import Drydock.Rule.Secrets
import Drydock.Rule.User

namespace Drydock

/-! ## Pieces of texts -/

namespace Text

theorem item_splitOnce_zero (separator : Char) (t : Text) :
    Access.item (splitOnce separator t) 0 = .ok (cut separator t).1 := rfl

theorem exists_splitOn_eq (separator : Char) (t : Text) :
    ∃ rest, splitOn separator t = (cut separator t).1 :: rest := by
  unfold splitOn
  induction t with
  | nil => exact ⟨[], rfl⟩
  | cons c t ih =>
    obtain ⟨rest, hrest⟩ := ih
    by_cases hc : c = separator
    · exact ⟨splitWhere (· == separator) t, by simp [splitWhere, cut, hc]⟩
    · exact ⟨rest, by simp [splitWhere, cut, hc, hrest, pushFront]⟩

theorem item_splitOn_zero (separator : Char) (t : Text) :
    Access.item (splitOn separator t) 0 = .ok (cut separator t).1 := by
  obtain ⟨rest, hrest⟩ := exists_splitOn_eq separator t
  rw [hrest, Access.item_zero]

theorem last_splitOn (separator : Char) (t : Text) :
    Access.last (splitOn separator t) = .ok ((splitOn separator t).getLast?.getD []) := by
  obtain ⟨rest, hrest⟩ := exists_splitOn_eq separator t
  have hlast := List.getLast?_eq_some_getLast (l := splitOn separator t) (by simp [hrest])
  rw [Access.last_of_getLast? hlast, hlast]
  rfl

end Text

/-! ## Downloads -/

namespace Downloader

variable {d : Downloader}

theorem checkedCluster_eq (d : Downloader) (s : Scan) (cluster : Text) :
    d.checkedCluster s cluster = .ok (d.readCluster s cluster) := by
  unfold checkedCluster readCluster
  rw [Text.item_splitOn_zero]
  cases d.remoteFlag with
  | none => rfl
  | some flag => rfl

/-- The long form of a flag and its file are divided at the equals sign between them. -/
theorem item_splitOnce_one (hd : '=' ∉ d.longOutput) {argument : Text}
    (h : argument.startsWith (d.longOutput ++ ['=']) = true) :
    Access.item (Text.splitOnce '=' argument) 1 =
      .ok (argument.drop (d.longOutput.length + 1)) := by
  obtain ⟨file, rfl⟩ := List.isPrefixOf_iff_prefix.mp h
  rw [List.append_assoc, List.singleton_append, Text.splitOnce, Text.cut_append_of_not_mem hd]
  simp [Access.item]

theorem checkedArgument_eq (hd : '=' ∉ d.longOutput) (s : Scan) (argument : Text) :
    d.checkedArgument s argument = .ok (d.readArgument s argument) := by
  unfold checkedArgument readArgument
  rw [checkedCluster_eq]
  by_cases hlong : argument.startsWith (d.longOutput ++ ['=']) = true
  · rw [item_splitOnce_one hd hlong]
    simp only [hlong, if_true]
    split <;> rfl
  · simp only [hlong, Bool.false_eq_true, if_false]
    split_ifs <;> rfl

theorem checkedRemoteName_eq (url : Text) : checkedRemoteName url = .ok (remoteName url) := by
  unfold checkedRemoteName remoteName
  rw [Text.item_splitOnce_zero]
  exact Text.last_splitOn '/' _

theorem checkedNamed_eq (s : Scan) : s.checkedNamed = .ok s.named := by
  unfold Scan.checkedNamed Scan.named
  split
  · exact mapM_eq_ok fun url _ => checkedRemoteName_eq url
  · rfl

theorem checkedFiles_eq (hd : '=' ∉ d.longOutput) (arguments : List Text) :
    d.checkedFiles arguments = .ok (d.files arguments) := by
  have hscan : arguments.foldlM d.checkedArgument d.start =
      .ok (arguments.foldl d.readArgument d.start) := by
    rw [funext₂ (checkedArgument_eq hd)]
    exact List.foldlM_pure
  unfold checkedFiles files
  rw [hscan]
  show (Scan.checkedNamed _ >>= _) = _
  rw [checkedNamed_eq]
  rfl

end Downloader

/-! ## Files of a step -/

namespace Artifact

theorem checkedCreatedBy_eq (tool : Text) (arguments : List Text) :
    checkedCreatedBy tool arguments = .ok (createdBy tool arguments) := by
  have hcurl := Downloader.checkedFiles_eq (d := .curl) (by decide) arguments
  have hwget := Downloader.checkedFiles_eq (d := .wget) (by decide) arguments
  unfold checkedCreatedBy createdBy
  rw [hcurl, hwget]
  split
  · rfl
  · split
    · rfl
    · rfl

theorem checkedPlain_eq (words : List Text) : checkedPlain words = .ok (plain words) := by
  unfold checkedPlain
  cases words with
  | nil => rfl
  | cons first rest => rfl

theorem checkedCall_eq (segment : Text) : checkedCall segment = .ok (call? segment) := by
  unfold checkedCall call?
  rw [checkedPlain_eq]
  show (if List.isEmpty _ then _ else _) = _
  cases plain (Text.shellWords segment) with
  | nil => rfl
  | cons tool arguments => rfl

theorem checkedFiles_eq (segment : Text) :
    checkedFiles segment = .ok (removedIn segment, createdIn segment) := by
  unfold checkedFiles removedIn createdIn
  rw [checkedCall_eq]
  cases call? segment with
  | none => rfl
  | some call =>
    obtain ⟨tool, arguments⟩ := call
    show (if tool = "rm" then _ else _) = _
    rw [checkedCreatedBy_eq]
    by_cases htool : tool = "rm"
    · simp only [htool, if_true]
      rfl
    · simp only [htool, if_false]
      rfl

end Artifact

theorem Instruction.checkedFiles_eq (i : Instruction) :
    i.checkedFiles = .ok (i.removedFiles, i.createdFiles) := by
  unfold Instruction.checkedFiles
  rw [mapM_eq_ok fun segment _ => Artifact.checkedFiles_eq segment]
  show Except.ok _ = _
  rw [List.flatMap_map, List.flatMap_map]
  rfl

namespace Rule.Removal

theorem checkedSweep_eq (line : Nat) (created : Created) (paths : List Text) :
    checkedSweep line created paths = .ok (sweep line created paths) := by
  induction paths generalizing created with
  | nil => rfl
  | cons path rest ih =>
    have hfind : (created.keys.find? fun file => Artifact.same file path) =
        (take? created path).map Prod.fst := by
      rw [OrderedMap.keys, List.find?_map]
      rfl
    rw [checkedSweep, sweep, hfind]
    cases htake : take? created path with
    | none => exact ih created
    | some entry =>
      obtain ⟨file, createdAt⟩ := entry
      -- The file was found in the map, so it is there to be taken out.
      have hget : created.get? file = some createdAt :=
        OrderedMap.get?_eq_some_iff.mpr (List.mem_of_find?_eq_some htake)
      dsimp only [Option.map_some]
      rw [Access.pop_of_get? hget]
      show (checkedSweep line (created.erase file) rest >>= _) = _
      rw [ih]
      rfl

theorem checkedAfter_eq (created : Created) (instructions : List Instruction) :
    checkedAfter created instructions = .ok (after created instructions) := by
  induction instructions generalizing created with
  | nil => rfl
  | cons i rest ih =>
    rw [checkedAfter, after, Instruction.checkedFiles_eq]
    split
    · exact ih .empty
    · split
      · show (checkedSweep i.line created i.removedFiles >>= _) = _
        rw [checkedSweep_eq]
        show (checkedAfter _ rest >>= _) = _
        rw [ih]
        rfl
      · exact ih created

end Rule.Removal

/-! ## Rules -/

namespace Rule

theorem checkedFullImageRemarks_eq (denylist : List Text) (instructions : List Instruction) :
    checkedFullImageRemarks denylist instructions =
      .ok (fullImageRemarks denylist instructions) := by
  unfold checkedFullImageRemarks fullImageRemarks finalBase?
  rw [Stages.checkedSplit_eq]
  show (if List.isEmpty _ then _ else _) = _
  generalize (Stage.split instructions).stages = stages
  cases hlast : stages.getLast? with
  | none =>
    obtain rfl := List.getLast?_eq_none_iff.mp hlast
    rfl
  | some final =>
    have hne : stages ≠ [] := by
      rintro rfl
      exact absurd hlast (by simp)
    -- A lineage begins with the stage itself, so it has a last member.
    obtain ⟨rest, hrest⟩ : ∃ rest, Stage.lineage stages final = final :: rest :=
      Stage.exists_lineageFrom_eq _ final
    obtain ⟨root, hroot⟩ : ∃ root, (Stage.lineage stages final).getLast? = some root :=
      ⟨_, List.getLast?_eq_some_getLast (by simp [hrest])⟩
    rw [if_neg (by simpa using hne), Access.last_of_getLast? hlast]
    show (Access.last (Stage.lineage stages final) >>= _) = _
    rw [Access.last_of_getLast? hroot, Option.bind_some, hroot]
    rfl

theorem minimalBaseImage_eq (denylist : List Text) :
    minimalBaseImage denylist =
      ofRemarks "minimal-base-image" .warning (fullImageRemarks denylist) :=
  ofChecked_eq (checkedFullImageRemarks_eq denylist) _ _

theorem explicitTag_eq : explicitTag = ofRemarks "explicit-tag" .error tagRemarks := by
  refine ofChecked_eq (fun instructions => ?_) _ _
  rw [checkedTagRemarks, Stages.checkedSplit_eq]
  rfl

theorem layerCachingOrder_eq :
    layerCachingOrder = ofRemarks "layer-caching-order" .warning layerOrderRemarks := by
  refine ofChecked_eq (fun instructions => ?_) _ _
  rw [checkedLayerOrderRemarks, Stages.checkedSplit_eq]
  rfl

theorem checkedInstallBlockRemarks_eq (instructions : List Instruction) :
    checkedInstallBlockRemarks instructions = .ok (installBlockRemarks instructions) := by
  refine mapM_eq_ok fun block hblock => ?_
  have hsize := of_decide_eq_true (List.mem_filter.mp hblock).2
  cases block with
  | nil => exact absurd hsize (by simp)
  | cons first rest => rfl

theorem consolidateRun_eq :
    consolidateRun = ofRemarks "consolidate-run" .warning installBlockRemarks :=
  ofChecked_eq checkedInstallBlockRemarks_eq _ _

theorem cleanupArtifacts_eq :
    cleanupArtifacts = ofRemarks "cleanup-artifacts" .warning artifactRemarks := by
  refine ofChecked_eq (fun instructions => ?_) _ _
  rw [checkedArtifactRemarks, Removal.checkedAfter_eq]
  rfl

theorem checkedFinalSteps_eq (instructions : List Instruction) :
    checkedFinalSteps instructions = .ok (finalSteps instructions) := by
  unfold checkedFinalSteps finalSteps
  rw [Stages.checkedSplit_eq]
  show (if List.isEmpty _ then _ else _) = _
  generalize (Stage.split instructions).stages = stages
  dsimp only
  cases hlast : stages.getLast? with
  | none =>
    obtain rfl := List.getLast?_eq_none_iff.mp hlast
    rfl
  | some final =>
    have hne : stages ≠ [] := by
      rintro rfl
      exact absurd hlast (by simp)
    rw [if_neg (by simpa using hne), Access.last_of_getLast? hlast]
    rfl

theorem checkedUserRemarks_eq (instructions : List Instruction) :
    checkedUserRemarks instructions = .ok (userRemarks instructions) := by
  unfold checkedUserRemarks userRemarks
  rw [checkedFinalSteps_eq]
  obtain ⟨steps, anchor⟩ := finalSteps instructions
  show (if List.isEmpty _ then _ else _) = _
  dsimp only
  cases hlast : (steps.filter fun i => i.opcode = .user).getLast? with
  | none =>
    rw [List.getLast?_eq_none_iff.mp hlast]
    rfl
  | some i =>
    have hne : (steps.filter fun i => i.opcode = .user) ≠ [] := by
      intro hnil
      exact absurd hlast (by simp [hnil])
    rw [if_neg (by simpa using hne), Access.last_of_getLast? hlast]
    show (Access.itemOr i.arguments 0 [] "tuple" >>= _) = _
    rw [Access.itemOr_eq, ← List.head?_eq_getElem?]
    rfl

theorem nonRootUser_eq : nonRootUser = ofRemarks "non-root-user" .error userRemarks :=
  ofChecked_eq checkedUserRemarks_eq _ _

theorem checkedSecretRemarksOf_eq (i : Instruction) :
    checkedSecretRemarksOf i = .ok ((literalSecrets i).map (secretRemark i)) := by
  unfold checkedSecretRemarksOf literalSecrets
  rw [Instruction.checkedKeyValues_eq]
  split <;> rfl

theorem envNoSecrets_eq : envNoSecrets = ofRemarks "env-no-secrets" .error secretRemarks := by
  refine ofChecked_eq (fun instructions => ?_) _ _
  rw [checkedSecretRemarks, mapM_eq_ok fun i _ => checkedSecretRemarksOf_eq i]
  rfl

theorem documented_eq (threshold : Float) :
    documented threshold = ofRemarks "documented" .info (documentationRemarks threshold) := by
  refine ofChecked_eq (fun instructions => ?_) _ _
  unfold checkedDocumentationRemarks documentationRemarks
  cases instructions with
  | nil => rfl
  | cons i rest =>
    rw [if_neg (by simp), checkedShare, if_neg (by simp)]
    refine congrArg Except.ok (if_congr ?_ rfl rfl)
    rw [List.isEmpty_cons, Bool.false_or, decide_eq_true_iff, commentedShare]

end Rule

end Drydock
