/-
  Images on a denylist. An entry is stripped and set in small letters as it is, but an image is looked
  up by its short name. So an entry does not tell the image that it names if this name begins with a
  default registry or with the collection of official images, and other entries do
  (`listed_image_found`). All spellings of an official image are judged alike
  (`official_spellings_alike`).
-/
import Drydock.Dockerfile.Parser
import Drydock.Proofs.Dockerfile.Rebase
import Drydock.Proofs.Dockerfile.ShortName
import Drydock.Proofs.Rule.Access
import Drydock.Proofs.Text.Fields

namespace Drydock

open ImageReference (HasDefaultFront officialFronts Written)

namespace Rule

variable {denylist : List Text} {front back : List Instruction} {i : Instruction}

/-! ## Entries -/

theorem mem_denied_iff {name : Text} : name ∈ denied denylist ↔
    name ≠ [] ∧ ∃ entry ∈ denylist, Text.lower (Text.strip entry) = name := by
  simp [denied, and_comm]

/-- An entry tells an image with a short name and a tag: in small letters and without blanks around
it, it is the short name with the tag, or the short name, if the tag tells no small variant. -/
def Tells (entry short tag : Text) : Prop :=
  Text.lower (Text.strip entry) = short ++ ':' :: Text.lower tag ∨
    (Text.lower (Text.strip entry) = short ∧ short ≠ [] ∧
      ∀ marker ∈ slimMarkers, Text.includes marker (Text.lower tag) = false)

theorem isFullImage_iff {short tag : Text} :
    isFullImage (denied denylist) short (some tag) = true ↔
      ∃ entry ∈ denylist, Tells entry short tag := by
  have hslim : (!slimMarkers.any fun marker => Text.includes marker (Text.lower tag)) = true ↔
      ∀ marker ∈ slimMarkers, Text.includes marker (Text.lower tag) = false := by
    rw [Bool.not_eq_true', List.any_eq_false]
    simp only [Bool.not_eq_true]
  unfold isFullImage
  dsimp only
  rw [Bool.or_eq_true, Bool.and_eq_true, hslim, List.contains_iff_mem, List.contains_iff_mem,
    mem_denied_iff, mem_denied_iff]
  constructor
  · rintro (⟨-, entry, hentry, hlower⟩ | ⟨⟨hne, entry, hentry, hlower⟩, hfull⟩)
    · exact ⟨entry, hentry, Or.inl hlower⟩
    · exact ⟨entry, hentry, Or.inr ⟨hlower, hne, hfull⟩⟩
  · rintro ⟨entry, hentry, hlower | ⟨hlower, hne, hfull⟩⟩
    · exact Or.inl ⟨by simp, entry, hentry, hlower⟩
    · exact Or.inr ⟨⟨hne, entry, hentry, hlower⟩, hfull⟩

/-- An entry that is an image with its tag tells this image just if the image is called by its short
name, and if its small letters are those of its name and its tag. -/
theorem tells_self_iff {name tag : Text} {r : ImageReference} (hr : r.name = Text.lower name)
    (hword : Text.IsWord (name ++ ':' :: tag)) :
    Tells (name ++ ':' :: tag) r.shortName tag ↔ ¬HasDefaultFront r.name ∧
      Text.lower (name ++ ':' :: tag) = Text.lower name ++ ':' :: Text.lower tag := by
  have hstrip : Text.strip (name ++ ':' :: tag) = name ++ ':' :: tag := hword.isTight.2
  have hlength : (Text.lower (name ++ ':' :: tag)).length =
      r.name.length + 1 + (Text.lower tag).length := by
    rw [hr, List.append_cons, Text.length_lower_append, Text.length_lower_append]
    rfl
  unfold Tells
  rw [hstrip]
  by_cases hfront : HasDefaultFront r.name
  · have hshorter := ImageReference.length_shortName_lt hfront
    refine iff_of_false ?_ fun h => h.1 hfront
    rintro (hlower | ⟨hlower, -⟩)
    · have := congrArg List.length hlower
      simp only [List.length_append, List.length_cons] at this
      omega
    · have := congrArg List.length hlower
      omega
  · rw [ImageReference.shortName_of_plain hfront, and_iff_right hfront, hr]
    refine or_iff_left ?_
    rintro ⟨hlower, -⟩
    have := congrArg List.length hlower
    rw [← hr] at this
    omega

/-- Without a capital sigma, the small letters of an image with a tag are those of its parts. -/
theorem lower_named {name tag : Text} (h : Text.capitalSigma ∉ name ++ ':' :: tag) :
    Text.lower (name ++ ':' :: tag) = Text.lower name ++ ':' :: Text.lower tag := by
  have hparts := h
  rw [List.mem_append, List.mem_cons, not_or, not_or] at hparts
  rw [Text.lower_eq_flatMap h, List.flatMap_append, List.flatMap_cons,
    Text.lower_eq_flatMap hparts.1, Text.lower_eq_flatMap hparts.2.2]
  rfl

/-! ## The judged image -/

/-- What is found about an image that is full. -/
def fullImageFinding (line : Nat) (text : Text) : Finding :=
  ⟨"minimal-base-image", .warning, line, fullImageMessage text⟩

/-- If the last stage rests on the one that a step opens, then the image of this step is judged. -/
theorem inspect_of_restsOn (denylist : List Text) (h : Stage.RestsOn front i back) {w : Written}
    {line : Nat} (hlegible : w.IsLegible) (hi : w.IsStep line i) :
    (minimalBaseImage denylist).inspect (front ++ i :: back) =
      .ok (if (w.image line).digest.isNone &&
          isFullImage (denied denylist) (w.image line).shortName (w.image line).tag then
        [fullImageFinding line w.text] else []) := by
  have hbase : (Stage.opened front i back).base = w.image line :=
    ImageReference.Written.ofInstruction_of_isStep hlegible hi _
  have hfinal : finalBase? (Stage.split (front ++ i :: back)).stages = some (w.image line) := by
    rw [← hbase]
    exact congrArg (Option.map Stage.base) h
  have hjudged : finalBaseRemarks denylist (w.image line) =
      if (w.image line).digest.isNone &&
          isFullImage (denied denylist) (w.image line).shortName (w.image line).tag then
        [((line : Int), fullImageMessage w.text)] else [] := rfl
  rw [minimalBaseImage_eq, ofRemarks]
  dsimp only
  rw [fullImageRemarks, hfinal]
  dsimp only
  rw [hjudged]
  split <;> rfl

/--
Let the last stage be opened by an image with a tag and without a digest. The rule about minimal
images finds one fault, at the line of this step, just if some entry of the denylist tells the image,
and otherwise nothing. The entry that is the image as it is written tells it just if the name is its
own short name, and if the small letters of the whole are those of its parts. So an image that is on
the denylist as it is written is found, whatever its tag says, unless its name begins with a default
registry or with the collection of official images, or a capital sigma is in it.
-/
theorem listed_image_found (denylist : List Text) {front back : List Instruction} {w : Written}
    {tag : Text} {line : Nat} {i : Instruction} (h : w.IsLegible) (htag : w.tag = some tag)
    (hne : tag ≠ []) (hdigest : w.digest = none) (hword : Text.IsWord w.text)
    (hi : w.IsStep line i) (hback : ∀ j ∈ back, j.opcode ≠ .base) :
    let inspected := (minimalBaseImage denylist).inspect (front ++ i :: back)
    let short := (w.image line).shortName
    ((∃ entry ∈ denylist, Tells entry short tag) →
      inspected = .ok [fullImageFinding line w.text]) ∧
    ((∀ entry ∈ denylist, ¬Tells entry short tag) → inspected = .ok []) ∧
    (Tells w.text short tag ↔ ¬HasDefaultFront (Text.lower w.name) ∧
      Text.lower w.text = Text.lower w.name ++ ':' :: Text.lower tag) ∧
    (w.text ∈ denylist → ¬HasDefaultFront (Text.lower w.name) → Text.capitalSigma ∉ w.text →
      inspected = .ok [fullImageFinding line w.text]) := by
  have htext : w.text = w.name ++ ':' :: tag := by
    simp [ImageReference.Written.text, ImageReference.Written.named, htag, hdigest]
  have himage : (w.image line).tag = some tag ∧ (w.image line).digest = none := by
    constructor
    · rw [ImageReference.Written.image, htag]
      exact if_neg (by simpa using hne)
    · rw [ImageReference.Written.image, hdigest]
      rfl
  have hpinned : (Stage.opened front i back).base.isPinned = true := by
    rw [Stage.opened, ImageReference.Written.ofInstruction_of_isStep h hi,
      ImageReference.isPinned, himage.1]
    rfl
  have hself := tells_self_iff (r := w.image line) rfl (htext ▸ hword)
  rw [← htext] at hself
  dsimp only
  rw [inspect_of_restsOn denylist (Stage.restsOn_of_isPinned hi.opcode hback hpinned) h hi,
    himage.1, himage.2, Option.isNone_none, Bool.true_and]
  refine ⟨fun hlisted => ?_, fun hother => ?_, hself, fun hmem hplain hsigma => ?_⟩
  · rw [if_pos (isFullImage_iff.mpr hlisted)]
  · have hnone : ¬∃ entry ∈ denylist, Tells entry (w.image line).shortName tag := by
      rintro ⟨entry, hentry, htells⟩
      exact hother entry hentry htells
    rw [if_neg (mt isFullImage_iff.mp hnone)]
  · have hlower : Text.lower w.text = Text.lower w.name ++ ':' :: Text.lower tag := by
      rw [htext] at hsigma ⊢
      exact lower_named hsigma
    rw [if_pos (isFullImage_iff.mpr ⟨w.text, hmem, hself.mpr ⟨hplain, hlower⟩⟩)]

/-- The name has the port of a registry, capital letters and a tag that tells a small variant, and it
stands on the denylist as it is written. -/
theorem listed_image_found_of_registry_port :
    ∃ (d : Dockerfile) (w : Written) (front back : List Instruction) (i : Instruction),
      Dockerfile.parse "FROM golang:1.22 AS build\nFROM Quay.io:443/Base:1.0-slim\nRUN x\n" = .ok d ∧
      d.instructions = front ++ i :: back ∧ w.IsLegible ∧ w.tag = some "1.0-slim" ∧
      w.digest = none ∧ Text.IsWord w.text ∧ w.IsStep 2 i ∧
      (∀ j ∈ back, j.opcode ≠ .base) ∧ w.text = "Quay.io:443/Base:1.0-slim" ∧
      (minimalBaseImage ["golang", "Quay.io:443/Base:1.0-slim"]).inspect d.instructions =
        .ok [fullImageFinding 2 "Quay.io:443/Base:1.0-slim"] := by
  let w : Written :=
    { flags := []
      name := "Quay.io:443/Base"
      tag := some "1.0-slim"
      digest := none
      naming := none }
  let front : List Instruction :=
    [{ opcode := .base, arguments := ["golang:1.22", "AS", "build"], line := 1, endLine := 1,
        raw := "golang:1.22 AS build" }]
  let i : Instruction :=
    { opcode := .base, arguments := ["Quay.io:443/Base:1.0-slim"], line := 2, endLine := 2,
        raw := "Quay.io:443/Base:1.0-slim" }
  let back : List Instruction :=
    [{ opcode := .run, arguments := ["x"], line := 3, endLine := 3, raw := "x" }]
  let d : Dockerfile := { instructions := front ++ i :: back, warnings := [], escape := .backslash }
  have hlegible : w.IsLegible := by constructor <;> decide
  have hword : Text.IsWord w.text := by decide
  have hstep : w.IsStep 2 i := by constructor <;> decide
  have hback : ∀ j ∈ back, j.opcode ≠ .base := by decide
  have hfound : (minimalBaseImage ["golang", "Quay.io:443/Base:1.0-slim"]).inspect
      (front ++ i :: back) = .ok [fullImageFinding 2 "Quay.io:443/Base:1.0-slim"] :=
    (listed_image_found _ hlegible rfl (by decide) rfl hword hstep hback).2.2.2 (by decide)
      (by decide +kernel) (by decide)
  exact ⟨d, w, front, back, i, by decide +kernel, rfl, hlegible, rfl, rfl, hword, hstep, hback, rfl,
    hfound⟩

/-- An image of the default registry is not found though it is on the denylist as it is written. -/
theorem listed_image_of_default_registry_missed :
    ∃ d : Dockerfile,
      Dockerfile.parse "FROM docker.io/library/ubuntu:22.04\n" = .ok d ∧
      d.instructions.map Instruction.arguments =
        ([["docker.io/library/ubuntu:22.04"]] : List (List Text)) ∧
      (minimalBaseImage ["docker.io/library/ubuntu:22.04"]).inspect d.instructions = .ok [] := by
  let i : Instruction :=
    { opcode := .base, arguments := ["docker.io/library/ubuntu:22.04"], line := 1, endLine := 1,
        raw := "docker.io/library/ubuntu:22.04" }
  exact ⟨{ instructions := [i], warnings := [], escape := .backslash }, by decide +kernel, rfl,
    by decide +kernel⟩

/-! ## Spellings of one image -/

/-- Steps that open a stage, on some line, on an official image in each of its spellings. Its own name
has no colon and does not begin with a default front. -/
structure OpensOfficial (w : Written) (line : Nat) (opening : Text → Instruction) : Prop where
  legible : w.IsLegible
  colon_not_mem_name : ':' ∉ w.name
  plain : ¬HasDefaultFront (Text.lower w.name)
  isStep : ∀ q ∈ officialFronts, (w.respell q).IsStep line (opening q)

section Official

variable {w : Written} {line : Nat} {opening : Text → Instruction} {p q : Text}

theorem base_opened_official (h : OpensOfficial w line opening) (hq : q ∈ officialFronts) :
    (Stage.opened front (opening q) back).base = (w.respell q).image line :=
  ImageReference.Written.ofInstruction_of_isStep (h.legible.respell h.colon_not_mem_name hq)
    (h.isStep q hq) _

/-- Where no stage is named like two spellings, the last stage rests on both images or on none. -/
theorem restsOn_official_iff (h : OpensOfficial w line opening) (hp : p ∈ officialFronts)
    (hq : q ∈ officialFronts)
    (hnames : (w.image line).isPinned = false → ∀ r ∈ officialFronts, Text.lower (r ++ w.name) ∉
      Stage.names (Stage.split (front ++ opening p :: back)).stages) :
    Stage.RestsOn front (opening q) back ↔ Stage.RestsOn front (opening p) back := by
  refine Stage.restsOn_iff (h.isStep p hp).opcode (h.isStep q hq).opcode ?_
  rw [base_opened_official h hq]
  constructor
  all_goals rw [base_opened_official h hp]
  · rfl
  · rfl
  · exact fun hunpinned => hnames hunpinned p hp
  · exact fun hunpinned => hnames hunpinned q hq

/-- Whether an official image is full is judged by its own name, its tag and its digest. -/
theorem inspect_official (denylist : List Text) (h : OpensOfficial w line opening)
    (hq : q ∈ officialFronts) (hroot : Stage.RestsOn front (opening q) back) :
    (minimalBaseImage denylist).inspect (front ++ opening q :: back) =
      .ok (if (w.image line).digest.isNone &&
          isFullImage (denied denylist) (Text.lower w.name) (w.image line).tag then
        [fullImageFinding line (q ++ w.text)] else []) := by
  rw [inspect_of_restsOn denylist hroot (h.legible.respell h.colon_not_mem_name hq) (h.isStep q hq),
    ImageReference.Written.shortName_respell h.plain hq, ImageReference.Written.text_respell]
  rfl

end Official

/--
Let some step open a stage on an official image, which may be written with a name of the default
registry in front, with the collection of official images, with both or with none. If the image is
pinned, or no stage is named like a spelling of it, then the last stage rests on the image in all of
its spellings or in none. If the last stage rests on it in all of them, then the rule about minimal
images finds one fault at the line of this step in all of them or nothing in any, whatever the denylist
has.
-/
theorem official_spellings_alike (denylist : List Text) {front back : List Instruction} {w : Written}
    {line : Nat} {opening : Text → Instruction} (h : OpensOfficial w line opening) :
    let file (q : Text) := front ++ opening q :: back
    (((w.image line).isPinned = false → ∀ p ∈ officialFronts, ∀ q ∈ officialFronts,
        Text.lower (q ++ w.name) ∉ Stage.names (Stage.split (file p)).stages) →
      (∀ q ∈ officialFronts, Stage.RestsOn front (opening q) back) ∨
        ∀ q ∈ officialFronts, ¬Stage.RestsOn front (opening q) back) ∧
    ((∀ q ∈ officialFronts, Stage.RestsOn front (opening q) back) →
      (∀ q ∈ officialFronts, (minimalBaseImage denylist).inspect (file q) =
        .ok [fullImageFinding line (q ++ w.text)]) ∨
      ∀ q ∈ officialFronts, (minimalBaseImage denylist).inspect (file q) = .ok []) := by
  refine ⟨fun hnames => ?_, fun hroot => ?_⟩
  · have hplain : ([] : Text) ∈ officialFronts := .head _
    have hsame {q : Text} (hq : q ∈ officialFronts) :
        Stage.RestsOn front (opening q) back ↔ Stage.RestsOn front (opening []) back :=
      restsOn_official_iff h hplain hq fun hunpinned => hnames hunpinned [] hplain
    by_cases hrests : Stage.RestsOn front (opening []) back
    · exact Or.inl fun q hq => (hsame hq).mpr hrests
    · exact Or.inr fun q hq => mt (hsame hq).mp hrests
  · have hinspect {q : Text} (hq : q ∈ officialFronts) :=
      inspect_official denylist h hq (hroot q hq)
    by_cases hfull : ((w.image line).digest.isNone &&
        isFullImage (denied denylist) (Text.lower w.name) (w.image line).tag) = true
    · exact Or.inl fun q hq => by rw [hinspect hq, if_pos hfull]
    · exact Or.inr fun q hq => by rw [hinspect hq, if_neg hfull]

/-- An official image without a tag, in capital letters, opens the first of two stages. -/
theorem official_spellings_alike_of_two_stages :
    ∃ (w : Written) (opening : Text → Instruction) (back : List Instruction),
      OpensOfficial w 1 opening ∧ w.text = "Node" ∧
      (∀ q ∈ officialFronts,
        (Dockerfile.parse (Text.concat ["FROM ", q, "Node AS base\nFROM base\n"])).map
          Dockerfile.instructions = .ok (opening q :: back)) ∧
      (∀ q ∈ officialFronts, Stage.RestsOn [] (opening q) back) ∧
      ∀ q ∈ officialFronts, (minimalBaseImage ["node"]).inspect (opening q :: back) =
        .ok [fullImageFinding 1 (q ++ "Node")] := by
  let w : Written :=
    { flags := []
      name := "Node"
      tag := none
      digest := none
      naming := some ("AS", "base") }
  let opening (q : Text) : Instruction :=
    { opcode := .base, arguments := [q ++ "Node", "AS", "base"], line := 1, endLine := 1,
        raw := q ++ "Node AS base" }
  let back : List Instruction :=
    [{ opcode := .base, arguments := ["base"], line := 2, endLine := 2, raw := "base" }]
  have hopens : OpensOfficial w 1 opening :=
    { legible := by constructor <;> decide
      colon_not_mem_name := by decide
      plain := by decide +kernel
      isStep := fun q _ =>
        { opcode := rfl
          arguments := by
            rw [ImageReference.Written.arguments, ImageReference.Written.text_respell]
            rfl
          line := rfl
          flags := fun _ => rfl } }
  have halike := @official_spellings_alike ["node"] [] back w 1 opening hopens
  have hrests : ∀ q ∈ officialFronts, Stage.RestsOn [] (opening q) back :=
    (halike.1 fun _ => by decide +kernel).resolve_right fun hnone =>
      hnone [] (.head _) (by decide +kernel)
  have hfound := (halike.2 hrests).resolve_right fun hnone =>
    absurd (hnone [] (.head _)) (by decide +kernel)
  exact ⟨w, opening, back, hopens, rfl, by decide +kernel, hrests, hfound⟩

end Rule

end Drydock
