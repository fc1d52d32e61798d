/-
  Rules about base images: the final stage shall not build on a full distribution, and every image
  from outside shall be pinned to a version.
-/
import Drydock.Dockerfile.Stage
import Drydock.Rule.Basic

namespace Drydock.Rule

/-! ## Minimal images -/

/-- The images that count as full unless a denylist says otherwise. -/
def defaultDenylist : List Text :=
  ["ubuntu", "debian", "centos", "fedora", "rockylinux", "almalinux", "amazonlinux", "python",
    "node", "ruby", "golang", "openjdk", "php", "perl"]

/-- Parts of a tag that tell a small variant of a full image. -/
def slimMarkers : List Text :=
  ["slim", "alpine", "minimal", "distroless", "busybox", "micro", "chiseled"]

/-- The entries of a denylist in small letters, without blank ones. -/
def denied (denylist : List Text) : List Text :=
  (denylist.map fun entry => Text.lower (Text.strip entry)).filter fun entry => !entry.isEmpty

/-- Whether an image is full: listed with its tag, or listed and its tag tells no small variant. -/
def isFullImage (denied : List Text) (name : Text) (tag : Option Text) : Bool :=
  match tag with
  | none => denied.contains name
  | some tag =>
    let tag := Text.lower tag
    denied.contains (name ++ ':' :: tag) ||
      (denied.contains name && !slimMarkers.any fun marker => Text.includes marker tag)

/-- The image that the last stage rests on. -/
def finalBase? (stages : List Stage) : Option ImageReference :=
  (stages.getLast?.bind fun s => (Stage.lineage stages s).getLast?).map Stage.base

/-- What is said about a full image. -/
def fullImageMessage (text : Text) : Text :=
  Text.concat
    ["Final stage is based on full image '", text, "'; use a slim, alpine or distroless variant."]

/-- The remark on the image that the last stage rests on. -/
def finalBaseRemarks (denylist : List Text) (base : ImageReference) : List Remark :=
  if base.resolved && base.digest.isNone &&
      isFullImage (denied denylist) base.shortName base.tag then
    [(base.line, fullImageMessage base.text)]
  else []

/-- Remarks on the final stage's image. -/
def fullImageRemarks (denylist : List Text) (instructions : List Instruction) : List Remark :=
  match finalBase? (Stage.split instructions).stages with
  | none => []
  | some base => finalBaseRemarks denylist base

/-- Remarks on the final stage's image, by checked accesses. -/
def checkedFullImageRemarks (denylist : List Text) (instructions : List Instruction) :
    Except Fault (List Remark) := do
  let split ← Stages.checkedSplit instructions
  if split.stages.isEmpty then pure []
  else do
    let final ← Access.last split.stages
    let root ← Access.last (Stage.lineage split.stages final)
    pure (finalBaseRemarks denylist root.base)

/-- Warns when the final stage builds on a full distribution image. -/
def minimalBaseImage (denylist : List Text) : Rule :=
  ofChecked "minimal-base-image" .warning (checkedFullImageRemarks denylist)

/-! ## Explicit tags -/

/-- What is said about an image without a tag. -/
def missingTagMessage (name : Text) : Text :=
  Text.concat ["Base image '", name, "' has no tag; pin an explicit version."]

/-- What is said about an image with the tag that moves. -/
def latestTagMessage (name : Text) : Text :=
  Text.concat ["Base image '", name, "' uses the 'latest' tag; pin an explicit version."]

/-- What is wrong with the tag of an image from outside. -/
def tagFault? (base : ImageReference) : Option Text :=
  if base.name = "scratch" || !base.resolved || base.digest.isSome then none
  else match base.tag with
    | none => some (missingTagMessage base.name)
    | some tag => if Text.lower tag = "latest" then some (latestTagMessage base.name) else none

/-- Remarks on the images of stages behind others with the given names. -/
def tagRemarksAfter (names : List Text) : List Stage → List Remark
  | [] => []
  | s :: rest =>
    let isStage := names.contains s.base.name && s.base.tag.isNone
    let fault := if isStage then none else tagFault? s.base
    (fault.map ((s.base.line : Int), ·)).toList ++
      tagRemarksAfter (names ++ s.base.stageName.toList) rest

/-- Remarks on the images of all stages. -/
def tagRemarks (instructions : List Instruction) : List Remark :=
  tagRemarksAfter [] (Stage.split instructions).stages

/-- Remarks on the images of all stages, by checked accesses. -/
def checkedTagRemarks (instructions : List Instruction) : Except Fault (List Remark) := do
  let split ← Stages.checkedSplit instructions
  pure (tagRemarksAfter [] split.stages)

/-- Requires every base image to pin a tag other than the one that moves, or a digest. -/
def explicitTag : Rule := ofChecked "explicit-tag" .error checkedTagRemarks

end Drydock.Rule
