/-
  Rules about copies of the whole build context: they shall not happen, least of all before the
  dependencies are installed.
-/
import Drydock.Dockerfile.Stage
import Drydock.Rule.Basic
import Drydock.Shell.Detection

namespace Drydock.Rule

/-! ## Specific copies -/

/-- What is said about a copy of everything. -/
def contextCopyMessage (i : Instruction) : Text :=
  Text.concat
    [i.opcode.name, " takes the entire build context; copy only the files the image needs."]

/-- Remarks on the copies of everything. -/
def contextCopyRemarks (instructions : List Instruction) : List Remark :=
  (instructions.filter Instruction.copiesContext).map fun i => (i.line, contextCopyMessage i)

/-- Flags copies that take the entire build context. -/
def specificCopy : Rule := ofRemarks "specific-copy" .warning contextCopyRemarks

/-! ## Order of layers -/

/-- The first copy of everything, and the first installation of dependencies behind it. -/
def copyBeforeInstall? (instructions : List Instruction) : Option (Instruction × Instruction) :=
  match instructions.dropWhile fun i => !i.copiesContext with
  | [] => none
  | copy :: rest => (rest.find? Instruction.installsDependencies).map (copy, ·)

/-- What is said about a copy of everything before an installation. -/
def layerOrderMessage (install : Instruction) : Text :=
  Text.concat
    ["Whole build context is copied before the dependency install at line ",
      Text.ofNat install.line,
      "; copy the dependency manifests first so the install layer stays cached."]

/-- The remark on the order of layers in a stage, if any. -/
def layerOrderRemark? (s : Stage) : Option Remark :=
  (copyBeforeInstall? s.instructions).map fun (copy, install) =>
    ((copy.line : Int), layerOrderMessage install)

/-- Remarks on the order of layers, at most one for each stage. -/
def layerOrderRemarks (instructions : List Instruction) : List Remark :=
  (Stage.split instructions).stages.filterMap layerOrderRemark?

/-- Remarks on the order of layers, by checked accesses. -/
def checkedLayerOrderRemarks (instructions : List Instruction) : Except Fault (List Remark) := do
  let split ← Stages.checkedSplit instructions
  pure (split.stages.filterMap layerOrderRemark?)

/-- Flags whole-context copies placed before dependency installation. -/
def layerCachingOrder : Rule := ofChecked "layer-caching-order" .warning checkedLayerOrderRemarks

end Drydock.Rule
