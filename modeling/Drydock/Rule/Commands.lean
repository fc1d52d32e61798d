/-
  Rules about executed commands: neighbouring package installations shall be one step, and the tests
  shall run while the image is built.
-/
import Drydock.Rule.Basic
import Drydock.Shell.Detection

namespace Drydock.Rule

/-! ## Consolidated installations -/

/-- The longest rows of neighbouring steps that all run a package manager, two steps or more. -/
def installBlocks (instructions : List Instruction) : List (List Instruction) :=
  (splitWhere (fun i => !i.installsPackages) instructions).filter fun block => 2 ≤ block.length

/-- What is said about a row of installations. -/
def installBlockMessage (block : List Instruction) : Text :=
  Text.concat
    [Text.ofNat block.length, " consecutive RUN instructions invoke package managers (lines ",
      Text.joinWith ", " (block.map fun i => Text.ofNat i.line),
      "); combine them into a single RUN."]

/-- The line of the first of several steps. -/
def firstLine (block : List Instruction) : Int := (block.head?.map Instruction.line).getD 0

/-- Remarks on rows of installations. -/
def installBlockRemarks (instructions : List Instruction) : List Remark :=
  (installBlocks instructions).map fun block => (firstLine block, installBlockMessage block)

/-- Remarks on rows of installations, by checked accesses. -/
def checkedInstallBlockRemarks (instructions : List Instruction) : Except Fault (List Remark) :=
  (installBlocks instructions).mapM fun block => do
    let first ← Access.item block 0
    pure ((first.line : Int), installBlockMessage block)

/-- Flags consecutive steps that each invoke a package manager. -/
def consolidateRun : Rule := ofChecked "consolidate-run" .warning checkedInstallBlockRemarks

/-! ## Tests -/

/-- The last step that says what a container executes. -/
def finalEntryStep? (instructions : List Instruction) : Option Instruction :=
  (instructions.filter fun i => i.opcode.isEntry).getLast?

/-- The steps above a line, if there is one. -/
def stepsAbove (entry : Option Instruction) (instructions : List Instruction) : List Instruction :=
  instructions.takeWhile fun i => entry.all fun e => i.line < e.line

/-- What is said when no test runs. -/
def missingTestMessage : Text :=
  Text.concat
    ["No RUN instruction executes a test runner before the final CMD/ENTRYPOINT; ",
      "run the test suite as part of the build."]

/-- The remark on missing tests. -/
def missingTestRemarks (instructions : List Instruction) : List Remark :=
  let entry := finalEntryStep? instructions
  if instructions.isEmpty || (stepsAbove entry instructions).any Instruction.runsTests then []
  else [((entry.map Instruction.line).getD 0, missingTestMessage)]

/-- Suggests running the test suite during the image build. -/
def hasTestStep : Rule := ofRemarks "has-test-step" .info missingTestRemarks

end Drydock.Rule
