/-
  The command that a step executes, and the parts of it that a shell runs one after the other.
-/
import Drydock.Dockerfile.Instruction

namespace Drydock

/-- The parts of a command between double ampersands, double bars, semicolons and line ends. -/
def Text.splitCommands : Text → List Text
  | [] => [[]]
  | '&' :: '&' :: t => [] :: splitCommands t
  | '|' :: '|' :: t => [] :: splitCommands t
  | c :: t => if c = ';' || c = '\n' then [] :: splitCommands t else pushFront c (splitCommands t)

namespace Instruction

/-- The command that a step executes; an array of strings is joined by spaces. -/
def command (i : Instruction) : Text :=
  if i.execForm then Text.joinWith " " i.arguments else i.raw

/-- The parts of a command that are not blank. -/
def segmentsOf (command : Text) : List Text :=
  ((Text.splitCommands command).map Text.strip).filter fun segment => !segment.isEmpty

/-- The parts of the command that a step executes. -/
def segments (i : Instruction) : List Text := segmentsOf i.command

/-- What a step copies from the build context; a copy from another stage takes nothing from it. -/
def copySources (i : Instruction) : List Text :=
  if i.options.contains "from" then [] else i.positional.dropLast

/-- Whether a step copies the whole build context. -/
def copiesContext (i : Instruction) : Bool :=
  i.opcode.copiesFiles && i.copySources.any fun source => source = "." || source = "./"

end Instruction

end Drydock
