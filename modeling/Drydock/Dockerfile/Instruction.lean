/-
  One build step, and the flags that stand before its arguments.
-/
import Drydock.Dockerfile.Opcode
import Drydock.OrderedMap
import Drydock.Text.Blank
import Drydock.Text.Case

namespace Drydock

/-- One logical build step. -/
structure Instruction where
  opcode : Opcode
  arguments : List Text
  /-- the first physical line of the step, counted from one -/
  line : Nat
  /-- the last physical line of the step -/
  endLine : Nat
  /-- the argument text, followed by the bodies that belong to it -/
  raw : Text := []
  /-- whether the arguments were written as an array of strings -/
  execForm : Bool := false
  /-- whether a comment stands right above the step -/
  commented : Bool := false
deriving DecidableEq, Repr

namespace Instruction

/-- Whether an argument is a flag. -/
def isFlag (argument : Text) : Bool := argument.startsWith ['-', '-']

/-- The name of a flag in small letters, and its value. -/
def flagEntry (flag : Text) : Text × Text :=
  let (name, value) := Text.cut '=' (flag.drop 2)
  (Text.lower name, value.getD [])

/-- The flags before the first other argument; an array of strings has none. -/
def flags (i : Instruction) : List Text :=
  if i.execForm then [] else i.arguments.takeWhile isFlag

/-- The arguments behind the flags. -/
def positional (i : Instruction) : List Text :=
  if i.execForm then i.arguments else i.arguments.dropWhile isFlag

/-- The values of the flags by name. -/
def options (i : Instruction) : OrderedMap Text Text := .ofList (i.flags.map flagEntry)

end Instruction

end Drydock
