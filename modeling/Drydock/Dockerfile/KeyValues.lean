/-
  Keys and values of instructions that set variables, arguments or labels: pairs with an equals
  sign, names alone, and the older form of one name with the rest of the line as its value. They are
  read by checked accesses, each of which may raise a fault (`checkedKeyValues`), and said once more
  without these (`keyValues`).
-/
import Drydock.Dockerfile.Instruction
import Drydock.Dockerfile.Words
import Drydock.Fault

namespace Drydock

/-- A text without the quotes around it, if there are any. -/
def Text.unquote (t : Text) : Text :=
  match t with
  | c :: rest =>
    if !rest.isEmpty && (c = '"' || c = '\'') && rest.getLast? = some c then rest.dropLast else t
  | [] => []

/-- A text without the quotes around it, both ends of which are looked at if there are two. -/
def Text.checkedUnquote (t : Text) : Except Fault Text :=
  if t.length < 2 then pure t
  else do
    let first ← Access.item t 0 "string"
    let final ← Access.last t "string"
    pure (if first = final && (first = '"' || first = '\'') then t.tail.dropLast else t)

/-- The first word of a text, and what follows it if there is anything. -/
def Text.headFields (t : Text) : List Text :=
  let (word, rest) := firstField t
  [word, rest].filter fun field => !field.isEmpty

namespace Instruction

/-- The key and the value that one word gives; a name alone has an empty value. -/
def wordEntry? (word : Text) : Option (Text × Text) :=
  let (key, value) := Text.cut '=' word
  if key.isEmpty then none else some (key, value.getD [])

/-- The older form: one name, and the rest of the line as its value. -/
def legacyEntry (raw : Text) : Text × Text :=
  let (key, rest) := Text.firstField raw
  (key, Text.unquote (Text.strip rest))

/-- The keys and values that an instruction sets. -/
def keyValues (i : Instruction) : OrderedMap Text Text :=
  match Text.shellWords i.raw with
  | [] => .empty
  | word :: rest =>
    if i.opcode = .env && !word.contains '=' then .ofList [legacyEntry (Text.strip i.raw)]
    else .ofList ((word :: rest).filterMap wordEntry?)

/-- The older form, by its fields: the first one must be there. -/
def checkedLegacyEntry (raw : Text) : Except Fault (Text × Text) := do
  let fields := Text.headFields raw
  let value ← Access.itemOr fields 1 []
  let key ← Access.item fields 0
  let value ← Text.checkedUnquote (Text.strip value)
  pure (key, value)

/-- Whether a step has the older form, which its first word tells. -/
def checkedIsLegacy (i : Instruction) (words : List Text) : Except Fault Bool :=
  if i.opcode = .env then do
    let first ← Access.item words 0
    pure (!first.contains '=')
  else pure false

/-- The keys and values that an instruction sets, by checked accesses. -/
def checkedKeyValues (i : Instruction) : Except Fault (OrderedMap Text Text) :=
  let words := Text.shellWords i.raw
  if words.isEmpty then pure .empty
  else do
    let isLegacy ← i.checkedIsLegacy words
    if isLegacy then do
      let entry ← checkedLegacyEntry (Text.strip i.raw)
      pure (.ofList [entry])
    else pure (.ofList (words.filterMap wordEntry?))

end Instruction

end Drydock
