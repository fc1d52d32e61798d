/-
  JSON documents in ASCII: members sorted by key, a blank behind every comma and colon, and an
  escape for every character that is not printable ASCII.
-/
import Drydock.Number.Format
import Drydock.Text.Digit
import Drydock.Value

namespace Drydock.Json

open Text (hex)

/-! ## Strings -/

/-- The escape of one 16-bit unit. -/
def unitEscape (n : Nat) : Text := "\\u" ++ hex 4 n

/-- A character inside a string; beyond 16 bits it is written as two units. -/
def escapeChar (c : Char) : Text :=
  let n := c.toNat
  if c = '"' then "\\\""
  else if c = '\\' then "\\\\"
  else if 0x20 ≤ n && n < 0x7F then [c]
  else if c = '\n' then "\\n"
  else if c = '\r' then "\\r"
  else if c = '\t' then "\\t"
  else if n = 8 then "\\b"
  else if n = 12 then "\\f"
  else if n < 0x10000 then unitEscape n
  else unitEscape (0xD800 + (n - 0x10000) / 0x400) ++ unitEscape (0xDC00 + (n - 0x10000) % 0x400)

/-- A text as a string of a document. -/
def string (t : Text) : Text := '"' :: t.flatMap escapeChar ++ ['"']

/-! ## Documents -/

/-- Items between brackets. -/
def array (items : List Text) : Text := '[' :: Text.joinWith ", " items ++ [']']

/-- A member of an object. -/
def member (entry : Text × Text) : Text := string entry.1 ++ ": " ++ entry.2

/-- Members in the order of their keys, between braces. -/
def object (entries : List (Text × Text)) : Text :=
  let sorted := entries.mergeSort fun a b => Text.isAtMost a.1 b.1
  '\x7b' :: Text.joinWith ", " (sorted.map member) ++ ['\x7d']

/-- A number, or the name of one that has no digits. -/
def number (x : Float) : Text :=
  match Number.parts x with
  | .nan => "NaN"
  | .infinite negative => Number.withSign negative "Infinity"
  | finite => finite.text

mutual

/-- The document that holds a value. -/
def render : Value → Text
  | .null => "null"
  | .bool true => "true"
  | .bool false => "false"
  | .integer n => Text.ofInt n
  | .float x => number x
  | .text t => string t
  | .moment t => string t
  | .array items => array (renderItems items)
  | .table entries => object (renderEntries entries)

/-- The documents of several values. -/
def renderItems : List Value → List Text
  | [] => []
  | item :: rest => render item :: renderItems rest

/-- The documents of several values under their keys. -/
def renderEntries : Table → List (Text × Text)
  | [] => []
  | (key, value) :: rest => (key, render value) :: renderEntries rest

end

end Drydock.Json
