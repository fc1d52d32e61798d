/-
  Reading TOML documents: key/value lines and headers, one after the other. A header opens a table
  or appends one to an array; no table is defined twice, and nothing is added to a value that was
  written out as a whole. A reader stops at the first fault or integer that is too long.
-/
import Drydock.Toml.Scalar

namespace Drydock.Toml

/-- A dotted key, part by part. -/
abbrev Key := List Text

/-! ## Comments and keys -/

/-- The text behind a comment at its front; nothing if the comment holds a control character. -/
def skipComment (t : Text) : Option Text :=
  match t with
  | '#' :: rest =>
    if (rest.takeWhile (· != '\n')).any isControl then none else some (rest.dropWhile (· != '\n'))
  | _ => some t

/-- The text behind blanks, line ends and comments at its front. -/
def skipLines : (fuel : Nat) → Text → Option Text
  | 0, t => some t
  | fuel + 1, t =>
    match t.dropWhile fun c => isBlank c || c = '\n' with
    | '#' :: rest => (skipComment ('#' :: rest)).bind (skipLines fuel)
    | rest => some rest

/-- Whether a character may stand in a key without quotes. -/
def isBareKeyChar (c : Char) : Bool :=
  Text.isAsciiLetter c || Text.isAsciiDigit c || c = '-' || c = '_'

/-- Reads one part of a key. -/
def readKeyPart (t : Text) : Option (Text × Text) :=
  match t with
  | [] => none
  | c :: rest =>
    if isBareKeyChar c then some (t.takeWhile isBareKeyChar, t.dropWhile isBareKeyChar)
    else if c = '"' || c = '\'' then readSingleLine c rest
    else none

/-- Reads a key, with the blanks behind it. -/
def readKey : (fuel : Nat) → Text → Option (Key × Text)
  | 0, _ => none
  | fuel + 1, t => do
    let (part, t) ← readKeyPart t
    match skipBlanks t with
    | '.' :: t =>
      let (key, rest) ← readKey fuel (skipBlanks t)
      some (part :: key, rest)
    | rest => some ([part], rest)

/-- Reads an equals sign with the blanks behind it. -/
def readEquals (t : Text) : Option Text := (Text.dropFront? ['='] t).map skipBlanks

/-! ## Tables -/

/-- Changes the last item of a list, if that succeeds. -/
def changeLast? (f : Value → Option Value) : List Value → Option (List Value)
  | [] => none
  | [v] => (f v).map ([·])
  | v :: rest => (changeLast? f rest).map (v :: ·)

/--
Changes the table that a key leads to, creating tables on the way. Where the way leads through an
array of tables, it goes on from the last of them if `throughArrays` allows that.
-/
def changeAt? (throughArrays : Bool) (f : Table → Option Table) : Key → Table → Option Table
  | [], table => f table
  | part :: key, table =>
    let onTable (v : Value) : Option Value := match v with
      | .table entries => (changeAt? throughArrays f key entries).map .table
      | _ => none
    match table.get? part with
    | none => (onTable (.table [])).map (table.put part)
    | some (.array items) =>
      if throughArrays then
        (changeLast? onTable items).map fun items => table.put part (.array items)
      else none
    | some v => (onTable v).map (table.put part)

/-- Gives a key that has none a value. -/
def define? (part : Text) (v : Value) (table : Table) : Option Table :=
  if (table.get? part).isSome then none else some (table.put part v)

/-- Appends an empty table to the array of a key. -/
def appendTable? (part : Text) (table : Table) : Option Table :=
  match table.get? part with
  | none => some (table.put part (.array [.table []]))
  | some (.array items) => some (table.put part (.array (items ++ [.table []])))
  | some _ => none

/-- A key without its last part, and that part. -/
def splitKey (key : Key) : Key × Text := (key.dropLast, key.getLast?.getD [])

/-- Whether a value was written out as a whole and admits no additions. -/
def isCompound : Value → Bool
  | .table _ | .array _ => true
  | _ => false

/-- Whether a key is, or lies within, one of several. -/
def isWithin (keys : List Key) (key : Key) : Bool := keys.any fun k => k.isPrefixOf key

/-! ## Values -/

mutual

/-- Reads a value. -/
def readValue : (fuel : Nat) → Text → Except ReadError (Value × Text)
  | 0, _ => .error .malformed
  | fuel + 1, t =>
    match t with
    | '"' :: t => (expected (readString '"' t)).map fun (s, rest) => (.text s, rest)
    | '\'' :: t => (expected (readString '\'' t)).map fun (s, rest) => (.text s, rest)
    | '[' :: t => do
      let t ← expected (skipLines t.length t)
      match t with
      | ']' :: rest => pure (.array [], rest)
      | t => (readItems fuel t).map fun (items, rest) => (.array items, rest)
    | '\x7b' :: t =>
      match skipBlanks t with
      | '\x7d' :: rest => .ok (.table [], rest)
      | t => (readMembers fuel [] [] t).map fun (entries, rest) => (.table entries, rest)
    | t => readPlain t

/-- Reads the items of an array up to its closing bracket; a comma may stand before that. -/
def readItems : (fuel : Nat) → Text → Except ReadError (List Value × Text)
  | 0, _ => .error .malformed
  | fuel + 1, t => do
    let (item, t) ← readValue fuel t
    let t ← expected (skipLines t.length t)
    match t with
    | ']' :: rest => pure ([item], rest)
    | ',' :: t =>
      let t ← expected (skipLines t.length t)
      match t with
      | ']' :: rest => pure ([item], rest)
      | t => (readItems fuel t).map fun (items, rest) => (item :: items, rest)
    | _ => throw .malformed

/-- Reads the members of a table on one line, behind those of `table`, up to its closing brace. -/
def readMembers : (fuel : Nat) → (fixed : List Key) → (table : Table) → Text →
    Except ReadError (Table × Text)
  | 0, _, _, _ => .error .malformed
  | fuel + 1, fixed, table, t => do
    let (key, t) ← expected (readKey t.length t)
    let t ← expected (readEquals t)
    let (v, t) ← readValue fuel t
    if isWithin fixed key then throw .malformed
    else
      let (parents, part) := splitKey key
      let table ← expected (changeAt? false (define? part v) parents table)
      match skipBlanks t with
      | '\x7d' :: rest => pure (table, rest)
      | ',' :: t =>
        readMembers fuel (if isCompound v then key :: fixed else fixed) table (skipBlanks t)
      | _ => throw .malformed

end

/-! ## Documents -/

/-- A document as far as it has been read. -/
structure Draft where
  table : Table := []
  /-- the header that the next lines belong to -/
  header : Key := []
  /-- the values that were written out as a whole -/
  fixed : List Key := []
  /-- the tables that no header may open -/
  opened : List Key := []
  /-- the tables that no header may open once the present one is left -/
  pending : List Key := []

namespace Draft

/-- Leaves the present header. -/
def leave (d : Draft) : Draft := { d with opened := d.pending ++ d.opened, pending := [] }

/-- Opens the table of a header. -/
def openTable? (d : Draft) (key : Key) : Option Draft :=
  if d.opened.contains key || isWithin d.fixed key then none
  else
    (changeAt? true some key d.table).map fun table =>
      { d with table, header := key, opened := key :: d.opened }

/-- Appends a table to the array of a header, and opens it. -/
def openItem? (d : Draft) (key : Key) : Option Draft :=
  if isWithin d.fixed key then none
  else
    let (parents, part) := splitKey key
    (changeAt? true (appendTable? part) parents d.table).map fun table =>
      { d with
        table
        header := key
        fixed := d.fixed.filter fun k => !key.isPrefixOf k
        opened := key :: d.opened.filter fun k => !key.isPrefixOf k }

/-- The tables that a dotted key leads through, below a header. -/
def wayOf (header key : Key) : List Key :=
  (List.range (key.length - 1)).map fun n => header ++ key.take (n + 1)

/-- Gives a key below the present header a value. -/
def define? (d : Draft) (key : Key) (v : Value) : Option Draft :=
  let way := wayOf d.header key
  let (parents, part) := splitKey (d.header ++ key)
  if way.any d.opened.contains || isWithin d.fixed parents then none
  else
    (changeAt? true (Toml.define? part v) parents d.table).map fun table =>
      { d with
        table
        pending := way ++ d.pending
        fixed := if isCompound v then (d.header ++ key) :: d.fixed else d.fixed }

/-- Reads a header whose opening brackets have been read. -/
def readHeader (d : Draft) (item : Bool) (t : Text) : Option (Draft × Text) := do
  let (key, t) ← readKey t.length (skipBlanks t)
  let d ← if item then d.leave.openItem? key else d.leave.openTable? key
  let rest ← Text.dropFront? (if item then [']', ']'] else [']']) t
  some (d, rest)

/-- Reads a key and its value. -/
def readLine (d : Draft) (t : Text) : Except ReadError (Draft × Text) := do
  let (key, t) ← expected (readKey t.length t)
  let t ← expected (readEquals t)
  let (v, rest) ← readValue (2 * t.length + 1) t
  let d ← expected (d.define? key v)
  pure (d, rest)

/-- Reads what stands on a line before the comment. -/
def readStatement (d : Draft) (t : Text) : Except ReadError (Draft × Text) :=
  match t with
  | [] => .ok (d, t)
  | c :: rest =>
    if c = '\n' || c = '#' then .ok (d, t)
    else if c = '[' then
      expected <| match rest with
        | '[' :: rest => d.readHeader true rest
        | _ => d.readHeader false rest
    else d.readLine t

/-- Reads the lines of a document behind those that made up a draft. -/
def readLines : (fuel : Nat) → Draft → Text → Except ReadError Draft
  | 0, _, _ => .error .malformed
  | fuel + 1, d, t => do
    let (d, t) ← d.readStatement (skipBlanks t)
    let t ← expected (skipComment (skipBlanks t))
    match t with
    | [] => pure d
    | '\n' :: rest => readLines fuel d rest
    | _ => throw .malformed

end Draft

/-- A text in which a line feed alone ends every line. -/
def unifyLineEnds : Text → Text
  | [] => []
  | '\r' :: '\n' :: t => '\n' :: unifyLineEnds t
  | c :: t => c :: unifyLineEnds t

/-- Reads a document. -/
def read (t : Text) : Except ReadError Table :=
  let t := unifyLineEnds t
  (Draft.readLines (t.length + 1) {} t).map Draft.table

end Drydock.Toml
