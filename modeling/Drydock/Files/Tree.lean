/-
  A machine in the form of a value: a tree of files, the directory that commands start in, the
  streams that a terminal shows, threads that are known to be late, and a clock that stands still.
-/
import Drydock.Files.Host
import Drydock.OrderedMap

namespace Drydock

/-- What stands at a place in a tree. -/
inductive FileNode where
  | directory
  | file (content : Text.Octets)
deriving DecidableEq, Repr

/-- The kind of what stands at a place. -/
def FileNode.kind : FileNode → FileKind
  | directory => .directory
  | file _ => .file

/-- Files and directories by their names from the root, where relative paths start, the streams that
a terminal shows, and the names of the work that threads are not done with when a wait ends. -/
structure FileTree where
  nodes : OrderedMap (List Text) FileNode := .empty
  directory : List Text := []
  terminals : List Stream := []
  late : List Text := []
deriving DecidableEq, Repr

namespace FileTree

/-! ## Looking up -/

/-- What stands at a place; the root is always a directory. -/
def node? (t : FileTree) (place : List Text) : Option FileNode :=
  if place.isEmpty then some .directory else t.nodes.get? place

/-- Follows names from a place; double dots lead back from a directory. -/
def walk (t : FileTree) (here : List Text) :
    List Text → Except FileError (List Text × FileNode)
  | [] =>
    match t.node? here with
    | some node => .ok (here, node)
    | none => .error .notFound
  | name :: rest =>
    match t.node? here with
    | none => .error .notFound
    | some (.file _) => .error .notDirectory
    | some .directory =>
      t.walk (if name = ['.', '.'] then here.dropLast else here ++ [name]) rest

/-- The place from which a path leads on. -/
def origin (t : FileTree) (p : Path) : List Text := if p.isAbsolute then [] else t.directory

/-- The place that a path leads to, and what stands there. -/
def find (t : FileTree) (p : Path) : Except FileError (List Text × FileNode) :=
  t.walk (t.origin p) p.parts

/-- The place of something new: a name in a directory that exists. -/
def placeFor (t : FileTree) (p : Path) : Except FileError (List Text) :=
  match t.find p.parent with
  | .error e => .error e
  | .ok (_, .file _) => .error .notDirectory
  | .ok (above, .directory) =>
    if p.name = ['.', '.'] || p.parts.isEmpty then .error .notFound else .ok (above ++ [p.name])

/-! ## Changing -/

/-- Puts a node at a place. -/
def put (t : FileTree) (place : List Text) (node : FileNode) : FileTree :=
  { t with nodes := t.nodes.insert place node }

/-- The content of a file. -/
def read (t : FileTree) (p : Path) : Except FileError Text.Octets :=
  match t.find p with
  | .error e => .error e
  | .ok (_, .directory) => .error .isDirectory
  | .ok (_, .file content) => .ok content

/-- The tree with a file's content, the file being new or not. -/
def write (t : FileTree) (p : Path) (content : Text.Octets) : Except FileError FileTree :=
  match t.find p with
  | .ok (_, .directory) => .error .isDirectory
  | .ok (place, .file _) => .ok (t.put place (.file content))
  | .error .notFound => (t.placeFor p).map fun place => t.put place (.file content)
  | .error e => .error e

/-- The tree with a new directory. -/
def makeDirectory (t : FileTree) (p : Path) : Except FileError FileTree :=
  match t.find p with
  | .ok _ => .error .alreadyExists
  | .error .notFound => (t.placeFor p).map fun place => t.put place .directory
  | .error e => .error e

/-- A change of the tree as a step of a command; one that fails changes nothing. -/
def change (f : FileTree → Except FileError FileTree) : StateM FileTree (Except FileError Unit) :=
  fun t =>
    match f t with
    | .ok t' => (.ok (), t')
    | .error e => (.error e, t)

/-- The names of the work that threads are done with when a wait for them ends. -/
def finished (t : FileTree) (names : List Text) : (seconds : Option Float) → List Text
  | none => names
  | some _ => names.filter fun name => !t.late.contains name

instance : Host (StateM FileTree) where
  directory := fun t => (⟨.root, t.directory⟩, t)
  kind? p := fun t => ((t.find p).toOption.map fun found => found.2.kind, t)
  read p := fun t => (t.read p, t)
  write p content := change fun t => t.write p content
  makeDirectory p := change fun t => t.makeDirectory p
  now := fun t => (0, t)
  finish work seconds := fun t => (t.finished (work.map Prod.fst) seconds, t)
  isTerminal stream := fun t => (t.terminals.contains stream, t)

end FileTree

end Drydock
