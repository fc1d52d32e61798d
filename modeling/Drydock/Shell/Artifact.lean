/-
  Files that the parts of a command leave behind or take away: downloads, package lists, unpacked
  archives, and what is removed again. They are found by checked accesses to the words of each part
  (`checkedFiles`), and said once more without these (`createdFiles`, `removedFiles`).
-/
import Drydock.Dockerfile.Words
import Drydock.Fault
import Drydock.Path
import Drydock.Shell.Command
import Drydock.Text.Alphabetic

namespace Drydock

/-! ## Downloads -/

/-- How a downloader is told where to put what it fetches. -/
structure Downloader where
  /-- the letter of the flag that names the file -/
  outputFlag : Char
  /-- the letter of the flag that asks for the name on the server, if the tool needs one -/
  remoteFlag : Option Char
  /-- the long form of the flag that names the file -/
  longOutput : Text
deriving DecidableEq, Repr

namespace Downloader

/-- A tool that writes to its output unless it is told otherwise. -/
def curl : Downloader := ⟨'o', some 'O', "--output"⟩

/-- A tool that takes the name on the server unless it is told otherwise. -/
def wget : Downloader := ⟨'O', none, "--output-document"⟩

/-- What has been read of a downloader's arguments. -/
structure Scan where
  outputs : List Text := []
  urls : List Text := []
  usesRemoteName : Bool
  expectsOutput : Bool := false
deriving DecidableEq, Repr

/-- Notes a named file. -/
def Scan.output (s : Scan) (file : Text) : Scan := { s with outputs := s.outputs ++ [file] }

/-- Notes what stands behind the letter of the output flag, if that is there: a file, or nothing if
the file is the next argument. -/
def Scan.attached (s : Scan) : Option Text → Scan
  | none => s
  | some [] => { s with expectsOutput := true }
  | some file => s.output file

/-- Reads a cluster of short flags, where a file may follow its letter at once. -/
def readCluster (d : Downloader) (s : Scan) (cluster : Text) : Scan :=
  let (before, file) := Text.cut d.outputFlag cluster
  let s := s.attached file
  if d.remoteFlag.any before.contains then { s with usesRemoteName := true } else s

/-- Reads a cluster of short flags by checked accesses. -/
def checkedCluster (d : Downloader) (s : Scan) (cluster : Text) : Except Fault Scan :=
  let s := s.attached (Text.cut d.outputFlag cluster).2
  match d.remoteFlag with
  | none => pure s
  | some flag => do
    let before ← Access.item (Text.splitOn d.outputFlag cluster) 0
    pure (if before.contains flag then { s with usesRemoteName := true } else s)

/-- Reads one argument. -/
def readArgument (d : Downloader) (s : Scan) (argument : Text) : Scan :=
  if s.expectsOutput then { s.output argument with expectsOutput := false }
  else if argument.startsWith (d.longOutput ++ ['=']) then
    s.output (argument.drop (d.longOutput.length + 1))
  else if argument = d.longOutput then { s with expectsOutput := true }
  else if argument = "--remote-name" then { s with usesRemoteName := true }
  else if argument.startsWith ['-'] && !argument.startsWith ['-', '-'] then
    d.readCluster s argument.tail
  else if Text.includes "://" argument then { s with urls := s.urls ++ [argument] }
  else s

/-- Reads one argument by checked accesses. -/
def checkedArgument (d : Downloader) (s : Scan) (argument : Text) : Except Fault Scan :=
  if s.expectsOutput then pure { s.output argument with expectsOutput := false }
  else if argument.startsWith (d.longOutput ++ ['=']) then do
    let file ← Access.item (Text.splitOnce '=' argument) 1
    pure (s.output file)
  else if argument = d.longOutput then pure { s with expectsOutput := true }
  else if argument = "--remote-name" then pure { s with usesRemoteName := true }
  else if argument.startsWith ['-'] && !argument.startsWith ['-', '-'] then
    d.checkedCluster s argument.tail
  else if Text.includes "://" argument then pure { s with urls := s.urls ++ [argument] }
  else pure s

/-- The last name in the path of an address. -/
def remoteName (url : Text) : Text :=
  let path := (Text.cut '?' url).1
  let trimmed := (path.reverse.dropWhile (· = '/')).reverse
  (Text.splitOn '/' trimmed).getLast?.getD []

/-- The last name in the path of an address, by checked accesses. -/
def checkedRemoteName (url : Text) : Except Fault Text := do
  let path ← Access.item (Text.splitOnce '?' url) 0
  let trimmed := (path.reverse.dropWhile (· = '/')).reverse
  Access.last (Text.splitOn '/' trimmed)

/-- What is read before the first argument. -/
def start (d : Downloader) : Scan := { usesRemoteName := d.remoteFlag.isNone }

/-- Whether a name is that of a file and not of the output. -/
def isFileName (file : Text) : Bool := !file.isEmpty && file != ['-']

/-- The names that a call comes to: those it was given, or else those on the server. -/
def Scan.named (s : Scan) : List Text :=
  if s.outputs.isEmpty && s.usesRemoteName then s.urls.map remoteName else s.outputs

/-- The files that a call with these arguments leaves behind. -/
def files (d : Downloader) (arguments : List Text) : List Text :=
  (arguments.foldl d.readArgument d.start).named.filter isFileName

/-- The names that a call comes to, by checked accesses. -/
def Scan.checkedNamed (s : Scan) : Except Fault (List Text) :=
  if s.outputs.isEmpty && s.usesRemoteName then s.urls.mapM checkedRemoteName else pure s.outputs

/-- The files that a call with these arguments leaves behind, by checked accesses. -/
def checkedFiles (d : Downloader) (arguments : List Text) : Except Fault (List Text) := do
  let s ← arguments.foldlM d.checkedArgument d.start
  let named ← s.checkedNamed
  pure (named.filter isFileName)

end Downloader

/-! ## Archives -/

namespace Archive

/-- The endings of archives' names. -/
def suffixes : List Text :=
  [".tar", ".tgz", ".gz", ".xz", ".txz", ".bz2", ".tbz2", ".zst", ".zip"]

/-- Whether a name is an archive's. -/
def isArchive (name : Text) : Bool := suffixes.any fun suffix => (Text.lower name).endsWith suffix

/-- Whether an argument asks to unpack; as the first one it may do so without a dash. -/
def asksToUnpack (isFirst : Bool) (argument : Text) : Bool :=
  if argument = "--extract" || argument = "--get" then true
  else if argument.startsWith ['-', '-'] then false
  else
    (argument.startsWith ['-'] && argument.contains 'x') ||
      (isFirst && argument.contains 'x' && argument.all Text.isLetter)

/-- Whether the arguments ask to unpack. -/
def unpacks : List Text → Bool
  | [] => false
  | first :: rest => asksToUnpack true first || rest.any (asksToUnpack false)

end Archive

/-! ## Parts of a command -/

namespace Artifact

/-- The directory that a package manager fills with its lists. -/
def packageLists : Text := "/var/lib/apt/lists"

/-- The arguments that are no flags. -/
def operands (arguments : List Text) : List Text :=
  arguments.filter fun argument => !argument.startsWith ['-']

/-- The files that a tool leaves behind. -/
def createdBy (tool : Text) (arguments : List Text) : List Text :=
  if tool = "curl" then Downloader.curl.files arguments
  else if tool = "wget" then Downloader.wget.files arguments
  else if (tool = "apt-get" || tool = "apt") && arguments.contains "update" then [packageLists]
  else if tool = "tar" && Archive.unpacks arguments then
    (operands arguments).filter Archive.isArchive
  else if tool = "unzip" then (operands arguments).take 1
  else []

/-- The files that a tool leaves behind, by checked accesses. -/
def checkedCreatedBy (tool : Text) (arguments : List Text) : Except Fault (List Text) :=
  if tool = "curl" then Downloader.curl.checkedFiles arguments
  else if tool = "wget" then Downloader.wget.checkedFiles arguments
  else pure (createdBy tool arguments)

/-- A path read backwards without slashes and stars that only mean its content. -/
def trimBackwards : Text → Text
  | '*' :: '/' :: path => trimBackwards path
  | '/' :: c :: path => trimBackwards (c :: path)
  | path => path

/-- A path without slashes and stars at its end that only mean its content. -/
def normalize (path : Text) : Text := (trimBackwards path.reverse).reverse

/-- Whether two paths may mean one file: they are equal, or one is relative and the names agree. -/
def same (a b : Text) : Bool :=
  a = b ||
    (!(a.startsWith ['/'] && b.startsWith ['/']) && (Path.ofText a).name = (Path.ofText b).name)

/-- Words without one in front that only asks for rights. -/
def plain : List Text → List Text
  | [] => []
  | first :: rest => if first = "sudo" then rest else first :: rest

/-- The tool and the arguments of a part of a command. -/
def call? (segment : Text) : Option (Text × List Text) :=
  match plain (Text.shellWords segment) with
  | [] => none
  | tool :: arguments => some ((Path.ofText tool).name, arguments)

/-- The files that a part of a command removes. -/
def removedIn (segment : Text) : List Text :=
  match call? segment with
  | some (tool, arguments) => if tool = "rm" then (operands arguments).map normalize else []
  | none => []

/-- The files that a part of a command leaves behind. -/
def createdIn (segment : Text) : List Text :=
  match call? segment with
  | some (tool, arguments) => if tool = "rm" then [] else (createdBy tool arguments).map normalize
  | none => []

/-- Words without one in front that only asks for rights, by checked accesses. -/
def checkedPlain (words : List Text) : Except Fault (List Text) :=
  if words.isEmpty then pure words
  else do
    let first ← Access.item words 0
    pure (if first = "sudo" then words.tail else words)

/-- The tool and the arguments of a part of a command, by checked accesses. -/
def checkedCall (segment : Text) : Except Fault (Option (Text × List Text)) := do
  let words ← checkedPlain (Text.shellWords segment)
  if words.isEmpty then pure none
  else do
    let tool ← Access.item words 0
    pure (some ((Path.ofText tool).name, words.tail))

/-- The files that a part of a command removes and those that it leaves behind, by checked
accesses. -/
def checkedFiles (segment : Text) : Except Fault (List Text × List Text) := do
  let call ← checkedCall segment
  match call with
  | none => pure ([], [])
  | some (tool, arguments) =>
    if tool = "rm" then pure ((operands arguments).map normalize, [])
    else do
      let created ← checkedCreatedBy tool arguments
      pure ([], created.map normalize)

end Artifact

namespace Instruction

/-- The files that a step removes. -/
def removedFiles (i : Instruction) : List Text := i.segments.flatMap Artifact.removedIn

/-- The files that a step leaves behind. -/
def createdFiles (i : Instruction) : List Text := i.segments.flatMap Artifact.createdIn

/-- The files that a step removes and those that it leaves behind, by checked accesses. -/
def checkedFiles (i : Instruction) : Except Fault (List Text × List Text) := do
  let files ← i.segments.mapM Artifact.checkedFiles
  pure (files.flatMap Prod.fst, files.flatMap Prod.snd)

end Instruction

end Drydock
