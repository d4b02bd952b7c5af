import SwiftWorkspace.Path
import SwiftWorkspace.Text.CodePoint
import SwiftWorkspace.Text.Utf8

/-!
# Disks

A disk is a tree of directories and files, with a working directory that
relative paths start at.  There are no links, so a segment of two dots leads to
the directory that holds the one before it.
-/

namespace SwiftWorkspace

inductive Entry where
  | file (content : Bytes)
  | directory (entries : List (Text × Entry))
  deriving Repr

inductive ReadCause where
  /-- Some segment of the path names nothing. -/
  | notFound
  /-- The path goes on below a file. -/
  | notDirectory
  /-- The path leads to a directory. -/
  | isDirectory
  /-- The content is not UTF-8. -/
  | notText (invalid : Utf8.Invalid)
  /-- The path, or some segment of it that is looked up, is longer than allowed. -/
  | tooLong
  /-- The path holds the null character. -/
  | unnameable
  deriving DecidableEq, Repr

/-- A file that could not be read, as its path was written, and why. -/
structure ReadFailure where
  path : Path
  cause : ReadCause
  deriving DecidableEq, Repr

namespace ReadFailure

/-- The name of the error that the failure shows as. -/
def name (failure : ReadFailure) : String :=
  match failure.cause with
  | .notFound => "FileNotFoundError"
  | .notDirectory => "NotADirectoryError"
  | .isDirectory => "IsADirectoryError"
  | .notText _ => "UnicodeDecodeError"
  | .tooLong => "OSError"
  | .unnameable => "ValueError"

def message (failure : ReadFailure) : String :=
  let path := (Text.quoted failure.path.text).asString
  match failure.cause with
  | .notFound => s!"[Errno 2] No such file or directory: {path}"
  | .notDirectory => s!"[Errno 20] Not a directory: {path}"
  | .isDirectory => s!"[Errno 21] Is a directory: {path}"
  | .notText invalid => invalid.message
  | .tooLong => s!"[Errno 36] File name too long: {path}"
  | .unnameable => "embedded null byte"

end ReadFailure

namespace Entry

def empty : Entry := .directory []

def child? (name : Text) : Entry → Option Entry
  | .file _ => none
  | .directory entries => entries.lookup name

/-- Whether an entry of a directory cannot have the name, since it has too many octets. -/
def isLongName (name : Text) : Bool := 255 < (Utf8.encode name).length

def isDirectory : Entry → Bool
  | .file _ => false
  | .directory _ => true

def locate : (above : List Entry) → Entry → List Text → Except ReadCause Entry
  | _, entry, [] => .ok entry
  | _, .file _, _ :: _ => .error .notDirectory
  | above, .directory entries, segment :: segments =>
      if segment = Path.up then
        match above with
        | [] => locate [] (.directory entries) segments
        | outer :: above => locate above outer segments
      else if isLongName segment then .error .tooLong
      else
        match entries.lookup segment with
        | none => .error .notFound
        | some entry => locate (.directory entries :: above) entry segments

def put (name : Text) (entry : Entry) : List (Text × Entry) → List (Text × Entry)
  | [] => [(name, entry)]
  | (other, old) :: entries =>
      if other = name then (name, entry) :: entries else (other, old) :: put name entry entries

/-- The tree with an entry at the end of some segments; missing directories are made. -/
def place (new : Entry) : List Text → Entry → Entry
  | [], _ => new
  | segment :: segments, .directory entries =>
      let old := (entries.lookup segment).getD .empty
      .directory (put segment (place new segments old) entries)
  | segment :: segments, .file _ =>
      .directory [(segment, place new segments .empty)]

def ensure : List Text → Entry → Entry
  | [], entry => entry
  | segment :: segments, .directory entries =>
      let old := (entries.lookup segment).getD .empty
      .directory (put segment (ensure segments old) entries)
  | _ :: _, .file content => .file content

mutual

/-- The files of a tree with the segments that lead to them. -/
def files : Entry → List (List Text × Bytes)
  | .file content => [([], content)]
  | .directory entries => filesOf entries

def filesOf : List (Text × Entry) → List (List Text × Bytes)
  | [] => []
  | (name, entry) :: entries =>
      (files entry).map (fun (segments, content) => (name :: segments, content)) ++
        filesOf entries

end

end Entry

/-- A tree with a working directory. -/
structure Disk where
  root : Entry
  workingDirectory : Path := ⟨.root, []⟩

namespace Disk

/-- Whether the path as it is written has too many octets to be looked up. -/
def isLongPath (path : Path) : Bool := 4095 < (Utf8.encode path.text).length

def locate (disk : Disk) (path : Path) : Except ReadCause Entry :=
  let absolute := disk.workingDirectory.join path
  if absolute.isUnnameable then .error .unnameable
  else if isLongPath path then .error .tooLong
  else disk.root.locate [] absolute.segments

/-- The absolute path without segments of two dots that a path stands for. -/
def resolve (disk : Disk) (path : Path) : Path := (disk.workingDirectory.join path).collapsed

/-- The absolute path that a path stands for, unless it can name nothing. -/
def resolveName (disk : Disk) (path : Path) : Except ReadFailure Path :=
  if path.isUnnameable then .error ⟨path, .unnameable⟩ else .ok (disk.resolve path)

/-- What the path leads to, if it leads to anything; only a path that is too long is a failure. -/
def find? (disk : Disk) (path : Path) : Except ReadFailure (Option Entry) :=
  match disk.locate path with
  | .ok entry => .ok (some entry)
  | .error .tooLong => .error ⟨path, .tooLong⟩
  | .error _ => .ok none

def isPresent (disk : Disk) (path : Path) : Except ReadFailure Bool :=
  (disk.find? path).map Option.isSome

def isDirectory (disk : Disk) (path : Path) : Except ReadFailure Bool :=
  (disk.find? path).map fun entry => entry.any Entry.isDirectory

def isFile (disk : Disk) (path : Path) : Except ReadFailure Bool :=
  (disk.find? path).map fun entry => entry.any (!·.isDirectory)

/-- The content of the file that a path leads to. -/
def read (disk : Disk) (path : Path) : Except ReadFailure Bytes :=
  match disk.locate path with
  | .ok (.file content) => .ok content
  | .ok (.directory _) => .error ⟨path, .isDirectory⟩
  | .error cause => .error ⟨path, cause⟩

/-- The text of the file that a path leads to, with line feeds for all line ends. -/
def readText (disk : Disk) (path : Path) : Except ReadFailure Text := do
  let content ← disk.read path
  match Utf8.decode content with
  | .ok text => pure text.withLineFeeds
  | .error invalid => throw ⟨path, .notText invalid⟩

/-- The disk with a new content of the file that a path leads to. -/
def write (disk : Disk) (path : Path) (content : Bytes) : Disk :=
  { disk with root := Entry.place (.file content) (disk.resolve path).segments disk.root }

def writeText (disk : Disk) (path : Path) (text : Text) : Disk :=
  disk.write path (Utf8.encode text)

/--
Write some code points to the file that a path leads to.  The file is emptied before anything
is encoded, and stays empty where the code points are not a text.
-/
def writePoints (disk : Disk) (path : Path) (points : CodePoints) : Except HalfRun Unit × Disk :=
  match points.toText with
  | .ok text => (.ok (), disk.writeText path text)
  | .error run => (.error run, disk.write path [])

def makeDirectory (disk : Disk) (path : Path) : Disk :=
  { disk with root := Entry.ensure (disk.resolve path).segments disk.root }

/-- The disk with some octets behind those that the file already holds, if there is one. -/
def append (disk : Disk) (path : Path) (content : Bytes) : Disk :=
  let old := (disk.read path).toOption.getD []
  disk.write path (old ++ content)

def filesBelow (disk : Disk) (directory : Path) : List (Path × Bytes) :=
  match disk.locate directory with
  | .ok entry => entry.files.map fun (segments, content) => (⟨.relative, segments⟩, content)
  | .error _ => []

/-- The files below a directory that differ between two disks; nothing stands for a lost file. -/
def changes (before after : Disk) (directory : Path) : List (Path × Option Bytes) :=
  let old := before.filesBelow directory
  let new := after.filesBelow directory
  (new.filter fun (path, content) => old.lookup path ≠ some content).map
      (fun (path, content) => (path, some content)) ++
    (old.filter fun (path, _) => (new.lookup path).isNone).map fun (path, _) => (path, none)

end Disk

end SwiftWorkspace
