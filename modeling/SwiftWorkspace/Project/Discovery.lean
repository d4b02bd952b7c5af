import SwiftWorkspace.Glob
import SwiftWorkspace.Manifest.File
import SwiftWorkspace.Project.Basic

/-!
# Discovery

Every directory below the workspace that holds a manifest is a project, unless
it lies in a directory that never holds projects or that a pattern excludes.
The walk visits a directory before its subdirectories, and those by name.  A
directory whose path is too long to be looked up is passed over, and all that
lies in it.
-/

namespace SwiftWorkspace

namespace Discovery

/-- What the walk looks for and what it leaves out. -/
structure Options where
  manifestName : Text := "Package.swift".toList
  exclude : List Text := []

def skippedNames : List Text :=
  [".build", ".git", ".hg", ".svn", ".swiftpm", ".venv", "node_modules", "__pycache__",
    "DerivedData"].map Text.ofString

def cleaned (pattern : Text) : Text := Text.trim (· = '/') pattern.strip

def lastSegment (path : Text) : Text := (path.splitOn '/').getLast?.getD []

/--
Whether a pattern excludes a path: it matches the path, leads to a directory
above it, or holds no slash and matches the last segment.
-/
def isExcludedBy (path pattern : Text) : Bool :=
  let pattern := cleaned pattern
  !pattern.isEmpty &&
    (Glob.isMatch pattern path || path.startsWith (pattern ++ ['/']) ||
      (!pattern.elem '/' && Glob.isMatch pattern (lastSegment path)))

def isExcluded (path : Text) (patterns : List Text) : Bool := patterns.any (isExcludedBy path)

def childPath (path name : Text) : Text := if path.isEmpty then name else path ++ '/' :: name

def enters (options : Options) (name path : Text) : Bool :=
  !skippedNames.elem name && !isExcluded path options.exclude

def holdsFile (name : Text) (entries : List (Text × Entry)) : Bool :=
  entries.any fun (other, entry) =>
    other = name && match entry with
      | .file _ => true
      | .directory _ => false

def projectName (disk : Disk) (manifest directory : Path) : Reported Text :=
  match Manifest.read disk manifest with
  | .error failure =>
      ⟨directory.name, [⟨.warning, .discovery, Manifest.unreadableMessage failure⟩]⟩
  | .ok read => read.map fun manifest => if manifest.isNamed then manifest.name else directory.name

def projectAt (disk : Disk) (options : Options) (directory : Path) (path : Text) :
    Reported Project :=
  (projectName disk (directory.child options.manifestName) directory).map fun name =>
    ⟨name, if path.isEmpty then workspaceRoot else path⟩

/-- Whether the walk can list a directory.  It goes on where it cannot, as if there were nothing. -/
def isListed (disk : Disk) (directory : Path) : Bool := (disk.locate directory).isOk

mutual

def walk (disk : Disk) (options : Options) (directory : Path) (path : Text) :
    Entry → List (Reported Project)
  | .file _ => []
  | .directory entries =>
      if isListed disk directory then
        (if holdsFile options.manifestName entries then
          [projectAt disk options directory path] else []) ++
        ((walkEntries disk options directory path entries).mergeSort
          fun left right => Text.le left.1 right.1).flatMap Prod.snd
      else []

def walkEntries (disk : Disk) (options : Options) (directory : Path) (path : Text) :
    List (Text × Entry) → List (Text × List (Reported Project))
  | [] => []
  | (name, entry) :: entries =>
      let below := childPath path name
      let rest := walkEntries disk options directory path entries
      if enters options name below then
        (name, walk disk options (directory.child name) below entry) :: rest
      else rest

end

def discover (disk : Disk) (options : Options) (workspace : Path) : Reported (List Project) :=
  let root := disk.resolve workspace
  let found :=
    match disk.locate root with
    | .ok entry => Reported.collect (walk disk options root [] entry)
    | .error _ => ⟨[], []⟩
  let message := s!"Discovered {found.value.length} projects under {root.text.asString}"
  { found with records := found.records ++ [⟨.debug, .discovery, message⟩] }

end Discovery

end SwiftWorkspace
