import SwiftWorkspace.Manifest.File
import SwiftWorkspace.Project.Basic
import SwiftWorkspace.Task.Basic

/-!
# Inferred projects

What a manifest file and the directory around it say about a project: its name,
its kind and its tasks.
-/

namespace SwiftWorkspace

inductive PackageKind where
  | application
  | library
  deriving DecidableEq, Repr

namespace PackageKind

def ofManifest (manifest : Manifest) : PackageKind :=
  if manifest.isApplication then .application else .library

def label : PackageKind → Text
  | .application => "application".toList
  | .library => "library".toList

end PackageKind

structure ProjectNode where
  name : Text
  root : Text
  kind : PackageKind
  sourceRoot : Text
  tasks : List (Text × ProjectTask)
  /-- Whether the directory already holds a description of the project. -/
  isDescribed : Bool
  deriving DecidableEq, Repr

namespace ProjectNode

def tags (node : ProjectNode) : List Text :=
  ["lang:swift".toList, "type:".toList ++ node.kind.label]

def unnamed : Text := "swift-package".toList

/-- The first text that is not empty; else the project is unnamed. -/
def nameOr (name : Text) : Text := if name.isEmpty then unnamed else name

def projectName (workspace : Path) (root : Text) (manifest : Manifest) : Text :=
  if !manifest.name.isEmpty && manifest.isNamed then manifest.name
  else if root = workspaceRoot then nameOr workspace.name
  else nameOr ((root.splitOn '/').getLast?.getD [])

def sourceDirectory (root : Text) : Text :=
  if root = workspaceRoot then "Sources".toList else Path.joinText root "Sources".toList

def descriptionNames : List Text := ["project.json".toList, "package.json".toList]

def hasDescription (disk : Disk) (directory : Path) : Except ReadFailure Bool :=
  descriptionNames.anyM fun name => disk.isPresent (directory.child name)

def ofManifest (disk : Disk) (workspace : Path) (options : TaskOptions) (root : Text)
    (manifest : Manifest) : Except ReadFailure ProjectNode := do
  let isDescribed ← hasDescription disk (workspace.join (Path.ofText root))
  let tasks ← ProjectTask.inWorkspace disk workspace root manifest options
  pure { name := projectName (disk.resolve workspace) root manifest
         root
         kind := .ofManifest manifest
         sourceRoot := sourceDirectory root
         tasks
         isDescribed }

def rootOf (manifestFile : Text) : Text := Project.normalizeRoot (Path.directoryText manifestFile)

def infer (disk : Disk) (workspace : Path) (options : TaskOptions) (manifestFile : Text) :
    Reported (Except ReadFailure (Option ProjectNode)) :=
  match Manifest.read disk (workspace.join (Path.ofText manifestFile)) with
  | .ok read =>
      read.map fun manifest =>
        (ofManifest disk workspace options (rootOf manifestFile) manifest).map some
  | .error failure =>
      if failure.cause = .unnameable then ⟨.error failure, []⟩
      else
        let message := s!"Failed to process Swift package at {manifestFile.asString}: " ++
          Manifest.unreadableMessage failure
        ⟨.ok none, [⟨.warning, .tasks, message⟩]⟩

end ProjectNode

end SwiftWorkspace
