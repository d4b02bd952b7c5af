import SwiftWorkspace.Project.Discovery
import SwiftWorkspace.Project.Index
import SwiftWorkspace.Settings.Reading
import SwiftWorkspace.Workspace.Error

/-!
# Workspaces

A workspace is a directory of packages with its settings.  Its projects are
addressed by name or by root.
-/

namespace SwiftWorkspace

/-- What a workspace relies on and does not decide itself. -/
structure Surroundings where
  toolchain : Toolchain
  /-- The reader of settings. -/
  reader : DocumentReader
  /-- How many JSON values may be open in one another. -/
  levels : Nat
  /-- The characters that stand for halves of surrogate pairs in what is asked. -/
  standIns : StandIns := []

/-- A directory of packages that are addressed as projects. -/
structure Workspace where
  root : Path
  settings : Settings
  index : ProjectIndex

namespace Workspace

def ofProjects (disk : Disk) (root : Path) (settings : Option Settings)
    (projects : List Project) : Workspace where
  root := disk.resolve root
  settings := settings.getD { root := disk.resolve root }
  index := .ofProjects projects

def settingsOf (reader : DocumentReader) (disk : Disk) (root : Path) (given : Option Settings) :
    Except WorkspaceError Settings :=
  match given with
  | some settings => .ok settings
  | none => (Settings.load reader disk root).mapError .settings

def discoveryOptions (settings : Settings) : Discovery.Options where
  manifestName := settings.manifestName
  exclude := settings.exclude

/-- The workspace in a directory with all projects below it. -/
def discover (reader : DocumentReader) (disk : Disk) (root : Path) (given : Option Settings) :
    Except WorkspaceError (Reported Workspace) := do
  let root ← (disk.resolveName root).mapError .lookup
  let settings ← settingsOf reader disk root given
  let found := Discovery.discover disk (discoveryOptions settings) root
  pure (found.map (ofProjects disk root (some settings)))

def project (workspace : Workspace) (reference : Text) : Except WorkspaceError Project :=
  match workspace.index.find? reference with
  | some project => .ok project
  | none => .error (.projectNotFound reference workspace.root)

def manifestFileOf (workspace : Workspace) (project : Project) : Text :=
  if project.root = workspaceRoot then workspace.settings.manifestName
  else Path.joinText project.root workspace.settings.manifestName

def manifestFile (workspace : Workspace) (reference : Text) : Except WorkspaceError Text :=
  (workspace.project reference).map workspace.manifestFileOf

/-- The path of the manifest file of the project that a reference means. -/
def manifestPath (workspace : Workspace) (disk : Disk) (reference : Text) :
    Except WorkspaceError Path := do
  let path := workspace.root.join (Path.ofText (← workspace.manifestFile reference))
  if ← (disk.isFile path).mapError .lookup then pure path
  else throw (.manifestNotFound workspace.settings.manifestName path)

def readManifest (workspace : Workspace) (disk : Disk) (reference : Text) :
    Except WorkspaceError (Reported Manifest) := do
  let path ← workspace.manifestPath disk reference
  (Manifest.read disk path).mapError .unreadable

end Workspace

end SwiftWorkspace
