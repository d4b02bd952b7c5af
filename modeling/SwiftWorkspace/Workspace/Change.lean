import SwiftWorkspace.RelativePath
import SwiftWorkspace.Requirement
import SwiftWorkspace.Workspace.Basic

/-!
# Changing manifests of a workspace

A dependency is added to or removed from a project in two steps: the manifest
file is read and its new text worked out, and then the text is written.  A
request that fails in the first step is refused and changes nothing.  The second
step fails where a text is not given as one, and then leaves the file empty.
-/

namespace SwiftWorkspace

/-- A file with its new text, and what the change amounts to. -/
structure Change (α : Type) where
  path : Path
  text : Text
  outcome : α
  records : List LogRecord

namespace Change

def apply {α : Type} (change : Change α) (disk : Disk) : Disk :=
  disk.writeText change.path change.text

/-- The same change, amounting to something else. -/
def map {α β : Type} (tell : α → β) (change : Change α) : Change β :=
  { change with outcome := tell change.outcome }

theorem map_text {α β : Type} (tell : α → β) (change : Change α) :
    (change.map tell).text = change.text := rfl

def reported {α : Type} (change : Change α) : Reported α := ⟨change.outcome, change.records⟩

end Change

structure DependencyRequest where
  url : Option Text := none
  version : Option Text := none
  localProject : Option Text := none
  targets : Option (List Text) := none
  product : Option Text := none
  deriving DecidableEq, Repr

namespace DependencyRequest

/-- Where a new dependency comes from. -/
inductive Address where
  | remote (url : Text)
  | localProject (reference : Text)
  deriving DecidableEq, Repr

/-- The address of the new dependency, which has to be given in exactly one way. -/
def address (request : DependencyRequest) : Except WorkspaceError Address :=
  match filled? request.url, filled? request.localProject with
  | some _, some _ => .error .twoAddresses
  | none, none => .error .noAddress
  | none, some reference => .ok (.localProject reference)
  | some url, none =>
      match request.version with
      | none => .ok (.remote url)
      | some version =>
          if Requirement.isValid version then .ok (.remote url)
          else .error (.invalidVersion version)

end DependencyRequest

namespace Workspace

def note (message : String) : LogRecord := ⟨.info, .workspace, message⟩

def additionRecords (owner : Project) (dependency : Dependency) (reference : Text) :
    List LogRecord :=
  let kind := if dependency.isRemote then "remote" else "local"
  let root := owner.root.asString
  [note s!"Added {kind} dependency \"{reference.asString}\" to project \"{owner.name.asString}\"",
    note s!"Run 'swift package resolve' in {root} to resolve the new dependency"]

def newDependency (workspace : Workspace) (owner : Project) (request : DependencyRequest) :
    DependencyRequest.Address → Except WorkspaceError (DependencyFields × Option Text)
  | .remote url => .ok ({ url := some url, version := request.version }, filled? request.product)
  | .localProject reference => do
      let target ← workspace.project reference
      let path := RelativePath.between owner.root target.root
      pure ({ path := some path }, (filled? request.product).or (filled? (some target.name)))

def planAddition (workspace : Workspace) (disk : Disk) (reference : Text)
    (request : DependencyRequest) : Except WorkspaceError (Change Dependency) := do
  let address ← request.address
  let owner ← workspace.project reference
  let path ← workspace.manifestPath disk reference
  let (fields, product) ← workspace.newDependency owner request address
  match Dependency.ofFields? fields with
  | none => throw .unaddressed
  | some dependency =>
      let text ← (disk.readText path).mapError .unreadable
      let updated ← (Edit.insert text dependency request.targets product).mapError .edit
      let name := product.getD (Reference.canonicalName dependency.name)
      pure { path, text := updated, outcome := dependency
             records := additionRecords owner dependency name }

def openManifest (workspace : Workspace) (disk : Disk) (reference : Text) :
    Except WorkspaceError (Project × Path × Text) := do
  let owner ← workspace.project reference
  let path ← workspace.manifestPath disk reference
  pure (owner, path, ← (disk.readText path).mapError .unreadable)

def planRemoval (workspace : Workspace) (disk : Disk) (reference dependency : Text)
    (targets : Option (List Text)) (dropDeclaration : Bool) :
    Except WorkspaceError (Change Unit) := do
  let (owner, path, text) ← workspace.openManifest disk reference
  let edited ← (Edit.remove text dependency targets dropDeclaration).mapError .edit
  let warnings := edited.warnings.map fun warning =>
    LogRecord.mk .warning .editor warning.message
  let project := owner.name.asString
  let removed := note s!"Removed dependency \"{dependency.asString}\" from project \"{project}\""
  pure { path, text := edited.text, outcome := (), records := warnings ++ [removed] }

def carryOut {α : Type} (disk : Disk) (plan : Except WorkspaceError (Change α)) :
    Except WorkspaceError (Disk × Reported α) :=
  plan.map fun change => (change.apply disk, change.reported)

/-- Declare a new dependency in the manifest of a project. -/
def addDependency (workspace : Workspace) (disk : Disk) (reference : Text)
    (request : DependencyRequest) : Except WorkspaceError (Disk × Reported Dependency) :=
  carryOut disk (workspace.planAddition disk reference request)

def removeDependency (workspace : Workspace) (disk : Disk) (reference dependency : Text)
    (targets : Option (List Text)) (dropDeclaration : Bool) :
    Except WorkspaceError (Disk × Reported Unit) :=
  carryOut disk (workspace.planRemoval disk reference dependency targets dropDeclaration)

end Workspace

end SwiftWorkspace
