import SwiftWorkspace.Workspace.Change
import SwiftWorkspace.Workspace.Overview

/-!
# Requests to a workspace

What a workspace can be asked for.  For each request the directory is searched
anew, so that the answer fits the disk as it is then.
-/

namespace SwiftWorkspace

inductive Request where
  /-- The manifest of a project. -/
  | manifest (project : Text)
  /-- The graph of some manifest files, or of all. -/
  | graph (changed : Option (List Text))
  /-- A new dependency of a project. -/
  | add (project : Text) (dependency : DependencyRequest)
  /-- One dependency less of a project. -/
  | remove (project dependency : Text) (targets : Option (List Text)) (dropDeclaration : Bool)
  /-- All projects with their tasks. -/
  | projects
  deriving DecidableEq, Repr

inductive Answer where
  | manifest (manifest : Manifest)
  | edges (edges : List Edge)
  | added (dependency : Dependency)
  | removed
  | projects (nodes : List ProjectNode)
  deriving DecidableEq, Repr

/-- What comes of a request: the disk behind it, the answer or an error, and the reports. -/
structure Served where
  disk : Disk
  answer : Except WorkspaceError Answer
  records : List LogRecord

namespace Served

def ofReported {α : Type} (disk : Disk) (answer : α → Answer)
    (reported : Reported (Except WorkspaceError α)) : Served :=
  { disk, answer := reported.value.map answer, records := reported.records }

def ofExcept {α : Type} (disk : Disk) (answer : α → Answer)
    (result : Except WorkspaceError (Disk × Reported α)) : Served :=
  match result with
  | .ok (after, found) =>
      { disk := after, answer := .ok (answer found.value), records := found.records }
  | .error error => { disk, answer := .error error, records := [] }

/-- What comes of a planned change, in the text of which some characters stand for halves. -/
def ofPlan (standIns : StandIns) (disk : Disk) : Except WorkspaceError (Change Answer) → Served
  | .error error => { disk, answer := .error error, records := [] }
  | .ok change =>
      match disk.writePoints change.path (standIns.read change.text) with
      | (.ok (), after) =>
          { disk := after, answer := .ok change.outcome, records := change.records }
      | (.error run, after) => { disk := after, answer := .error (.unencodable run), records := [] }

/-- Where all characters stand for themselves, a planned change is just carried out. -/
theorem ofPlan_nil {α : Type} (disk : Disk) (tell : α → Answer)
    (plan : Except WorkspaceError (Change α)) :
    ofPlan [] disk (plan.map (·.map tell)) = ofExcept disk tell (Workspace.carryOut disk plan) := by
  cases plan with
  | error error => rfl
  | ok change =>
      have written : disk.writePoints change.path (StandIns.read [] change.text) =
          (.ok (), change.apply disk) := by
        rw [Disk.writePoints, StandIns.read_nil, CodePoints.toText_eq_ok.mpr rfl]
        rfl
      simp only [Except.map, ofPlan, Change.map, written]
      rfl

/-- What comes of a request behind other reports. -/
def behind (served : Served) (records : List LogRecord) : Served :=
  { served with records := records ++ served.records }

end Served

namespace Request

def answer (disk : Disk) (surroundings : Surroundings) (workspace : Workspace) : Request → Served
  | .manifest project =>
      let found := workspace.readManifest disk project
      .ofExcept disk .manifest (found.map fun manifest => (disk, manifest))
  | .graph changed =>
      .ofReported disk .edges (workspace.configuredGraph disk surroundings changed)
  | .add project dependency =>
      .ofPlan surroundings.standIns disk
        ((workspace.planAddition disk project dependency).map (·.map .added))
  | .remove project dependency targets dropDeclaration =>
      .ofPlan surroundings.standIns disk
        ((workspace.planRemoval disk project dependency targets dropDeclaration).map
          (·.map fun () => .removed))
  | .projects => .ofReported disk .projects (workspace.inferProjects disk)

section Texts

variable {surroundings : Surroundings} (texts : surroundings.standIns = [])

include texts

/-- Asked with texts, a workspace adds a dependency or changes nothing. -/
theorem answer_add (disk : Disk) (workspace : Workspace) (project : Text)
    (dependency : DependencyRequest) : (add project dependency).answer disk surroundings workspace =
      .ofExcept disk .added (workspace.addDependency disk project dependency) := by
  simp only [answer, texts]
  exact Served.ofPlan_nil disk .added _

/-- Asked with texts, a workspace removes a dependency or changes nothing. -/
theorem answer_remove (disk : Disk) (workspace : Workspace) (project dependency : Text)
    (targets : Option (List Text)) (dropDeclaration : Bool) :
    (remove project dependency targets dropDeclaration).answer disk surroundings workspace =
      .ofExcept disk (fun () => .removed)
        (workspace.removeDependency disk project dependency targets dropDeclaration) := by
  simp only [answer, texts]
  exact Served.ofPlan_nil disk (fun () => .removed) _

end Texts

def serveIn (reader : DocumentReader) (disk : Disk) (directory : Path)
    (serve : Workspace → Served) : Served :=
  match Workspace.discover reader disk directory none with
  | .error error => { disk, answer := .error error, records := [] }
  | .ok found => (serve found.value).behind found.records

/-- Find the workspace in a directory and let it answer a request. -/
def serve (disk : Disk) (surroundings : Surroundings) (directory : Path) (request : Request) :
    Served :=
  serveIn surroundings.reader disk directory fun workspace =>
    request.answer disk surroundings workspace

end Request

end SwiftWorkspace
