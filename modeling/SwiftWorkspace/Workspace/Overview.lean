import SwiftWorkspace.Graph.Build
import SwiftWorkspace.Task.Node
import SwiftWorkspace.Workspace.Basic

/-!
# Overviews of a workspace

The graph between the projects of a workspace, and its projects with their tasks.
-/

namespace SwiftWorkspace

namespace Workspace

def configuredSources (surroundings : Surroundings) (settings : GraphSettings) :
    Except WorkspaceError (List EdgeSource) := do
  let command ← (ShellWords.split settings.command).mapError .command
  let dump := EdgeSource.dump surroundings.toolchain surroundings.levels command settings.timeout
  pure (if settings.fallback then [dump, .reader] else [dump])

def manifestFiles (workspace : Workspace) : List Text :=
  workspace.index.projects.map workspace.manifestFileOf

def graph (workspace : Workspace) (disk : Disk) (sources : List EdgeSource)
    (changed : Option (List Text)) : Batch :=
  let builder : GraphBuilder := ⟨workspace.index, workspace.root, sources⟩
  builder.build disk (changed.getD workspace.manifestFiles)

def reportedGraph (workspace : Workspace) (disk : Disk) (sources : List EdgeSource)
    (changed : Option (List Text)) : Reported (Except WorkspaceError (List Edge)) :=
  let batch := workspace.graph disk sources changed
  ⟨batch.result.mapError .graph, batch.records⟩

/-- The edges as the sources that the settings ask for describe them. -/
def configuredGraph (workspace : Workspace) (disk : Disk) (surroundings : Surroundings)
    (changed : Option (List Text)) : Reported (Except WorkspaceError (List Edge)) :=
  match configuredSources surroundings workspace.settings.graph with
  | .ok sources => workspace.reportedGraph disk sources changed
  | .error error => ⟨.error error, []⟩

/-- The project of a manifest file with its tasks, unless the file cannot be read. -/
def inferProject (workspace : Workspace) (disk : Disk) (project : Project) :
    Reported (Except WorkspaceError (Option ProjectNode)) :=
  (ProjectNode.infer disk workspace.root workspace.settings.tasks
    (workspace.manifestFileOf project)).map (·.mapError .lookup)

/-- The projects whose manifests can be read, with their tasks. -/
def inferProjects (workspace : Workspace) (disk : Disk) :
    Reported (Except WorkspaceError (List ProjectNode)) :=
  (Reported.collectUntilFailure (workspace.index.projects.map (workspace.inferProject disk))).map
    fun nodes => nodes.map fun found => found.filterMap id

end Workspace

end SwiftWorkspace
