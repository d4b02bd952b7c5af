import SwiftWorkspace.Graph.Source

/-!
# Building the graph

Each manifest file contributes one batch of edges: those of the first source
that can describe it, without the edges that point back at their own project.
The graph is the batches in the order of the files.
-/

namespace SwiftWorkspace

/--
Edges with the records and the tool runs on the way to them.  A batch with a fault
holds what was found until then.
-/
structure Batch where
  edges : List Edge := []
  records : List LogRecord := []
  calls : List ToolCall := []
  fault : Option GraphFault := none

namespace Batch

def append (first second : Batch) : Batch :=
  if first.fault.isSome then first
  else
    { edges := first.edges ++ second.edges
      records := first.records ++ second.records
      calls := first.calls ++ second.calls
      fault := second.fault }

def concat (batches : List Batch) : Batch := batches.foldr append {}

def failed (fault : GraphFault) : Batch := { fault := some fault }

/-- The edges of a batch without fault. -/
def result (batch : Batch) : Except GraphFault (List Edge) :=
  match batch.fault with
  | some fault => .error fault
  | none => .ok batch.edges

end Batch

/-- What a graph is built over. -/
structure GraphBuilder where
  index : ProjectIndex
  workspace : Path
  sources : List EdgeSource

namespace GraphBuilder

/-- A record of the graph component that matters only when something is to be traced. -/
def trace (message : String) : LogRecord := ⟨.debug, .graph, message⟩

/--
A manifest file as a path relative to the workspace.  A path that leads out of
the workspace stays as it is.
-/
def relativeFile (builder : GraphBuilder) (manifest : Text) : Except GraphFault Text :=
  let path := Path.ofText manifest
  if !path.isAbsolute then .ok path.text
  else if path.isUnnameable then .error (.lookup ⟨path, .unnameable⟩)
  else .ok ((path.collapsed.relativeTo? builder.workspace).getD path).text

def packageRoot (manifestFile : Text) : Text :=
  let directory := Path.directoryText manifestFile
  if directory.isEmpty then workspaceRoot else directory

/-- What the sources need to know about a manifest file. -/
def context (builder : GraphBuilder) (manifestFile : Text) : ManifestContext :=
  let root := packageRoot manifestFile
  { sourceRoot := (builder.index.resolveRoot? root).getD (Project.normalizeRoot root)
    manifestFile
    packageDirectory := builder.workspace.join (Path.ofText root)
    workspace := builder.workspace
    index := builder.index }

def describedBatch (attempt : Attempt) (edges : List Edge) : Batch where
  edges := edges.filter (!·.isLoop)
  records := attempt.records
  calls := attempt.calls

def firstBatch (disk : Disk) (context : ManifestContext) : List EdgeSource → Batch
  | [] => { records := [trace s!"No edge source could describe {context.manifestFile.asString}"] }
  | source :: sources =>
      match source.describe disk context with
      | .error fault => .failed fault
      | .ok attempt =>
          match attempt.result with
          | .ok edges => describedBatch attempt edges
          | .error failure =>
              let file := context.manifestFile.asString
              let failed := trace s!"{source.name} failed for {file}: {failure.message}"
              let tried : Batch :=
                { records := attempt.records ++ [failed], calls := attempt.calls }
              tried.append (firstBatch disk context sources)

/-- The batch of one manifest file; it is empty where its directory does not exist. -/
def batchFor (builder : GraphBuilder) (disk : Disk) (manifestFile : Text) : Batch :=
  let context := builder.context manifestFile
  match disk.isDirectory context.packageDirectory with
  | .error failure => .failed (.lookup failure)
  | .ok true => firstBatch disk context builder.sources
  | .ok false =>
      let directory := context.packageDirectory.text.asString
      { records := [trace s!"Skipping {manifestFile.asString}: {directory} does not exist"] }

def summary (edges : List Edge) (files : List Text) : Batch where
  records := [trace s!"Built {edges.length} edges from {files.length} manifests"]

def build (builder : GraphBuilder) (disk : Disk) (manifests : List Text) : Batch :=
  match manifests.mapM builder.relativeFile with
  | .error fault => .failed fault
  | .ok files =>
      let batch := Batch.concat (files.map (builder.batchFor disk))
      batch.append (summary batch.edges files)

end GraphBuilder

end SwiftWorkspace
