import SwiftWorkspace.Graph.Edge
import SwiftWorkspace.Graph.Tool
import SwiftWorkspace.Json.Reading
import SwiftWorkspace.Manifest.File

/-!
# Sources of edges

The edges of a manifest come from the toolchain's description of the package or
from the manifest's text.  A source may fail for one manifest, so that another
one can be tried.
-/

namespace SwiftWorkspace

/-- Why a source could not describe a manifest. -/
inductive EdgeFailure where
  /-- The manifest file cannot be read. -/
  | unreadable (failure : ReadFailure)
  /-- The tool gave no answer. -/
  | toolFailed (command : List Text) (directory : Path) (failure : ToolFailure)
  /-- The tool's answer is not JSON. -/
  | notJson (directory : Path)
  /-- The tool's answer is not a JSON object. -/
  | notObject (directory : Path)
  deriving DecidableEq, Repr

namespace EdgeFailure

/-- The name of the error that every failure of a source shows as. -/
def name : String := "EdgeSourceError"

def message : EdgeFailure → String
  | .unreadable failure => Manifest.unreadableMessage failure
  | .toolFailed command directory failure =>
      let words := (Text.join [' '] command).asString
      s!"{words} failed in {directory.text.asString}: {failure.message command}"
  | .notJson directory => s!"Unparsable package description from {directory.text.asString}"
  | .notObject directory => s!"Package description from {directory.text.asString} is not an object"

end EdgeFailure

inductive GraphFault where
  /-- The run of a tool ends in an error that is neither the tool's nor the system's. -/
  | tool (fault : ToolFault)
  /-- A tool's answer holds more values in one another than can be read. -/
  | tooDeep (form : JsonForm)
  /-- A path cannot be looked up. -/
  | lookup (failure : ReadFailure)
  deriving DecidableEq, Repr

namespace GraphFault

def name : GraphFault → String
  | .tool fault => fault.name
  | .tooDeep _ => "RecursionError"
  | .lookup failure => failure.name

def message : GraphFault → String
  | .tool fault => fault.message
  | .tooDeep form =>
      let word := match form with
        | .array => "array"
        | .object => "object"
      s!"maximum recursion depth exceeded while decoding a JSON {word} from a unicode string"
  | .lookup failure => failure.message

end GraphFault

/-- What came of asking a source about one manifest. -/
structure Attempt where
  result : Except EdgeFailure (List Edge)
  records : List LogRecord := []
  calls : List ToolCall := []

/-- A named source of edges. -/
structure EdgeSource where
  name : String
  describe : Disk → ManifestContext → Except GraphFault Attempt

namespace EdgeSource

/-- The edges of the local dependencies that a manifest declares. -/
def declaredEdges (context : ManifestContext) (manifest : Manifest) : List Edge :=
  manifest.dependencies.filterMap fun dependency =>
    (filled? dependency.path).bind context.edgeToPath?

/-- The source that reads the manifest's text. -/
def reader : EdgeSource where
  name := "manifest-reader"
  describe disk context :=
    match Manifest.read disk context.manifestPath with
    | .ok read => .ok { result := .ok (declaredEdges context read.value), records := read.records }
    | .error failure =>
        if failure.cause = .unnameable then .error (.lookup failure)
        else .ok { result := .error (.unreadable failure) }

/-- The edges of one entry of a description's dependencies: those to local packages. -/
def localEdges (context : ManifestContext) (entry : JsonValue) : List Edge :=
  (entry.itemsAt "fileSystem".toList).filterMap fun package => do
    let path ← (package.member? "path".toList).bind JsonValue.string?
    if path.isEmpty then none else context.edgeToGiven? path

/-- The edges of one entry of a description's targets: those to projects by name. -/
def targetEdges (context : ManifestContext) (target : JsonValue) : List Edge :=
  (target.itemsAt "dependencies".toList).filterMap fun reference => do
    let first ← (reference.itemsAt "byName".toList).head?
    let name ← first.string?
    context.edgeToName? name

def describedEdges (context : ManifestContext) (description : JsonValue) : List Edge :=
  (description.itemsAt "dependencies".toList).flatMap (localEdges context) ++
    (description.itemsAt "targets".toList).flatMap (targetEdges context)

/-- The edges that a tool's answer describes; no more than some levels of values are read. -/
def edgesOfAnswer (levels : Nat) (context : ManifestContext) (answer : CodePoints) :
    Except GraphFault (Except EdgeFailure (List Edge)) :=
  match JsonValue.ofPoints levels answer with
  | .error (.tooDeep form) => .error (.tooDeep form)
  | .error _ => .ok (.error (.notJson context.packageDirectory))
  | .ok description =>
      if description.isObject then .ok (.ok (describedEdges context description))
      else .ok (.error (.notObject context.packageDirectory))

/-- The source that asks a tool for a description of the package. -/
def dump (toolchain : Toolchain) (levels : Nat) (command : List Text) (timeout : Option Float) :
    EdgeSource where
  name := "dump-package"
  describe disk context :=
    let directory := context.packageDirectory
    let calls := [ToolCall.mk command directory timeout]
    match toolchain disk command directory with
    | .answer answer => do pure { result := ← edgesOfAnswer levels context answer, calls }
    | .failure failure => .ok { result := .error (.toolFailed command directory failure), calls }
    | .fault fault => .error (.tool fault)

end EdgeSource

end SwiftWorkspace
