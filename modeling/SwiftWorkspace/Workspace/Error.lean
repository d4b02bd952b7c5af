import SwiftWorkspace.Edit.Message
import SwiftWorkspace.Graph.Source
import SwiftWorkspace.Settings.Basic
import SwiftWorkspace.Text.ShellWords

/-!
# Errors of a workspace

Why a request to a workspace is not answered.  Some things are not found, some
requests are refused, and some could not even be tried.
-/

namespace SwiftWorkspace

/-- Why a request to a workspace is not answered. -/
inductive WorkspaceError where
  /-- The settings cannot be loaded. -/
  | settings (error : SettingsError)
  /-- No project is meant by the reference. -/
  | projectNotFound (reference : Text) (workspace : Path)
  /-- A project has no manifest file any more. -/
  | manifestNotFound (name : Text) (path : Path)
  /-- A manifest file cannot be read. -/
  | unreadable (failure : ReadFailure)
  /-- A new dependency has both a URL and a project. -/
  | twoAddresses
  /-- A new dependency has neither a URL nor a project. -/
  | noAddress
  /-- The version requirement of a new dependency has no known form. -/
  | invalidVersion (version : Text)
  /-- A dependency is not addressed in exactly one way. -/
  | unaddressed
  /-- The text of a manifest cannot be edited in this way. -/
  | edit (error : EditError)
  /-- The command that describes packages cannot be split into words. -/
  | command (flaw : ShellWords.Flaw)
  /-- No source of edges can be asked. -/
  | graph (fault : GraphFault)
  /-- A path cannot be looked up. -/
  | lookup (failure : ReadFailure)
  /-- The new text of a manifest holds halves of surrogate pairs. -/
  | unencodable (run : HalfRun)
  deriving Repr

inductive ErrorClass where
  /-- What the request names does not exist. -/
  | notFound
  /-- The request cannot be met as it is. -/
  | refused
  /-- Something went wrong that the request is not about. -/
  | unforeseen
  deriving DecidableEq, Repr

namespace SettingsError

def isForeseen : SettingsError → Bool
  | .malformed | .notMapping | .noWorkers => true
  | _ => false

end SettingsError

namespace EditError

def isNotFound : EditError → Bool
  | .targetNotFound _ | .dependencyNotFound _ => true
  | _ => false

end EditError

namespace WorkspaceError

def errorClass : WorkspaceError → ErrorClass
  | .settings error => if error.isForeseen then .refused else .unforeseen
  | .projectNotFound .. | .manifestNotFound .. => .notFound
  | .unreadable failure => if failure.cause = .unnameable then .unforeseen else .refused
  | .twoAddresses | .noAddress | .invalidVersion _ => .refused
  | .edit error => if error.isNotFound then .notFound else .refused
  | .unaddressed | .command _ | .graph _ | .lookup _ | .unencodable _ => .unforeseen

def name : WorkspaceError → String
  | .settings error => error.name
  | .projectNotFound .. => "ProjectNotFoundError"
  | .manifestNotFound .. => "ManifestNotFoundError"
  | .unreadable failure =>
      if failure.cause = .unnameable then failure.name else "ManifestReadError"
  | .twoAddresses | .noAddress | .invalidVersion _ => "InvalidDependencyError"
  | .edit error => error.name
  | .unaddressed | .command _ => "ValueError"
  | .graph fault => fault.name
  | .lookup failure => failure.name
  | .unencodable _ => "UnicodeEncodeError"

def message : WorkspaceError → String
  | .settings error => error.message
  | .projectNotFound reference workspace =>
      s!"Project \"{reference.asString}\" not found in workspace {workspace.text.asString}"
  | .manifestNotFound name path => s!"{name.asString} not found at {path.text.asString}"
  | .unreadable failure =>
      if failure.cause = .unnameable then failure.message
      else Manifest.unreadableMessage failure
  | .twoAddresses => "Specify either a URL or a local project, not both"
  | .noAddress => "URL is required for remote dependencies"
  | .invalidVersion version => s!"Invalid version requirement \"{version.asString}\""
  | .unaddressed => unaddressedMessage
  | .edit error => error.message
  | .command flaw => flaw.message
  | .graph fault => fault.message
  | .lookup failure => failure.message
  | .unencodable run => run.message

end WorkspaceError

end SwiftWorkspace
