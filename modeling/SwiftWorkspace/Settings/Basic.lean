import SwiftWorkspace.Disk.Basic
import SwiftWorkspace.Settings.Document
import SwiftWorkspace.Task.Options

/-!
# Settings of a workspace

The settings that a file in the workspace can change, with the values that they
have otherwise.
-/

namespace SwiftWorkspace

structure GraphSettings where
  /-- The command that describes a package. -/
  command : Text := "swift package dump-package".toList
  /-- The number of packages that are described at a time. -/
  workers : Int := 1
  /-- The seconds after which the command is given up. -/
  timeout : Option Float := none
  /-- Whether manifests are read where the command fails. -/
  fallback : Bool := true
  deriving Repr

/-- The settings of a workspace. -/
structure Settings where
  root : Path
  manifestName : Text := "Package.swift".toList
  tasks : TaskOptions := {}
  graph : GraphSettings := {}
  /-- Patterns for the directories in which no projects are searched. -/
  exclude : List Text := []
  deriving Repr

inductive SettingsError where
  /-- The file cannot be read. -/
  | unreadable (failure : ReadFailure)
  /-- The text is not a single document. -/
  | malformed
  /-- The reader of documents ends with an error of another kind. -/
  | raised (name message : String)
  /-- The document is not a mapping. -/
  | notMapping
  /-- There is nothing to describe packages. -/
  | noWorkers
  /-- An integer has no float near it. -/
  | hugeTimeout
  /-- An integer has too many digits for a text. -/
  | longInteger
  deriving Repr

namespace Settings

/-- The name of the file that holds settings. -/
def fileName : Text := ".spmkit.yml".toList

end Settings

namespace SettingsError

def ofDocumentError : DocumentError → SettingsError
  | .malformed => .malformed
  | .raised name message => .raised name message

def name : SettingsError → String
  | .unreadable failure => failure.name
  | .malformed | .notMapping | .noWorkers => "ConfigError"
  | .raised name _ => name
  | .hugeTimeout => "OverflowError"
  | .longInteger => "ValueError"

def message : SettingsError → String
  | .unreadable failure => failure.message
  | .malformed => s!"Failed to parse {Settings.fileName.asString}"
  | .raised _ message => message
  | .notMapping => s!"{Settings.fileName.asString} must contain a mapping at the root"
  | .noWorkers => "graph.max_workers must be at least 1"
  | .hugeTimeout => "int too large to convert to float"
  | .longInteger =>
      "Exceeds the limit (4300 digits) for integer string conversion; " ++
        "use sys.set_int_max_str_digits() to increase the limit"

end SettingsError

end SwiftWorkspace
