import SwiftWorkspace.Decimal.Reading
import SwiftWorkspace.Decimal.Shortest
import SwiftWorkspace.Settings.Basic
import SwiftWorkspace.Text.Lower

/-!
# Loading settings

A value that cannot be what a setting asks for counts as missing, and a missing
setting has its usual value.
-/

namespace SwiftWorkspace

namespace Settings

def textOf? : DocumentValue → Except SettingsError (Option Text)
  | .text text => .ok (some text)
  | .bool value => .ok (some (if value then "True" else "False").toList)
  | .float value => .ok (some (Decimal.ofFloat value))
  | .int value =>
      if Nat.pow 10 Decimal.maxDigits ≤ value.natAbs then .error .longInteger
      else .ok (some (Text.ofInt value))
  | _ => .ok none

def readText? : Option DocumentValue → Except SettingsError (Option Text)
  | some value => textOf? value
  | none => .ok none

def readTextOr (default : Text) (value : Option DocumentValue) : Except SettingsError Text := do
  match ← readText? value with
  | some text => pure (if text.isEmpty then default else text)
  | none => pure default

def readInt? : Option DocumentValue → Option Int
  | some (.int value) => some value
  | some (.text text) => (Decimal.readInt 10 text).toOption
  | _ => none

def readFloat? : Option DocumentValue → Except SettingsError (Option Float)
  | some (.float value) => .ok (some value)
  | some (.text text) => .ok (Decimal.readFloat? text)
  | some (.int value) =>
      match Decimal.ofInt? value with
      | some nearest => .ok (some nearest)
      | none => .error .hugeTimeout
  | _ => .ok none

def boolWords : List (Text × Bool) :=
  [("true".toList, true), ("yes".toList, true), ("1".toList, true), ("false".toList, false),
    ("no".toList, false), ("0".toList, false)]

def readBool? : Option DocumentValue → Option Bool
  | some (.bool value) => some value
  | some (.text text) => boolWords.lookup text.strip.lower
  | _ => none

def readTexts : Option DocumentValue → Except SettingsError (List Text)
  | some (.text text) => .ok [text]
  | some (.octets octets) => .ok (octets.map fun octet => Text.ofNat octet.toNat)
  | some (.list items) => do
      let texts ← items.mapM textOf?
      pure (texts.filterMap id)
  | _ => .ok []

def member? (key : String) (value : Option DocumentValue) : Option DocumentValue :=
  value.bind (DocumentValue.member? key.toList)

def readCommands (commands : Option DocumentValue) : Except SettingsError TaskOptions := do
  let usual : TaskOptions := {}
  let build ← readTextOr usual.build (member? "build" commands)
  let test ← readTextOr usual.test (member? "test" commands)
  let lint ← readTextOr usual.lint (member? "lint" commands)
  pure { usual with build, test, lint }

/-- The number of packages that are described at a time, which is positive. -/
def readWorkers (value : Option DocumentValue) : Except SettingsError Int :=
  match readInt? value with
  | none => .ok 1
  | some workers => if workers < 1 then .error .noWorkers else .ok workers

def readTimeout? (value : Option DocumentValue) : Except SettingsError (Option Float) := do
  match ← readFloat? value with
  | some timeout => pure (if timeout > 0 then some timeout else none)
  | none => pure none

def readGraph (graph : Option DocumentValue) : Except SettingsError GraphSettings := do
  let usual : GraphSettings := {}
  let command ← readTextOr usual.command (member? "dump_command" graph)
  let workers ← readWorkers (member? "max_workers" graph)
  let timeout ← readTimeout? (member? "timeout" graph)
  let fallback := (readBool? (member? "fallback" graph)).getD usual.fallback
  pure { command, workers, timeout, fallback }

def ofDocument (root : Path) (document : DocumentValue) : Except SettingsError Settings := do
  let member? (key : String) : Option DocumentValue := member? key (some document)
  let usual : Settings := { root }
  let commands ← readCommands (member? "commands")
  let graph ← readGraph (member? "graph")
  let includeTest := (readBool? (member? "include_test_tasks")).getD usual.tasks.includeTest
  let includeLint := (readBool? (member? "include_lint_tasks")).getD usual.tasks.includeLint
  let manifestName ← readTextOr usual.manifestName (member? "manifest_name")
  let exclude ← readTexts (member? "exclude_paths")
  pure { root, manifestName, tasks := { commands with includeTest, includeLint }, graph, exclude }

/-- The settings in a text; a text without a document changes nothing. -/
def ofText (reader : DocumentReader) (root : Path) (text : Text) :
    Except SettingsError Settings := do
  if text.strip.isEmpty then return { root }
  match ← (reader text).mapError SettingsError.ofDocumentError with
  | .null => pure { root }
  | .mapping entries => ofDocument root (.mapping entries)
  | _ => throw .notMapping

/--
The file that holds the settings for a path: the path itself, or the file of the
usual name in it if it is a directory, and else beside it.
-/
def file (disk : Disk) (path : Path) : Except ReadFailure Path := do
  let file :=
    if ← disk.isDirectory path then path.child fileName
    else if path.name ≠ fileName then path.parent.child fileName
    else path
  disk.resolveName file

def readFile (disk : Disk) (path : Path) : Except ReadFailure (Path × Option Text) := do
  let file ← file disk path
  if ← disk.isPresent file then pure (file, some (← disk.readText file)) else pure (file, none)

/-- The settings for a path; without a file they are the usual ones. -/
def load (reader : DocumentReader) (disk : Disk) (path : Path) : Except SettingsError Settings := do
  match ← (readFile disk path).mapError .unreadable with
  | (file, some text) => ofText reader file.parent text
  | (file, none) => pure { root := file.parent }

end Settings

end SwiftWorkspace
