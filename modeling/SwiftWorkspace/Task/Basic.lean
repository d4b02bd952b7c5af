import SwiftWorkspace.Disk.Basic
import SwiftWorkspace.Manifest.Basic
import SwiftWorkspace.Task.Options

/-!
# Tasks

What can be run for a project: its build, its tests, its lint and the removal of
what was built.  The files that a task reads and writes are given relative to
the project.
-/

namespace SwiftWorkspace

structure ProjectTask where
  command : Text
  /-- The root of the project that the task is run in. -/
  directory : Text
  /-- Whether the outputs of a run stand for those of another with the same inputs. -/
  isCached : Bool := false
  inputs : List Text := []
  outputs : List Text := []
  /-- The tasks that have to come first, in the project or the ones it depends on. -/
  dependsOn : List Text := []
  deriving DecidableEq, Repr

namespace ProjectTask

def inProject (path : String) : Text := "\x7bprojectRoot\x7d/".toList ++ path.toList

def commandOr (usual command : Text) : Text := if command.isEmpty then usual else command

def build (root : Text) (options : TaskOptions) : ProjectTask where
  command := commandOr ({} : TaskOptions).build options.build
  directory := root
  isCached := true
  inputs := ["Package.swift", "Sources/**/*", "Package.resolved"].map inProject
  outputs := [inProject ".build"]

def test (root : Text) (options : TaskOptions) : ProjectTask where
  command := commandOr ({} : TaskOptions).test options.test
  directory := root
  isCached := true
  inputs := ["Package.swift", "Sources/**/*", "Tests/**/*", "Package.resolved"].map inProject
  outputs := [inProject ".build"]
  dependsOn := ["^build".toList]

def lint (root : Text) (options : TaskOptions) : ProjectTask where
  command := commandOr ({} : TaskOptions).lint options.lint
  directory := root
  isCached := true
  inputs := ["Sources/**/*.swift", "Tests/**/*.swift", ".swiftlint.yml"].map inProject

/-- The task that removes what was built. -/
def clean (root : Text) : ProjectTask where
  command := "swift package clean".toList
  directory := root

/-- The tasks of a project by their names; without tests there is nothing to test. -/
def all (root : Text) (options : TaskOptions) (hasTests : Bool) : List (Text × ProjectTask) :=
  [("build".toList, build root options)] ++
    (if options.includeTest && hasTests then [("test".toList, test root options)] else []) ++
    (if options.includeLint then [("lint".toList, lint root options)] else []) ++
    [("clean".toList, clean root)]

def ofManifest (root : Text) (manifest : Manifest) (options : TaskOptions) :
    List (Text × ProjectTask) :=
  all root options manifest.hasTestTarget

def hasTestDirectory (disk : Disk) (workspace : Path) (root : Text) : Except ReadFailure Bool :=
  disk.isDirectory ((workspace.join (Path.ofText root)).child "Tests".toList)

/--
The tasks of a project in a workspace.  A directory for tests counts as well as a
target; it is looked up only if tests are wanted.
-/
def inWorkspace (disk : Disk) (workspace : Path) (root : Text) (manifest : Manifest)
    (options : TaskOptions) : Except ReadFailure (List (Text × ProjectTask)) := do
  if options.includeTest then
    let found ← hasTestDirectory disk workspace root
    pure (all root options (found || manifest.hasTestTarget))
  else pure (all root options false)

end ProjectTask

end SwiftWorkspace
