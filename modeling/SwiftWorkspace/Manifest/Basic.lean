import SwiftWorkspace.Reference

/-!
# Manifests

A manifest is what a package says about itself: its name, platforms,
dependencies, targets and products.  A dependency is addressed either by the
URL of a repository or by a local path, never by both and never by neither.
-/

namespace SwiftWorkspace

/-- The value of an optional text that is present and not empty. -/
def filled? (value : Option Text) : Option Text :=
  value.filter (!·.isEmpty)

structure DependencyFields where
  name : Text := []
  url : Option Text := none
  path : Option Text := none
  version : Option Text := none
  branch : Option Text := none
  commit : Option Text := none
  deriving DecidableEq, Repr

namespace DependencyFields

/-- Whether exactly one of URL and path is present and not empty. -/
def isAddressed (fields : DependencyFields) : Bool :=
  (filled? fields.url).isSome != (filled? fields.path).isSome

/-- The URL or path that the dependency is addressed by. -/
def address (fields : DependencyFields) : Text :=
  ((filled? fields.url).orElse fun _ => filled? fields.path).getD []

/-- The parts with the canonical name of the address in place of an empty name. -/
def named (fields : DependencyFields) : DependencyFields :=
  if fields.name.isEmpty then { fields with name := Reference.canonicalName fields.address }
  else fields

theorem isAddressed_named (fields : DependencyFields) :
    fields.named.isAddressed = fields.isAddressed := by
  simp only [named]
  split <;> rfl

end DependencyFields

/-- A dependency of a package, addressed either by URL or by path. -/
structure Dependency extends DependencyFields where
  addressed : toDependencyFields.isAddressed = true
  deriving DecidableEq, Repr

namespace Dependency

/-- The dependency with the given parts, unless its address is missing or doubled. -/
def ofFields? (fields : DependencyFields) : Option Dependency :=
  if addressed : fields.isAddressed = true then
    some ⟨fields.named, fields.isAddressed_named.trans addressed⟩
  else none

/-- Whether the dependency is addressed by URL. -/
def isRemote (dependency : Dependency) : Bool := (filled? dependency.url).isSome

/-- Whether the dependency is addressed by path. -/
def isLocal (dependency : Dependency) : Bool := (filled? dependency.path).isSome

end Dependency

inductive TargetKind where
  | library
  | executable
  | test
  deriving DecidableEq, Repr

namespace TargetKind

def ofKeyword? (keyword : Text) : Option TargetKind :=
  if keyword = "target".toList then some .library
  else if keyword = "executableTarget".toList then some .executable
  else if keyword = "testTarget".toList then some .test
  else none

def label : TargetKind → Text
  | .library => "library".toList
  | .executable => "executable".toList
  | .test => "test".toList

end TargetKind

/-- A target of a package; of its dependencies those that are plain strings. -/
structure Target where
  name : Text
  kind : TargetKind
  dependencies : List Text := []
  path : Option Text := none
  deriving DecidableEq, Repr

inductive ProductKind where
  | library
  | executable
  deriving DecidableEq, Repr

namespace ProductKind

def ofKeyword? (keyword : Text) : Option ProductKind :=
  if keyword = "library".toList then some .library
  else if keyword = "executable".toList then some .executable
  else none

def label : ProductKind → Text
  | .library => "library".toList
  | .executable => "executable".toList

end ProductKind

structure Product where
  name : Text
  kind : ProductKind
  targets : List Text := []
  deriving DecidableEq, Repr

def unknownPackage : Text := "unknown-package".toList

structure Manifest where
  name : Text := unknownPackage
  /-- Platforms with their versions, each platform once, in the order of their first mention. -/
  platforms : Option (List (Text × Text)) := none
  dependencies : List Dependency := []
  targets : List Target := []
  products : List Product := []
  deriving DecidableEq, Repr

namespace Manifest

def target? (manifest : Manifest) (name : Text) : Option Target :=
  manifest.targets.find? (·.name = name)

def isApplication (manifest : Manifest) : Bool :=
  manifest.targets.any (·.kind = .executable)

def hasTestTarget (manifest : Manifest) : Bool :=
  manifest.targets.any (·.kind = .test)

def isNamed (manifest : Manifest) : Bool := manifest.name ≠ unknownPackage

end Manifest

end SwiftWorkspace
