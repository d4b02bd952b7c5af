import SwiftWorkspace.Edit.Target
import SwiftWorkspace.Manifest.Query
import SwiftWorkspace.Manifest.Reading

/-!
# Editing the dependencies of a package

Inserting a dependency declares it and refers to it from targets.  Removing one
drops the references and, when none is left, its declaration.
-/

namespace SwiftWorkspace

/-- What should be known about an edit that succeeded. -/
inductive EditWarning where
  /-- None of the selected targets referred to the dependency. -/
  | notReferenced (name : Text)
  /-- The declaration stays because some target still refers to the dependency. -/
  | stillUsed (name : Text)
  deriving DecidableEq, Repr

/-- The outcome of an edit. -/
structure Edited where
  text : Text
  warnings : List EditWarning := []
  deriving DecidableEq, Repr

namespace Edit

def addToTargets (text : Text) (targets : List Text) (dependency : Text) :
    Except EditError Text :=
  targets.foldlM (fun text target => addToTarget text target dependency) text

/-- The names of the targets that are not tests. -/
def ordinaryTargets (text : Text) : List Text :=
  ((Manifest.ofText text).targets.filter (·.kind ≠ .test)).map Target.name

def allTargets (text : Text) : List Text := (Manifest.ofText text).targets.map Target.name

/-- The given targets, or the default ones if none is given. -/
def selectTargets (targets : Option (List Text)) (default : List Text) : List Text :=
  match targets with
  | some (target :: targets) => target :: targets
  | _ => default

/-- Declare a dependency in the package's array of dependencies. -/
def declare (text : Text) (dependency : Dependency) : Except EditError Text :=
  let source := Source.ofText text
  match source.dependenciesSpan? with
  | none => .error .noDependencies
  | some array => .ok (source.appendElement array dependency.declaration .multiline)

/--
Declare a dependency and refer to it from the given targets, or from every
target that is not a test.  The reference is the name of the product, or the
dependency's canonical name.
-/
def insert (text : Text) (dependency : Dependency) (targets : Option (List Text))
    (product : Option Text) : Except EditError Text := do
  let declared ← declare text dependency
  let reference := (filled? product).getD (Reference.canonicalName dependency.name)
  addToTargets declared (selectTargets targets (ordinaryTargets declared)) reference

def removeFromTargets (text : Text) (targets : List Text) (name : Text) :
    Except EditError (Text × Bool) :=
  targets.foldlM (fun (text, removed) target => do
    match ← removeFromTarget? text target name with
    | some text => pure (text, true)
    | none => pure (text, removed)) (text, false)

def isDeclaration (source : Source) (identifier name : Text) (element : Span) : Bool :=
  (source.dependencyIn? element).any (·.isMeantBy identifier name)

def removeDeclarations (text identifier name : Text) : Except EditError Text :=
  let source := Source.ofText text
  match source.dependenciesSpan? with
  | none => .error .noDependencies
  | some array =>
      if (source.elements array).any (isDeclaration source identifier name) then
        .ok (source.deleteElements array (isDeclaration source identifier name))
      else .ok text

/-- The declarations that an identifier that resolves to a name means. -/
def meantDeclarations (manifest : Manifest) (identifier name : Text) : List Dependency :=
  manifest.dependencies.filter (·.isMeantBy identifier name)

/--
Remove a dependency, given by name, URL or path, from the given targets or from
all of them, and its declaration if no reference is left.
-/
def remove (text identifier : Text) (targets : Option (List Text)) (dropDeclaration : Bool) :
    Except EditError Edited := do
  let manifest := Manifest.ofText text
  let name := manifest.resolveName identifier
  let declared := !(meantDeclarations manifest identifier name).isEmpty
  if !declared && (Source.ofText text).usageCount name = 0 then
    throw (.dependencyNotFound identifier)
  let selected := selectTargets targets (manifest.targets.map Target.name)
  let (reduced, removed) ← removeFromTargets text selected name
  let unreferenced := if removed then [] else [EditWarning.notReferenced name]
  if dropDeclaration && declared then
    if (Source.ofText reduced).usageCount name = 0 then
      pure ⟨← removeDeclarations reduced identifier name, unreferenced⟩
    else pure ⟨reduced, unreferenced ++ [.stillUsed name]⟩
  else pure ⟨reduced, unreferenced⟩

end Edit

end SwiftWorkspace
