import SwiftWorkspace.Edit.Delete
import SwiftWorkspace.Manifest.Layout

/-!
# Editing the dependencies of a target

A target refers to a dependency by a string, or by a call that names a product,
a target or a package.  These edits add such a string to one target, or remove
all references to a name from it.
-/

namespace SwiftWorkspace

inductive EditError where
  /-- The manifest has no array of dependencies. -/
  | noDependencies
  /-- The target's dependencies are not written as an array. -/
  | dependenciesNotArray (target : Text)
  /-- The target's declaration has no name. -/
  | targetUnnamed (target : Text)
  /-- No target has this name. -/
  | targetNotFound (target : Text)
  /-- Nothing declares the dependency or refers to it. -/
  | dependencyNotFound (identifier : Text)
  deriving DecidableEq, Repr

namespace Source

/-- The declaration of the first target with the given name. -/
def findTarget (source : Source) (name : Text) : Except EditError TargetCall :=
  match source.targetCalls.find? (·.name = name) with
  | some target => .ok target
  | none => .error (.targetNotFound name)

def isReferenceKeyword (keyword : Text) : Bool :=
  keyword = "product".toList || keyword = "target".toList || keyword = "byName".toList

/-- Whether an element of a target's dependencies refers to the name. -/
def refersTo (source : Source) (name : Text) (element : Span) : Bool :=
  source.stringIn? element = some name ||
    match source.callIn? element with
    | none => false
    | some call =>
        isReferenceKeyword call.keyword &&
          (source.labeledString? call.arguments "name".toList = some name ||
            source.labeledString? call.arguments "package".toList = some name)

def referenceElements (source : Source) (target : TargetCall) : List Span :=
  match source.targetDependencies? target with
  | none => []
  | some array => source.elements array

/-- The number of elements that refer to the name, over the dependencies of all targets. -/
def usageCount (source : Source) (name : Text) : Nat :=
  (source.targetCalls.flatMap source.referenceElements).countP (source.refersTo name)

def addDependenciesArgument (source : Source) (named : Argument) (element : Text) : Text :=
  let argument := "dependencies: [".toList ++ element ++ [']']
  let separator :=
    if source.startsLine named.span.start then
      ',' :: '\n' :: source.lineIndent named.span.start
    else [',', ' ']
  source.text.insertAt named.span.stop (separator ++ argument)

end Source

namespace Edit

def addToTarget (text target dependency : Text) : Except EditError Text := do
  let source := Source.ofText text
  let found ← source.findTarget target
  let element := Literal.encode dependency
  match source.targetDependencies? found with
  | some array => pure (source.appendElement array element .inline)
  | none =>
      if (source.labeledValue? found.call.arguments Field.dependencies.label).isSome then
        throw (.dependenciesNotArray target)
      else
        match source.labeledArgument? found.call.arguments Field.name.label with
        | none => throw (.targetUnnamed target)
        | some named => pure (source.addDependenciesArgument named element)

/-- Remove all references to a dependency from one target; none if there are none. -/
def removeFromTarget? (text target dependency : Text) : Except EditError (Option Text) := do
  let source := Source.ofText text
  let found ← source.findTarget target
  match source.targetDependencies? found with
  | none => pure none
  | some array =>
      if (source.elements array).any (source.refersTo dependency) then
        pure (some (source.deleteElements array (source.refersTo dependency)))
      else pure none

end Edit

end SwiftWorkspace
