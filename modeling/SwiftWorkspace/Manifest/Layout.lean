import SwiftWorkspace.Manifest.Basic
import SwiftWorkspace.Source.Argument
import SwiftWorkspace.Source.Label

/-!
# The layout of a manifest

Where a manifest keeps its arrays.  The targets and the products are the arrays
of these labels; the dependencies of the package are the array of a
`dependencies` label that lies in neither of them.
-/

namespace SwiftWorkspace

/-- The labels of a manifest's arguments. -/
inductive Field where
  | name
  | platforms
  | products
  | dependencies
  | targets
  deriving DecidableEq, Repr

namespace Field

def label : Field → Text
  | .name => "name".toList
  | .platforms => "platforms".toList
  | .products => "products".toList
  | .dependencies => "dependencies".toList
  | .targets => "targets".toList

end Field

structure TargetCall where
  call : Call
  name : Text
  kind : TargetKind
  deriving DecidableEq, Repr

namespace Source

def platformsSpan? (source : Source) : Option Span :=
  source.labeledArray? Field.platforms.label []

/-- The inside of the array of targets. -/
def targetsSpan? (source : Source) : Option Span :=
  source.labeledArray? Field.targets.label []

/-- The inside of the array of products. -/
def productsSpan? (source : Source) : Option Span :=
  source.labeledArray? Field.products.label []

/-- The inside of the array of the package's dependencies. -/
def dependenciesSpan? (source : Source) : Option Span :=
  source.labeledArray? Field.dependencies.label
    (source.targetsSpan?.toList ++ source.productsSpan?.toList)

def targetCallOf? (source : Source) (element : Span) : Option TargetCall := do
  let call ← source.callIn? element
  let kind ← TargetKind.ofKeyword? call.keyword
  let name ← filled? (source.labeledString? call.arguments Field.name.label)
  pure ⟨call, name, kind⟩

/-- The declarations of targets, in order. -/
def targetCalls (source : Source) : List TargetCall :=
  match source.targetsSpan? with
  | none => []
  | some span => (source.elements span).filterMap source.targetCallOf?

/-- The inside of the array of a target's dependencies. -/
def targetDependencies? (source : Source) (target : TargetCall) : Option Span :=
  source.argumentArray? target.call.arguments Field.dependencies.label

end Source

end SwiftWorkspace
