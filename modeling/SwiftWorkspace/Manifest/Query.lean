import SwiftWorkspace.Manifest.Basic

/-!
# Questions about dependencies

Looking up the dependencies of a manifest by name, URL or path, and asking
which targets use them.
-/

namespace SwiftWorkspace

namespace Dependency

def isCalled (dependency : Dependency) (identifier : Text) : Bool :=
  dependency.name = identifier || dependency.url = some identifier ||
    dependency.path = some identifier ||
    (filled? dependency.url).any (Reference.canonicalName · = identifier)

/--
Whether two dependencies are the same: by URL if both have one, else by path if
both have one, else by name.
-/
def isSame (left right : Dependency) : Bool :=
  match filled? left.url, filled? right.url with
  | some leftUrl, some rightUrl => leftUrl = rightUrl
  | _, _ =>
      match filled? left.path, filled? right.path with
      | some leftPath, some rightPath => leftPath = rightPath
      | _, _ => left.name = right.name

/-- Whether the declaration of this dependency is meant by an identifier that resolves to a name. -/
def isMeantBy (dependency : Dependency) (identifier name : Text) : Bool :=
  dependency.url = some identifier || dependency.path = some identifier ||
    dependency.name = name || Reference.canonicalName dependency.address = name

end Dependency

namespace Manifest

def declares (manifest : Manifest) (dependency : Dependency) : Bool :=
  manifest.dependencies.any (·.isSame dependency)

/-- The first dependency with this name, URL or path. -/
def findDependency? (manifest : Manifest) (identifier : Text) : Option Dependency :=
  manifest.dependencies.find? (·.isCalled identifier)

/-- The names of the targets that list the dependency as a string. -/
def targetsUsing (manifest : Manifest) (dependency : Text) : List Text :=
  (manifest.targets.filter (·.dependencies.elem dependency)).map Target.name

/-- Whether some target lists the dependency as a string. -/
def uses (manifest : Manifest) (dependency : Text) : Bool :=
  manifest.targets.any (·.dependencies.elem dependency)

/--
The name that targets use for a dependency given by name, URL or path: that of
the first declaration with this URL, else of the first with this path, else the
canonical name.
-/
def resolveName (manifest : Manifest) (identifier : Text) : Text :=
  let byUrl := manifest.dependencies.find? fun dependency =>
    filled? dependency.url = some identifier
  let byPath := manifest.dependencies.find? fun dependency =>
    filled? dependency.path = some identifier
  match byUrl, byPath with
  | some dependency, _ => dependency.name
  | none, some dependency => dependency.name
  | none, none => Reference.canonicalName identifier

end Manifest

end SwiftWorkspace
