import SwiftWorkspace.Project.Index
import SwiftWorkspace.Text.Fold

/-!
# Edges between projects

An edge says that one project depends on another, and which manifest file says
so.  An edge whose two roots differ at most in case points back at its own
project.
-/

namespace SwiftWorkspace

/-- A dependency of one project on another, found in a manifest file. -/
structure Edge where
  source : Text
  target : Text
  manifestFile : Text
  deriving DecidableEq, Repr

namespace Edge

def isLoop (edge : Edge) : Bool := edge.source.fold = edge.target.fold

end Edge

/-- What a source of edges needs to know about one manifest. -/
structure ManifestContext where
  sourceRoot : Text
  manifestFile : Text
  packageDirectory : Path
  workspace : Path
  index : ProjectIndex

namespace ManifestContext

def manifestPath (context : ManifestContext) : Path :=
  context.workspace.join (Path.ofText context.manifestFile)

/-- The edge from the project of the manifest to a root. -/
def edgeTo (context : ManifestContext) (target : Text) : Edge :=
  ⟨context.sourceRoot, target, context.manifestFile⟩

def edgeToPath? (context : ManifestContext) (path : Text) : Option Edge :=
  (context.index.resolvePath? context.workspace
    (context.packageDirectory.join (Path.ofText path))).map context.edgeTo

def edgeToGiven? (context : ManifestContext) (path : CodePoints) : Option Edge :=
  (context.index.resolveGiven? context.workspace
    ((GivenPath.ofPoints path).behind context.packageDirectory)).map context.edgeTo

def edgeToName? (context : ManifestContext) (name : CodePoints) : Option Edge :=
  (context.index.resolveGivenName? name).map context.edgeTo

end ManifestContext

end SwiftWorkspace
