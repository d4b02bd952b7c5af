import SwiftWorkspace.Graph.Edge
import SwiftWorkspace.Json.Basic
import SwiftWorkspace.Task.Node

/-!
# Results as JSON

How manifests, edges and inferred projects are written for other programs.  What
is absent is left out.
-/

namespace SwiftWorkspace

namespace JsonValue

def texts (list : List Text) : JsonValue := .array (list.map text)

def presentText (key : String) (value : Option Text) : List (Text × JsonValue) :=
  (value.map fun text => (key.toList, .text text)).toList

def presentTexts (key : String) (list : List Text) : List (Text × JsonValue) :=
  if list.isEmpty then [] else [(key.toList, texts list)]

def presentFlag (key : String) (flag : Bool) : List (Text × JsonValue) :=
  if flag then [(key.toList, .bool true)] else []

end JsonValue

namespace Dependency

def toJson (dependency : Dependency) : JsonValue :=
  .record (("name".toList, .text dependency.name) ::
    JsonValue.presentText "url" dependency.url ++ JsonValue.presentText "path" dependency.path ++
    JsonValue.presentText "version" dependency.version ++
    JsonValue.presentText "branch" dependency.branch ++
    JsonValue.presentText "commit" dependency.commit)

end Dependency

namespace Target

def toJson (target : Target) : JsonValue :=
  .record ([("name".toList, .text target.name), ("type".toList, .text target.kind.label),
    ("dependencies".toList, .texts target.dependencies)] ++
    JsonValue.presentText "path" target.path)

end Target

namespace Product

def toJson (product : Product) : JsonValue :=
  .record [("name".toList, .text product.name), ("type".toList, .text product.kind.label),
    ("targets".toList, .texts product.targets)]

end Product

namespace Manifest

def platformsJson (platforms : List (Text × Text)) : JsonValue :=
  .record (platforms.map fun (name, version) => (name, .text version))

def toJson (manifest : Manifest) : JsonValue :=
  .record ([("name".toList, .text manifest.name),
    ("dependencies".toList, .array (manifest.dependencies.map Dependency.toJson)),
    ("targets".toList, .array (manifest.targets.map Target.toJson)),
    ("products".toList, .array (manifest.products.map Product.toJson))] ++
    (manifest.platforms.map fun platforms => ("platforms".toList, platformsJson platforms)).toList)

end Manifest

namespace Edge

def toJson (edge : Edge) : JsonValue :=
  .record [("source".toList, .text edge.source), ("target".toList, .text edge.target),
    ("source_file".toList, .text edge.manifestFile)]

end Edge

namespace ProjectTask

def toJson (task : ProjectTask) : JsonValue :=
  .record ([("command".toList, .text task.command),
    ("options".toList, .record [("cwd".toList, .text task.directory)])] ++
    JsonValue.presentFlag "cache" task.isCached ++ JsonValue.presentTexts "inputs" task.inputs ++
    JsonValue.presentTexts "outputs" task.outputs ++
    JsonValue.presentTexts "dependsOn" task.dependsOn)

def allToJson (tasks : List (Text × ProjectTask)) : JsonValue :=
  .record (tasks.map fun (name, task) => (name, task.toJson))

end ProjectTask

namespace ProjectNode

def toJson (node : ProjectNode) : JsonValue :=
  .record [("name".toList, .text node.name), ("root".toList, .text node.root),
    ("projectType".toList, .text node.kind.label),
    ("sourceRoot".toList, .text node.sourceRoot), ("tags".toList, .texts node.tags),
    ("targets".toList, ProjectTask.allToJson node.tasks),
    ("existing".toList, .bool node.isDescribed)]

end ProjectNode

end SwiftWorkspace
