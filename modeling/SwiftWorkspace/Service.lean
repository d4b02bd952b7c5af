import SwiftWorkspace.Json.Octets
import SwiftWorkspace.Report
import SwiftWorkspace.Service.Route
import SwiftWorkspace.Workspace.Request

/-!
# The service

Other programs send requests as JSON to a few paths and get answers as JSON.  A
request that does not have the form of its path is not looked at any further.
-/

namespace SwiftWorkspace

namespace Service

structure Message where
  method : Text
  path : Text
  body : Text := []
  deriving DecidableEq, Repr

structure Response where
  status : Nat
  body : Option JsonValue := none
  deriving Repr

namespace Response

def success (members : List (String × JsonValue)) : Response :=
  ⟨200, some (.record (members.map fun (key, value) => (key.toList, value)))⟩

/-- The answer that a request failed, with the reason. -/
def failure (status : Nat) (detail : String) : Response :=
  ⟨status, some (.record [("detail".toList, .text detail.toList)])⟩

def unprocessable : Response := ⟨422, none⟩

def ofFlaw : JsonFlaw → Response
  | .malformed => unprocessable
  | .longInteger | .undecodable | .tooDeep _ => failure 400 "There was an error parsing the body"

def ofError (error : WorkspaceError) : Response :=
  match error.errorClass with
  | .notFound => failure 404 error.message
  | .refused => failure 400 error.message
  | .unforeseen => ⟨500, none⟩

end Response

def requiredText (key : String) (body : JsonValue) : Option Text :=
  (body.member? key.toList).bind JsonValue.text?

def optionalText : Option JsonValue → Option (Option Text)
  | none | some .null => some none
  | some (.string points) => points.text?.map some
  | some _ => none

def optionalTexts : Option JsonValue → Option (Option (List Text))
  | none | some .null => some none
  | some (.array items) => (items.mapM JsonValue.text?).map some
  | some _ => none

def boolWords : List (Text × Bool) :=
  [("1", true), ("t", true), ("y", true), ("on", true), ("yes", true), ("true", true),
    ("0", false), ("f", false), ("n", false), ("no", false), ("off", false),
    ("false", false)].map fun (word, value) => (word.toList, value)

def boolOfNumber? (written : Text) : Option Bool :=
  match Decimal.readFloat? written with
  | some value => if value == 0.0 then some false else if value == 1.0 then some true else none
  | none => none

def bool? : JsonValue → Option Bool
  | .bool value => some value
  | .number written => boolOfNumber? written
  | .string points => points.text?.bind fun text => boolWords.lookup (text.map Char.toLower)
  | _ => none

def boolOr (default : Bool) : Option JsonValue → Option Bool
  | none => some default
  | some value => bool? value

def request? (body : JsonValue) : Route → Option (Text × Request)
  | .health | .description => none
  | .manifest => do
      let workspace ← requiredText "workspace" body
      pure (workspace, .manifest (← requiredText "project" body))
  | .graph => do
      let workspace ← requiredText "workspace" body
      pure (workspace, .graph (← optionalTexts (body.member? "changed".toList)))
  | .add => do
      let workspace ← requiredText "workspace" body
      let project ← requiredText "project" body
      let url ← optionalText (body.member? "url".toList)
      let version ← optionalText (body.member? "version".toList)
      let localProject ← optionalText (body.member? "local_project".toList)
      let targets ← optionalTexts (body.member? "targets".toList)
      let product ← optionalText (body.member? "product_name".toList)
      pure (workspace, .add project { url, version, localProject, targets, product })
  | .remove => do
      let workspace ← requiredText "workspace" body
      let project ← requiredText "project" body
      let dependency ← requiredText "dependency" body
      let targets ← optionalTexts (body.member? "targets".toList)
      let dropDeclaration ← boolOr true (body.member? "remove_from_package".toList)
      pure (workspace, .remove project dependency targets dropDeclaration)

def successOf (request : Request) (answer : Answer) : Response :=
  let changed (status : String) (project dependency : Text) : Response :=
    .success [("status", .text status.toList), ("project", .text project),
      ("dependency", .text dependency)]
  match request, answer with
  | .manifest project, .manifest manifest =>
      .success [("project", .text project), ("manifest", manifest.toJson)]
  | _, .edges edges => .success [("edges", .array (edges.map Edge.toJson))]
  | .add project _, .added dependency => changed "added" project dependency.name
  | .remove project dependency _ _, .removed => changed "removed" project dependency
  | _, _ => ⟨500, none⟩

/-- What comes of a message: the disk behind it, the answer, and the reports. -/
structure Handled where
  disk : Disk
  response : Response
  records : List LogRecord := []

def handleBody (disk : Disk) (surroundings : Surroundings) (route : Route) (body : Text) :
    Handled :=
  match (JsonValue.ofOctets surroundings.levels (Utf8.encode body)).map fun value =>
    request? value route with
  | .error flaw => { disk, response := .ofFlaw flaw }
  | .ok none => { disk, response := .unprocessable }
  | .ok (some (workspace, request)) =>
      let served := request.serve disk surroundings (.ofText workspace)
      let response :=
        match served.answer with
        | .ok answer => successOf request answer
        | .error error => .ofError error
      { disk := served.disk, response, records := served.records }

def handle (disk : Disk) (surroundings : Surroundings) (message : Message) : Handled :=
  match Route.ofPath? message.path with
  | none => { disk, response := .failure 404 "Not Found" }
  | some route =>
      if message.method.map Char.toUpper ≠ route.method then
        { disk, response := .failure 405 "Method Not Allowed" }
      else
        match route with
        | .health => { disk, response := .success [("status", .text "ok".toList)] }
        | .description => { disk, response := ⟨200, none⟩ }
        | _ => handleBody disk surroundings route message.body

end Service

end SwiftWorkspace
