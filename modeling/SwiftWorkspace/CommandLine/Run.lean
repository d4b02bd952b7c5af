import SwiftWorkspace.CommandLine.Command
import SwiftWorkspace.CommandLine.LogFile
import SwiftWorkspace.Report
import SwiftWorkspace.Workspace.Request

/-!
# Running commands

A command line leads to a change of the disk, to a text for the one who asked
and to reports.  Errors about the request end the run with a status; errors that
the request is not about are passed on.
-/

namespace SwiftWorkspace

namespace CommandLine

/-- A word without which a command cannot be carried out. -/
inductive MissingWord where
  /-- The path of the workspace, or of a manifest file. -/
  | path
  /-- The project whose manifest is to be changed. -/
  | project
  /-- The version requirement of a new dependency. -/
  | version
  /-- The dependency to be removed. -/
  | dependency
  /-- The path of the log file. -/
  | logFile
  deriving DecidableEq, Repr

namespace MissingWord

def name : MissingWord → String
  | .dependency | .logFile => "AttributeError"
  | .path | .project | .version => "TypeError"

def message : MissingWord → String
  | .path => "expected str, bytes or os.PathLike object, not list"
  | .project => "unhashable type: 'list'"
  | .version => "expected string or bytes-like object, got 'list'"
  | .dependency => "'list' object has no attribute 'strip'"
  | .logFile => "'list' object has no attribute 'parent'"

end MissingWord

inductive RunError where
  | workspace (error : WorkspaceError)
  | logFile (error : LogFileError)
  | missing (word : MissingWord)
  deriving Repr

namespace RunError

def name : RunError → String
  | .workspace error => error.name
  | .logFile error => error.name
  | .missing word => word.name

def message : RunError → String
  | .workspace error => error.message
  | .logFile error => error.message
  | .missing word => word.message

end RunError

inductive Ending where
  | exit (status : Nat)
  | failed (error : RunError)
  /-- Requests of other programs are to be answered. -/
  | serving (host : GivenWord) (port : Option Int)
  deriving Repr

structure Outcome where
  disk : Disk
  output : Text := []
  errors : Text := []
  ending : Ending

namespace Command

def name : Command → Text
  | .describe .. => "show".toList
  | .graph .. => "graph".toList
  | .add .. => "add".toList
  | .remove .. => "remove".toList
  | .projects .. => "projects".toList
  | .serve .. => "serve".toList

def directory? : Command → Option Path
  | .describe workspace _ | .graph workspace _ | .add workspace _ _ | .remove workspace _ _ _ _
  | .projects workspace => workspace.map Path.ofText
  | .serve .. => none

end Command

/-- What comes of a command: the disk behind it, the answer or an error, and the reports. -/
structure Performed where
  disk : Disk
  answer : Except RunError Answer
  records : List LogRecord := []

namespace Performed

def ofServed (served : Served) : Performed :=
  { served with answer := served.answer.mapError .workspace }

def failed (disk : Disk) (error : RunError) : Performed := { disk, answer := .error error }

def lacking {α : Type} (disk : Disk) (word : MissingWord) (before : Except WorkspaceError α) :
    Performed :=
  match before with
  | .ok _ => failed disk (.missing word)
  | .error error => failed disk (.workspace error)

end Performed

namespace AdditionWords

def request (words : AdditionWords) : DependencyRequest where
  url := words.url.join
  version := words.version.join
  localProject := words.localProject.join
  targets := words.targets.map fun targets => targets.map (·.getD [])
  product := words.product.join

def lacksVersion (words : AdditionWords) : Bool :=
  (filled? words.request.url).isSome && words.version = some none

end AdditionWords

namespace Command

def serveFile (disk : Disk) (file : Path) : Served :=
  match Manifest.read disk file with
  | .ok read => { disk, answer := .ok (.manifest read.value), records := read.records }
  | .error failure => { disk, answer := .error (.unreadable failure), records := [] }

def performIn (reader : DocumentReader) (disk : Disk) (directory : GivenWord)
    (perform : Workspace → Performed) : Performed :=
  match directory with
  | none => .failed disk (.missing .path)
  | some directory =>
      match Workspace.discover reader disk (.ofText directory) none with
      | .error error => .failed disk (.workspace error)
      | .ok found =>
          let performed := perform found.value
          { performed with records := found.records ++ performed.records }

def request (disk : Disk) (surroundings : Surroundings) (directory : GivenWord)
    (request : Request) : Performed :=
  performIn surroundings.reader disk directory fun workspace =>
    .ofServed (request.answer disk surroundings workspace)

def describeManifest (disk : Disk) (surroundings : Surroundings) (directory : GivenWord)
    (reference : Text) : Performed :=
  let file := Path.ofText reference
  match disk.isFile file with
  | .error failure => .failed disk (.workspace (.lookup failure))
  | .ok true => .ofServed (serveFile disk file)
  | .ok false => request disk surroundings directory (.manifest reference)

def addTo (disk : Disk) (surroundings : Surroundings) (project : GivenWord) (words : AdditionWords)
    (workspace : Workspace) : Performed :=
  if words.lacksVersion then .failed disk (.missing .version)
  else
    match project with
    | none => .lacking disk .project words.request.address
    | some project =>
        .ofServed ((Request.add project words.request).answer disk surroundings workspace)

def removeFrom (disk : Disk) (surroundings : Surroundings) (project dependency : GivenWord)
    (targets : Option (List GivenWord)) (keepsDeclaration : Bool) (workspace : Workspace) :
    Performed :=
  match project, dependency with
  | none, _ => .failed disk (.missing .project)
  | some project, none => .lacking disk .dependency (workspace.openManifest disk project)
  | some project, some dependency =>
      let targets := targets.map fun targets => targets.map (·.getD [])
      let request := Request.remove project dependency targets !keepsDeclaration
      .ofServed (request.answer disk surroundings workspace)

def perform? (disk : Disk) (surroundings : Surroundings) : Command → Option Performed
  | .describe _ none => some (.failed disk (.missing .path))
  | .describe workspace (some reference) =>
      some (describeManifest disk surroundings workspace reference)
  | .graph workspace changed => some (request disk surroundings workspace (.graph changed))
  | .add workspace project words =>
      some (performIn surroundings.reader disk workspace (addTo disk surroundings project words))
  | .remove workspace project dependency targets keeps =>
      some (performIn surroundings.reader disk workspace
        (removeFrom disk surroundings project dependency targets keeps))
  | .projects workspace => some (request disk surroundings workspace .projects)
  | .serve .. => none

def targets : Command → List GivenWord
  | .add _ _ words => words.targets.getD []
  | .remove _ _ _ targets _ => targets.getD []
  | _ => []

def shown (word : GivenWord) : Text := word.getD ['[', ']']

def toldError (command : Command) : WorkspaceError → WorkspaceError
  | .edit (.targetNotFound []) =>
      let nameless := command.targets.find? fun word => (word.getD []).isEmpty
      .edit (.targetNotFound ((nameless.map shown).getD []))
  | error => error

def changeLine (command : Command) (added : Option Dependency) : Text :=
  match command, added with
  | .add _ project _, some dependency =>
      let project := (shown project).asString
      s!"Added dependency \"{dependency.name.asString}\" to {project}\n".toList
  | .remove _ project dependency _ _, _ =>
      let project := (shown project).asString
      s!"Removed dependency \"{(shown dependency).asString}\" from {project}\n".toList
  | _, _ => []

def outputOf (command : Command) : Answer → Text
  | .manifest manifest => manifest.toJson.layout ++ ['\n']
  | .edges edges => (JsonValue.array (edges.map Edge.toJson)).layout ++ ['\n']
  | .added dependency => command.changeLine (some dependency)
  | .removed => command.changeLine none
  | .projects nodes => (JsonValue.array (nodes.map ProjectNode.toJson)).layout ++ ['\n']

def failureLine (command : Command) (error : WorkspaceError) : Text :=
  let message := (command.toldError error).message
  programName ++ ' ' :: command.name ++ s!" failed: {message}\n".toList

end Command

namespace Invocation

def shownRecords (invocation : Invocation) (records : List LogRecord) : Text :=
  (records.filter fun record => invocation.verbose || record.isOrdinary).flatMap fun record =>
    record.line.toList ++ ['\n']

def outcomeOf (invocation : Invocation) (performed : Performed) : Outcome :=
  let disk := performed.disk
  let shown := invocation.shownRecords performed.records
  let command := invocation.command
  match performed.answer with
  | .ok answer => { disk, output := command.outputOf answer, errors := shown, ending := .exit 0 }
  | .error (.workspace error) =>
      if error.errorClass = .unforeseen then
        { disk, errors := shown, ending := .failed (.workspace error) }
      else { disk, errors := shown ++ command.failureLine error, ending := .exit 1 }
  | .error error => { disk, errors := shown, ending := .failed error }

def prepare (invocation : Invocation) (disk : Disk) : Except RunError Unit × Disk :=
  match invocation.logFile with
  | none => (.ok (), disk)
  | some none => (.error (.missing .logFile), disk)
  | some (some file) =>
      let (made, disk) := (LogFile.create file).run disk
      (made.mapError .logFile, disk)

def keepRecords (invocation : Invocation) (disk : Disk) (time : Text) (records : List LogRecord) :
    Disk :=
  match invocation.logFile with
  | some (some file) => LogFile.extend disk file time records
  | _ => disk

def run (disk : Disk) (surroundings : Surroundings) (time : Text) (invocation : Invocation) :
    Outcome :=
  match invocation.prepare disk, invocation.command with
  | (.error error, disk), _ => { disk, ending := .failed error }
  | (.ok (), disk), .serve host port => { disk, ending := .serving host port }
  | (.ok (), disk), command =>
      match command.perform? disk surroundings with
      | none => { disk, ending := .exit 0 }
      | some performed =>
          let disk := invocation.keepRecords performed.disk time performed.records
          { invocation.outcomeOf performed with disk }

end Invocation

def refusalOutcome (disk : Disk) (stop : Stop) : Outcome :=
  if stop.refusal = .help then { disk, ending := .exit 0 }
  else { disk, errors := stop.message.toList ++ ['\n'], ending := .exit 2 }

def run (disk : Disk) (surroundings : Surroundings) (time : Text) (texts : List Text) : Outcome :=
  match Invocation.ofTexts texts with
  | .ok invocation => invocation.run disk surroundings time
  | .error stop => refusalOutcome disk stop

end CommandLine

end SwiftWorkspace
