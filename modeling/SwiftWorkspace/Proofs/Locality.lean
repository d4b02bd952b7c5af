import SwiftWorkspace.Outcome
import SwiftWorkspace.Proofs.Walks
import SwiftWorkspace.Workspace.Request

/-!
# Locality of changes

A call that adds or removes a dependency reads and writes the manifest of one
project.  If it is refused the disk stays as it was; if it succeeds, all other
files stay as they were.  So calls to projects with different manifest files do
not notice each other.  A call that plans a text with half of a surrogate pair in
it is refused too late: the manifest is empty then.
-/

namespace SwiftWorkspace

namespace Workspace

variable {workspace : Workspace} {disk other : Disk} {reference : Text} {path : Path}

def manifestPlace? (workspace : Workspace) (disk : Disk) (reference : Text) : Option (List Text) :=
  (workspace.manifestFile reference).toOption.map fun file =>
    disk.place (workspace.root.join (Path.ofText file))

theorem manifestPlace?_congr (same : disk.workingDirectory = other.workingDirectory) :
    workspace.manifestPlace? disk reference = workspace.manifestPlace? other reference := by
  rw [manifestPlace?, manifestPlace?]
  exact congrArg (Option.map · _) (funext fun _ => Disk.place_congr same _)

theorem manifestPath_eq (workspace : Workspace) (disk : Disk) (reference : Text) :
    workspace.manifestPath disk reference =
      (workspace.manifestFile reference).bind fun file =>
        let path := workspace.root.join (Path.ofText file)
        ((disk.isFile path).mapError .lookup).bind fun present =>
          if present then .ok path else .error
            (.manifestNotFound workspace.settings.manifestName path) := by
  rw [manifestPath]
  rfl

theorem manifestPlace?_of_manifestPath (found : workspace.manifestPath disk reference = .ok path) :
    workspace.manifestPlace? disk reference = some (disk.place path) := by
  rw [manifestPath_eq] at found
  rw [manifestPlace?]
  cases file : workspace.manifestFile reference with
  | error error => simp [file, Except.bind] at found
  | ok file =>
      simp only [file, Except.bind] at found
      split at found
      case h_1 => cases found
      case h_2 present _ =>
          split at found
          case isTrue => rw [← Except.ok.inj found]; rfl
          case isFalse => cases found

theorem manifestPath_alike (alike : Entry.SameShape disk.root other.root)
    (same : disk.workingDirectory = other.workingDirectory) :
    workspace.manifestPath disk reference = workspace.manifestPath other reference := by
  simp only [manifestPath_eq, Disk.isFile_alike alike same]

/-- What is needed of two disks for a request about a project to be planned alike on them. -/
structure Agree (workspace : Workspace) (disk other : Disk) (reference : Text) : Prop where
  path : workspace.manifestPath disk reference = workspace.manifestPath other reference
  text : ∀ path, workspace.manifestPath other reference = .ok path →
    disk.readText path = other.readText path

theorem planAddition_congr (agree : Agree workspace disk other reference)
    (request : DependencyRequest) :
    workspace.planAddition disk reference request =
      workspace.planAddition other reference request := by
  simp only [planAddition, agree.path, bind, Except.bind]
  cases found : workspace.manifestPath other reference with
  | error error => rfl
  | ok path => simp only [agree.text path found]

theorem planRemoval_congr (agree : Agree workspace disk other reference) (dependency : Text)
    (targets : Option (List Text)) (dropDeclaration : Bool) :
    workspace.planRemoval disk reference dependency targets dropDeclaration =
      workspace.planRemoval other reference dependency targets dropDeclaration := by
  simp only [planRemoval, openManifest, agree.path, bind, Except.bind]
  cases found : workspace.manifestPath other reference with
  | error error => rfl
  | ok path => simp only [agree.text path found]

structure Addition (workspace : Workspace) (disk : Disk) (reference : Text)
    (request : DependencyRequest) (change : Change Dependency) where
  address : DependencyRequest.Address
  owner : Project
  fields : DependencyFields
  product : Option Text
  text : Text
  address_eq : request.address = .ok address
  owner_eq : workspace.project reference = .ok owner
  path_eq : workspace.manifestPath disk reference = .ok change.path
  fields_eq : workspace.newDependency owner request address = .ok (fields, product)
  outcome_eq : Dependency.ofFields? fields = some change.outcome
  text_eq : disk.readText change.path = .ok text
  insert_eq : Edit.insert text change.outcome request.targets product = .ok change.text

theorem exists_addition {request : DependencyRequest} {change : Change Dependency}
    (planned : workspace.planAddition disk reference request = .ok change) :
    Nonempty (Addition workspace disk reference request change) := by
  rw [planAddition] at planned
  obtain ⟨address, address_eq, planned⟩ := Outcome.bind_eq_ok.mp planned
  obtain ⟨owner, owner_eq, planned⟩ := Outcome.bind_eq_ok.mp planned
  obtain ⟨path, path_eq, planned⟩ := Outcome.bind_eq_ok.mp planned
  obtain ⟨⟨fields, product⟩, fields_eq, planned⟩ := Outcome.bind_eq_ok.mp planned
  cases made : Dependency.ofFields? fields with
  | none => simp [made] at planned
  | some dependency =>
      simp only [made] at planned
      obtain ⟨text, text_eq, planned⟩ := Outcome.bind_eq_ok.mp planned
      obtain ⟨updated, insert_eq, planned⟩ := Outcome.bind_eq_ok.mp planned
      obtain rfl := Except.ok.inj planned
      exact ⟨⟨address, owner, fields, product, text, address_eq, owner_eq, path_eq, fields_eq, made,
        Outcome.mapError_eq_ok.mp text_eq, Outcome.mapError_eq_ok.mp insert_eq⟩⟩

structure Subtraction (workspace : Workspace) (disk : Disk) (reference dependency : Text)
    (targets : Option (List Text)) (dropDeclaration : Bool) (change : Change Unit) where
  text : Text
  edited : Edited
  path_eq : workspace.manifestPath disk reference = .ok change.path
  text_eq : disk.readText change.path = .ok text
  remove_eq : Edit.remove text dependency targets dropDeclaration = .ok edited
  result_eq : change.text = edited.text

theorem exists_subtraction {dependency : Text} {targets : Option (List Text)}
    {dropDeclaration : Bool} {change : Change Unit}
    (planned : workspace.planRemoval disk reference dependency targets dropDeclaration =
      .ok change) :
    Nonempty (Subtraction workspace disk reference dependency targets dropDeclaration change) := by
  rw [planRemoval] at planned
  obtain ⟨⟨owner, path, text⟩, opened, planned⟩ := Outcome.bind_eq_ok.mp planned
  obtain ⟨edited, remove_eq, planned⟩ := Outcome.bind_eq_ok.mp planned
  obtain rfl := Except.ok.inj planned
  rw [openManifest] at opened
  obtain ⟨_, -, opened⟩ := Outcome.bind_eq_ok.mp opened
  obtain ⟨path', path_eq, opened⟩ := Outcome.bind_eq_ok.mp opened
  obtain ⟨text', text_eq, opened⟩ := Outcome.bind_eq_ok.mp opened
  obtain ⟨-, rfl, rfl⟩ : _ ∧ path' = path ∧ text' = text := by
    simpa [pure, Except.pure] using opened
  exact ⟨⟨text', edited, path_eq, Outcome.mapError_eq_ok.mp text_eq,
    Outcome.mapError_eq_ok.mp remove_eq, rfl⟩⟩

end Workspace

namespace Served

variable (standIns : StandIns) (disk : Disk) (change : Change Answer)

/-- What the one who asked gets to know. -/
def reply (served : Served) : Except WorkspaceError Answer × List LogRecord :=
  (served.answer, served.records)

/-- What comes of a planned change: it is made, or its text is none and the file is empty. -/
inductive Carries : Served → Prop
  | made (text : standIns.read change.text = CodePoints.ofText change.text) :
      Carries { disk := change.apply disk, answer := .ok change.outcome, records := change.records }
  | emptied (run : HalfRun) (halves : (standIns.read change.text).toText = .error run) :
      Carries
        { disk := disk.write change.path [], answer := .error (.unencodable run), records := [] }

theorem carries_ofPlan : Carries standIns disk change (ofPlan standIns disk (.ok change)) := by
  rw [ofPlan]
  cases written : (standIns.read change.text).toText with
  | ok text =>
      have spelled := CodePoints.toText_eq_ok.mp written
      obtain rfl := StandIns.read_eq_ofText spelled
      simp only [Disk.writePoints, written]
      exact .made spelled
  | error run =>
      simp only [Disk.writePoints, written]
      exact .emptied run written

/-- Whatever comes of a planned change, the only file that is written is that of the change. -/
theorem exists_write_ofPlan :
    ∃ content, ∀ disk, (ofPlan standIns disk (.ok change)).disk =
      disk.write change.path content := by
  simp only [ofPlan, Disk.writePoints]
  cases (standIns.read change.text).toText with
  | ok text => exact ⟨Utf8.encode text, fun _ => rfl⟩
  | error run => exact ⟨[], fun _ => rfl⟩

theorem reply_ofPlan (other : Disk) (plan : Except WorkspaceError (Change Answer)) :
    (ofPlan standIns disk plan).reply = (ofPlan standIns other plan).reply := by
  cases plan with
  | error error => rfl
  | ok change =>
      simp only [ofPlan, Disk.writePoints]
      cases (standIns.read change.text).toText <;> rfl

end Served

/-- A call that changes the manifest of a project. -/
inductive EditCall where
  | add (project : Text) (dependency : DependencyRequest)
  | remove (project dependency : Text) (targets : Option (List Text)) (dropDeclaration : Bool)

namespace EditCall

def request : EditCall → Request
  | add project dependency => .add project dependency
  | remove project dependency targets dropDeclaration =>
      .remove project dependency targets dropDeclaration

/-- The reference to the project that the call addresses. -/
def project : EditCall → Text
  | add project _ => project
  | remove project .. => project

def plan (workspace : Workspace) (disk : Disk) : EditCall → Except WorkspaceError (Change Answer)
  | add project dependency =>
      (workspace.planAddition disk project dependency).map (·.map .added)
  | remove project dependency targets dropDeclaration =>
      (workspace.planRemoval disk project dependency targets dropDeclaration).map
        (·.map fun () => .removed)

def serve (surroundings : Surroundings) (workspace : Workspace) (disk : Disk) (call : EditCall) :
    Served :=
  call.request.answer disk surroundings workspace

def serveAll (surroundings : Surroundings) (workspace : Workspace) (disk : Disk)
    (calls : List EditCall) : Disk :=
  calls.foldl (fun disk call => (call.serve surroundings workspace disk).disk) disk

def place? (workspace : Workspace) (disk : Disk) (call : EditCall) : Option (List Text) :=
  workspace.manifestPlace? disk call.project

variable {surroundings : Surroundings} {workspace : Workspace} {disk other : Disk}
    {call first second : EditCall}
  {change : Change Answer} {path : Path}

/-- A call is served by planning a change and, if there is one, making it. -/
theorem serve_eq (call : EditCall) (disk : Disk) :
    call.serve surroundings workspace disk =
      .ofPlan surroundings.standIns disk (call.plan workspace disk) := by
  cases call <;> rfl

theorem plan_congr (agree : workspace.Agree disk other call.project) :
    call.plan workspace disk = call.plan workspace other := by
  cases call with
  | add project dependency =>
      exact congrArg (Except.map _) (Workspace.planAddition_congr agree dependency)
  | remove project dependency targets dropDeclaration =>
      exact congrArg (Except.map _)
        (Workspace.planRemoval_congr agree dependency targets dropDeclaration)

theorem exists_read_of_plan (planned : call.plan workspace disk = .ok change) :
    workspace.manifestPath disk call.project = .ok change.path ∧
      ∃ text, disk.readText change.path = .ok text := by
  cases call with
  | add project dependency =>
      obtain ⟨addition, added, rfl⟩ := Outcome.map_eq_ok.mp planned
      obtain ⟨found⟩ := Workspace.exists_addition added
      exact ⟨found.path_eq, found.text, found.text_eq⟩
  | remove project dependency targets dropDeclaration =>
      obtain ⟨removal, removed, rfl⟩ := Outcome.map_eq_ok.mp planned
      obtain ⟨found⟩ := Workspace.exists_subtraction removed
      exact ⟨found.path_eq, found.text, found.text_eq⟩

theorem place?_of_plan (planned : call.plan workspace disk = .ok change) :
    call.place? workspace disk = some (disk.place change.path) :=
  Workspace.manifestPlace?_of_manifestPath (exists_read_of_plan planned).1

theorem exists_file_of_plan (planned : call.plan workspace disk = .ok change) :
    ∃ old, disk.locate change.path = .ok (.file old) := by
  obtain ⟨text, read⟩ := (exists_read_of_plan planned).2
  obtain ⟨old, read, -⟩ := Outcome.bind_eq_ok.mp read
  exact ⟨old, Disk.locate_of_read read⟩

/-- What comes of a call that may change only the manifest file of one project. -/
structure Confined (standIns : StandIns) (workspace : Workspace) (before : Disk) (reference : Text)
    (served : Served) : Prop where
  /-- A call that is refused leaves the disk as it was, if all that is asked are texts. -/
  refused : standIns = [] → ∀ error, served.answer = .error error → served.disk = before
  /-- Else it may also be refused since the new text is none, and the manifest is empty then. -/
  emptied : ∀ error, served.answer = .error error → served.disk = before ∨ ∃ run path,
    error = .unencodable run ∧ workspace.manifestPath before reference = .ok path ∧
      served.disk.read path = .ok []
  /-- No file or directory appears, disappears or becomes the other. -/
  shape : Entry.SameShape served.disk.root before.root
  /-- All files but the manifest of the addressed project hold what they held. -/
  others : ∀ path, workspace.manifestPlace? before reference ≠ some (before.place path) →
    served.disk.read path = before.read path
  /-- Every project has its manifest file where it had it. -/
  lookups : ∀ other, workspace.manifestPath served.disk other = workspace.manifestPath before other
  /-- Relative paths start where they started. -/
  workingDirectory : served.disk.workingDirectory = before.workingDirectory

theorem confined (surroundings : Surroundings) (workspace : Workspace) (disk : Disk)
    (call : EditCall) :
    Confined surroundings.standIns workspace disk call.project
      (call.serve surroundings workspace disk) := by
  rw [serve_eq]
  cases planned : call.plan workspace disk with
  | error error =>
      exact ⟨fun _ _ _ => rfl, fun _ _ => .inl rfl, fun _ => rfl, fun _ _ => rfl, fun _ => rfl, rfl⟩
  | ok change =>
      obtain ⟨old, held⟩ := exists_file_of_plan planned
      have place : workspace.manifestPlace? disk call.project = some (disk.place change.path) :=
        place?_of_plan planned
      have carries := Served.carries_ofPlan surroundings.standIns disk change
      obtain ⟨content, written⟩ := Served.exists_write_ofPlan surroundings.standIns change
      specialize written disk
      generalize Served.ofPlan surroundings.standIns disk (.ok change) = served at carries written
      have shape : Entry.SameShape served.disk.root disk.root := by
        rw [written]
        exact Disk.sameShape_write held _
      have here : served.disk.workingDirectory = disk.workingDirectory := by
        rw [written]
        rfl
      refine ⟨fun texts error failed => ?_, fun error failed => .inr ?_, shape,
        fun path differs => ?_, fun other => Workspace.manifestPath_alike shape here, here⟩
      · cases carries with
        | made => cases failed
        | emptied run halves =>
            rw [texts, StandIns.read_nil, CodePoints.toText_eq_ok.mpr rfl] at halves
            cases halves
      · cases carries with
        | made => cases failed
        | emptied run =>
            exact ⟨run, change.path, (Except.error.inj failed).symm,
              (exists_read_of_plan planned).1,
              Disk.read_write_self held rfl (Disk.read_of_locate held)⟩
      · rw [place] at differs
        rw [written]
        exact Disk.read_write_other held fun same => differs (by rw [same])

/-- Whether two calls address projects with different manifest files. -/
def Elsewhere (workspace : Workspace) (disk : Disk) (first second : EditCall) : Prop :=
  ∀ place ∈ first.place? workspace disk, place ∉ second.place? workspace disk

theorem Elsewhere.symm (elsewhere : Elsewhere workspace disk first second) :
    Elsewhere workspace disk second first := fun place here there => elsewhere place there here

/-- A call is planned behind one that addresses another manifest file as it is before it. -/
theorem Elsewhere.plan_eq (elsewhere : Elsewhere workspace disk first second) :
    second.plan workspace (first.serve surroundings workspace disk).disk =
      second.plan workspace disk := by
  have confined := confined surroundings workspace disk first
  refine plan_congr ⟨confined.lookups second.project, fun path found => ?_⟩
  have here : disk.place path ∈ second.place? workspace disk :=
    Workspace.manifestPlace?_of_manifestPath found
  have there : first.place? workspace disk ≠ some (disk.place path) := fun same =>
    elsewhere _ same here
  rw [Disk.readText, Disk.readText, confined.others path there]

/-- What it means that two calls do not notice each other. -/
structure Commute (surroundings : Surroundings) (workspace : Workspace) (disk : Disk)
    (first second : EditCall) : Prop where
  disk_eq : (second.serve surroundings workspace
    (first.serve surroundings workspace disk).disk).disk =
    (first.serve surroundings workspace (second.serve surroundings workspace disk).disk).disk
  first_eq : (first.serve surroundings workspace
    (second.serve surroundings workspace disk).disk).reply =
    (first.serve surroundings workspace disk).reply
  second_eq : (second.serve surroundings workspace
    (first.serve surroundings workspace disk).disk).reply =
    (second.serve surroundings workspace disk).reply

theorem Elsewhere.reply_eq (elsewhere : Elsewhere workspace disk first second) :
    (second.serve surroundings workspace (first.serve surroundings workspace disk).disk).reply =
      (second.serve surroundings workspace disk).reply := by
  rw [serve_eq second, serve_eq second, elsewhere.plan_eq]
  exact Served.reply_ofPlan ..

theorem Elsewhere.commute (elsewhere : Elsewhere workspace disk first second) :
    Commute surroundings workspace disk first second := by
  refine ⟨?_, elsewhere.symm.reply_eq, elsewhere.reply_eq⟩
  rw [serve_eq second, serve_eq first (Served.disk _), elsewhere.plan_eq, elsewhere.symm.plan_eq,
    serve_eq, serve_eq]
  cases left : first.plan workspace disk with
  | error error => rfl
  | ok change =>
      cases right : second.plan workspace disk with
      | error error => rfl
      | ok change' =>
          obtain ⟨old, held⟩ := exists_file_of_plan left
          obtain ⟨old', held'⟩ := exists_file_of_plan right
          obtain ⟨content, writes⟩ := Served.exists_write_ofPlan surroundings.standIns change
          obtain ⟨content', writes'⟩ := Served.exists_write_ofPlan surroundings.standIns change'
          rw [writes, writes', writes', writes]
          refine Disk.write_comm held' held fun same => ?_
          exact elsewhere _ (place?_of_plan left) (by rw [← same]; exact place?_of_plan right)

variable (surroundings workspace disk)

theorem workingDirectory_serveAll (calls : List EditCall) :
    (serveAll surroundings workspace disk calls).workingDirectory = disk.workingDirectory := by
  induction calls generalizing disk with
  | nil => rfl
  | cons call calls ih =>
      exact (ih _).trans (confined surroundings workspace disk call).workingDirectory

theorem manifestPath_serveAll (calls : List EditCall) (reference : Text) :
    workspace.manifestPath (serveAll surroundings workspace disk calls) reference =
      workspace.manifestPath disk reference := by
  induction calls generalizing disk with
  | nil => rfl
  | cons call calls ih =>
      exact (ih _).trans ((confined surroundings workspace disk call).lookups reference)

/-- After any calls a file that is the manifest of no addressed project holds what it held. -/
theorem read_serveAll (calls : List EditCall) {path : Path}
    (others : ∀ call ∈ calls, call.place? workspace disk ≠ some (disk.place path)) :
    (serveAll surroundings workspace disk calls).read path = disk.read path := by
  induction calls generalizing disk with
  | nil => rfl
  | cons call calls ih =>
      have confined := confined surroundings workspace disk call
      refine (ih _ fun later member => ?_).trans (confined.others path (others call (.head _)))
      rw [place?, Workspace.manifestPlace?_congr confined.workingDirectory,
        Disk.place_congr confined.workingDirectory]
      exact others later (.tail _ member)

/--
After any calls, each further one leaves the disk as it is if it is refused, and else
changes only the manifest file of the project that it addresses.  The files of the other
projects are as they were at the start, and so are the answers to where manifests are.
Calls that address different manifest files can be made in either order.
-/
theorem edit_calls_local (earlier : List EditCall) :
    let before := serveAll surroundings workspace disk earlier
    (∀ call : EditCall,
      Confined surroundings.standIns workspace before call.project
        (call.serve surroundings workspace before)) ∧
      (∀ path, (∀ call ∈ earlier, call.place? workspace disk ≠ some (disk.place path)) →
        before.read path = disk.read path) ∧
      (∀ reference, workspace.manifestPath before reference =
        workspace.manifestPath disk reference) ∧
      ∀ first second, Elsewhere workspace disk first second →
        Commute surroundings workspace before first second := by
  intro before
  have same : before.workingDirectory = disk.workingDirectory :=
    workingDirectory_serveAll surroundings workspace disk earlier
  refine ⟨confined surroundings workspace before,
    fun path => read_serveAll surroundings workspace disk earlier,
    manifestPath_serveAll surroundings workspace disk earlier, fun first second elsewhere => ?_⟩
  refine Elsewhere.commute fun place here there => ?_
  rw [place?, Workspace.manifestPlace?_congr same] at here there
  exact elsewhere place here there

/-- A disk with two packages beside each other. -/
def neighbors : Disk where
  root :=
    let package : Entry := .directory
      [("Package.swift".toList, .file (Utf8.encode "Package(dependencies: [])".toList))]
    .directory [(['a'], package), (['b'], package)]

/-- Surroundings without tools and documents, in which all that is asked is a text. -/
def bareSurroundings : Surroundings where
  toolchain := .none
  reader _ := .error .malformed
  levels := 0

/-- The workspace of these packages. -/
def neighborhood : Workspace where
  root := ⟨.root, []⟩
  settings := { root := ⟨.root, []⟩ }
  index := .ofProjects [⟨['p'], ['a']⟩, ⟨['q'], ['b']⟩]

/-- A call for a remote dependency of a project. -/
def addition (project : Text) : EditCall := .add project { url := some "https://h/o/core".toList }

/-- A dependency of one neighbor can be added before or after that of the other. -/
theorem edit_calls_neighbors :
    Elsewhere neighborhood neighbors (addition ['p']) (addition ['b']) ∧
      Commute bareSurroundings neighborhood neighbors (addition ['p']) (addition ['b']) := by
  have elsewhere : Elsewhere neighborhood neighbors (addition ['p']) (addition ['b']) := by
    have first : (addition ['p']).place? neighborhood neighbors =
        some [['a'], "Package.swift".toList] := by decide +kernel
    have second : (addition ['b']).place? neighborhood neighbors =
        some [['b'], "Package.swift".toList] := by decide +kernel
    intro place here there
    rw [first, Option.mem_some_iff] at here
    rw [second, Option.mem_some_iff, ← here] at there
    simp at there
  obtain ⟨-, -, -, commute⟩ := edit_calls_local bareSurroundings neighborhood neighbors []
  exact ⟨elsewhere, commute _ _ elsewhere⟩

-- A URL with half of a surrogate pair in place of the last character leaves the manifest empty.
example :
    let added := EditCall.add ['p'] { url := some "https://h/o/§".toList }
    let served := added.serve { bareSurroundings with standIns := [('§', 0x4FF)] }
      neighborhood neighbors
    (served.disk.read ⟨.root, [['a'], "Package.swift".toList]⟩).toOption = some [] := by
      decide +kernel

end EditCall

end SwiftWorkspace
