import SwiftWorkspace.Proofs.GivenPaths
import SwiftWorkspace.Proofs.LocalEdges
import SwiftWorkspace.Proofs.Roots

/-!
# Descriptions of packages

A tool describes a package by a JSON value.  Whatever that value is, its edges are those to
the local packages that it lists and then those to the projects that it names, in the order
of the entries.  An entry that is not of the form that is read counts as nothing, wherever it
stands, so that a description may be padded with such entries.  Where the tool fails or says
nothing that can be read, the next source is asked.  Other errors of its run end the graph, and
so does an answer that holds more values in one another than can be read.
-/

namespace SwiftWorkspace

section Padded

variable {α β : Type} {idle : α → Prop} {alike : α → α → Prop} {old new : List α}

/--
Whether a list is another one with idle entries put in, and with entries that are alike in place
of its own.
-/
inductive Padded (idle : α → Prop) (alike : α → α → Prop) : List α → List α → Prop
  | nil : Padded idle alike [] []
  | insert {entry : α} {old new : List α} (none : idle entry) (rest : Padded idle alike old new) :
      Padded idle alike old (entry :: new)
  | keep {first second : α} {old new : List α} (same : alike first second)
      (rest : Padded idle alike old new) :
      Padded idle alike (first :: old) (second :: new)

theorem Padded.flatMap (padded : Padded idle alike old new) {parts : α → List β}
    (none : ∀ entry, idle entry → parts entry = [])
    (same : ∀ first second, alike first second → parts second = parts first) :
    new.flatMap parts = old.flatMap parts := by
  induction padded with
  | nil => rfl
  | insert idle rest ih =>
      rw [List.flatMap_cons, none _ idle]
      exact ih
  | keep alike rest ih =>
      rw [List.flatMap_cons, List.flatMap_cons, same _ _ alike, ih]

theorem Padded.filterMap (padded : Padded idle Eq old new) {part? : α → Option β}
    (none : ∀ entry, idle entry → part? entry = .none) :
    new.filterMap part? = old.filterMap part? := by
  rw [List.filterMap_eq_flatMap_toList, List.filterMap_eq_flatMap_toList]
  apply padded.flatMap
  · intro entry idle
    rw [none entry idle, Option.toList_none]
  · rintro first _ rfl
    rfl

end Padded

namespace JsonValue

variable {key : Text} {value old new : JsonValue}

def localPath? (package : JsonValue) : Option CodePoints :=
  match package.member? "path".toList with
  | some (.string path) => if path.isEmpty then none else some path
  | _ => none

def localPaths (entry : JsonValue) : List CodePoints :=
  (entry.itemsAt "fileSystem".toList).filterMap localPath?

def projectName? (reference : JsonValue) : Option CodePoints :=
  match reference.member? "byName".toList with
  | some (.array (.string name :: _)) => some name
  | _ => none

def projectNames (target : JsonValue) : List CodePoints :=
  (target.itemsAt "dependencies".toList).filterMap projectName?

def ListsNothing (key : Text) (value : JsonValue) : Prop :=
  ∀ items, value.member? key ≠ some (.array items)

def GivesNoPath (package : JsonValue) : Prop :=
  ∀ path, path ≠ [] → package.member? "path".toList ≠ some (.string path)

def GivesNoName (reference : JsonValue) : Prop :=
  ∀ name items, reference.member? "byName".toList ≠ some (.array (.string name :: items))

def PaddedAt (key : Text) (idle : JsonValue → Prop) (alike : JsonValue → JsonValue → Prop)
    (old new : JsonValue) : Prop :=
  Padded idle alike (old.itemsAt key) (new.itemsAt key)

/--
Whether a description is another one with entries put in that are not of the form that is read.
-/
structure PaddedDescription (old new : JsonValue) : Prop where
  dependencies : PaddedAt "dependencies".toList (ListsNothing "fileSystem".toList)
    (PaddedAt "fileSystem".toList GivesNoPath Eq) old new
  targets : PaddedAt "targets".toList (ListsNothing "dependencies".toList)
    (PaddedAt "dependencies".toList GivesNoName Eq) old new

theorem itemsAt_of_listsNothing (nothing : ListsNothing key value) : value.itemsAt key = [] := by
  rw [itemsAt]
  cases member : value.member? key with
  | none => rfl
  | some found =>
      cases found with
      | array items => exact absurd member (nothing items)
      | _ => rfl

theorem localPath?_of_givesNoPath (nothing : GivesNoPath value) : localPath? value = none := by
  rw [localPath?]
  split
  · rename_i path member
    by_cases empty : path = []
    · rw [empty]
      rfl
    · exact absurd member (nothing path empty)
  · rfl

theorem projectName?_of_givesNoName (nothing : GivesNoName value) : projectName? value = none := by
  rw [projectName?]
  split
  · rename_i name items member
    exact absurd member (nothing name items)
  · rfl

theorem localPaths_of_padded (padded : PaddedAt "fileSystem".toList GivesNoPath Eq old new) :
    new.localPaths = old.localPaths :=
  Padded.filterMap padded fun _ => localPath?_of_givesNoPath

theorem projectNames_of_padded (padded : PaddedAt "dependencies".toList GivesNoName Eq old new) :
    new.projectNames = old.projectNames :=
  Padded.filterMap padded fun _ => projectName?_of_givesNoName

theorem PaddedDescription.localPaths (padded : PaddedDescription old new) :
    (new.itemsAt "dependencies".toList).flatMap JsonValue.localPaths =
      (old.itemsAt "dependencies".toList).flatMap JsonValue.localPaths := by
  apply Padded.flatMap padded.dependencies
  · intro entry nothing
    rw [JsonValue.localPaths, itemsAt_of_listsNothing nothing, List.filterMap_nil]
  · exact fun first second => localPaths_of_padded

theorem PaddedDescription.projectNames (padded : PaddedDescription old new) :
    (new.itemsAt "targets".toList).flatMap JsonValue.projectNames =
      (old.itemsAt "targets".toList).flatMap JsonValue.projectNames := by
  apply Padded.flatMap padded.targets
  · intro target nothing
    rw [JsonValue.projectNames, itemsAt_of_listsNothing nothing, List.filterMap_nil]
  · exact fun first second => projectNames_of_padded

end JsonValue

open JsonValue (localPath? localPaths projectName? projectNames GivesNoPath PaddedDescription)

/-- Whether a tool answers a command in a directory with a JSON object that can be read. -/
def Toolchain.Describes (toolchain : Toolchain) (levels : Nat) (disk : Disk) (command : List Text)
    (directory : Path) (description : JsonValue) : Prop :=
  ∃ answer, toolchain disk command directory = .answer answer ∧
    JsonValue.ofPoints levels answer = .ok description ∧
    description.isObject = true

namespace ManifestContext

variable (context : ManifestContext)

def place? (path : CodePoints) : Option GivenPath :=
  let absolute := ((GivenPath.ofPoints path).behind context.packageDirectory).behind
    context.workspace
  if absolute.isUnnameable then none else some absolute.collapsed

def edgeToPlace? (place : GivenPath) : Option Edge :=
  (place.path?.bind fun found =>
    (found.relativeTo? context.workspace.collapsed).bind fun relative =>
    context.index.resolveRoot? relative.text).map context.edgeTo

theorem edgeToGiven?_eq (path : CodePoints) :
    context.edgeToGiven? path = (context.place? path).bind context.edgeToPlace? := by
  rw [edgeToGiven?, ProjectIndex.resolveGiven?, place?]
  split <;> rfl

/-- The edge to a path that a manifest declares is that to the same path from outside. -/
theorem edgeToPath?_eq (path : Text) :
    context.edgeToPath? path = context.edgeToGiven? (CodePoints.ofText path) := by
  rw [edgeToPath?, edgeToGiven?, GivenPath.ofPoints_ofText, GivenPath.behind_ofPath,
    ProjectIndex.resolveGiven?_ofPath]

end ManifestContext

namespace EdgeSource

variable {context : ManifestContext} {disk : Disk} {toolchain : Toolchain} {levels : Nat}
    {command : List Text}
  {timeout : Option Float} {answer : CodePoints} {description old new : JsonValue}
    {edges : List Edge}

section Contributions

variable (context)

theorem localEdges_eq (entry : JsonValue) :
    localEdges context entry = entry.localPaths.filterMap context.edgeToGiven? := by
  rw [localEdges, localPaths, List.filterMap_filterMap]
  congr 1
  funext package
  rw [localPath?]
  cases package.member? "path".toList with
  | none => rfl
  | some found =>
      cases found with
      | string path => cases path <;> rfl
      | _ => rfl

theorem targetEdges_eq (target : JsonValue) :
    targetEdges context target = target.projectNames.filterMap context.edgeToName? := by
  rw [targetEdges, projectNames, List.filterMap_filterMap]
  congr 1
  funext reference
  rw [projectName?, JsonValue.itemsAt]
  cases reference.member? "byName".toList with
  | none => rfl
  | some found =>
      cases found with
      | array items =>
          cases items with
          | nil => rfl
          | cons first items => cases first <;> rfl
      | _ => rfl

/-- The edges that the entries of a description contribute, one entry after the other. -/
def contributed (description : JsonValue) : List Edge :=
  (description.itemsAt "dependencies".toList).flatMap
    (fun entry => entry.localPaths.filterMap context.edgeToGiven?) ++
    (description.itemsAt "targets".toList).flatMap fun target =>
      target.projectNames.filterMap context.edgeToName?

theorem describedEdges_eq (description : JsonValue) :
    describedEdges context description = contributed context description := by
  rw [describedEdges, contributed, funext (localEdges_eq context), funext (targetEdges_eq context)]

theorem contributed_eq_filterMap (description : JsonValue) :
    contributed context description =
      ((description.itemsAt "dependencies".toList).flatMap localPaths).filterMap
        context.edgeToGiven? ++
        ((description.itemsAt "targets".toList).flatMap projectNames).filterMap
          context.edgeToName? := by
  rw [contributed, List.filterMap_flatMap, List.filterMap_flatMap]

theorem contributed_of_padded (padded : PaddedDescription old new) :
    contributed context new = contributed context old := by
  rw [contributed_eq_filterMap, contributed_eq_filterMap, padded.localPaths, padded.projectNames]

end Contributions

def declaredPaths (manifest : Manifest) : List Text :=
  manifest.dependencies.filterMap fun dependency => filled? dependency.path

/--
Whether a description lists the local packages that a manifest declares, by paths that lead
to the same places, and names no project.
-/
structure Lists (context : ManifestContext) (description : JsonValue) (manifest : Manifest) :
    Prop where
  places : ((description.itemsAt "dependencies".toList).flatMap localPaths).map context.place? =
    (declaredPaths manifest).map fun path => context.place? (CodePoints.ofText path)
  names : (description.itemsAt "targets".toList).flatMap projectNames = []

theorem contributed_of_lists {manifest : Manifest} (lists : Lists context description manifest) :
    contributed context description = declaredEdges context manifest := by
  have declared : declaredEdges context manifest =
      ((declaredPaths manifest).map CodePoints.ofText).filterMap context.edgeToGiven? := by
    rw [declaredEdges, declaredPaths, List.filterMap_map, List.filterMap_filterMap,
      funext context.edgeToPath?_eq]
    rfl
  -- Two spellings of one place make the same edge, so that only the places have to be listed.
  have byPlace (paths : List CodePoints) : paths.filterMap context.edgeToGiven? =
      (paths.map context.place?).filterMap (Option.bind · context.edgeToPlace?) := by
    rw [List.filterMap_map, funext context.edgeToGiven?_eq]
    rfl
  rw [contributed_eq_filterMap, lists.names, List.filterMap_nil, List.append_nil, declared,
    byPlace, byPlace, lists.places, List.map_map]
  rfl

/-- What a source replies about a manifest: a fault, a failure or edges. -/
def reply (source : EdgeSource) (disk : Disk) (context : ManifestContext) :
    Except GraphFault (Except EdgeFailure (List Edge)) :=
  (source.describe disk context).map Attempt.result

section Replies

theorem reply_of_answer (told : toolchain disk command context.packageDirectory = .answer answer) :
    (dump toolchain levels command timeout).reply disk context =
      edgesOfAnswer levels context answer := by
  simp only [reply, dump, told]
  cases edgesOfAnswer levels context answer <;> rfl

theorem reply_of_failure {failure : ToolFailure}
    (told : toolchain disk command context.packageDirectory = .failure failure) :
    (dump toolchain levels command timeout).reply disk context =
      .ok (.error (.toolFailed command context.packageDirectory failure)) := by
  simp only [reply, dump, told]
  rfl

theorem reply_of_fault {fault : ToolFault}
    (told : toolchain disk command context.packageDirectory = .fault fault) :
    (dump toolchain levels command timeout).reply disk context = .error (.tool fault) := by
  simp only [reply, dump, told]
  rfl

theorem edgesOfAnswer_fails_iff :
    (∃ failure, edgesOfAnswer levels context answer = .ok (.error failure)) ↔
    (∃ flaw, JsonValue.ofPoints levels answer = .error flaw ∧ ∀ form, flaw ≠ .tooDeep form) ∨
      ∃ description, JsonValue.ofPoints levels answer = .ok description ∧
        description.isObject = false := by
  rw [edgesOfAnswer]
  cases read : JsonValue.ofPoints levels answer with
  | error flaw => cases flaw <;> simp
  | ok description => cases object : description.isObject <;> simp [object]

/-- An answer ends the graph where it holds too many values in one another. -/
theorem edgesOfAnswer_faults_iff {fault : GraphFault} :
    edgesOfAnswer levels context answer = .error fault ↔
    ∃ form, JsonValue.ofPoints levels answer = .error (.tooDeep form) ∧ fault = .tooDeep form := by
  rw [edgesOfAnswer]
  cases read : JsonValue.ofPoints levels answer with
  | error flaw => cases flaw <;> simp [eq_comm]
  | ok description => cases object : description.isObject <;> simp [object]

theorem reply_fails_iff :
    (∃ failure, (dump toolchain levels command timeout).reply disk context = .ok (.error failure)) ↔
      (∃ failure, toolchain disk command context.packageDirectory = .failure failure) ∨
        ∃ answer, toolchain disk command context.packageDirectory = .answer answer ∧
          ((∃ flaw, JsonValue.ofPoints levels answer = .error flaw ∧ ∀ form, flaw ≠ .tooDeep form) ∨
            ∃ description, JsonValue.ofPoints levels answer = .ok description ∧
              description.isObject = false) := by
  cases told : toolchain disk command context.packageDirectory with
  | answer answer => simp [reply_of_answer told, edgesOfAnswer_fails_iff]
  | failure failure => simp [reply_of_failure told]
  | fault fault => simp [reply_of_fault told]

/--
A source ends the graph where the run of its tool ends in another error, and where the answer is
too deep.
-/
theorem reply_faults_iff {fault : GraphFault} :
    (dump toolchain levels command timeout).reply disk context = .error fault ↔
      (∃ cause, toolchain disk command context.packageDirectory = .fault cause ∧
        fault = .tool cause) ∨
        ∃ answer form, toolchain disk command context.packageDirectory = .answer answer ∧
          JsonValue.ofPoints levels answer = .error (.tooDeep form) ∧ fault = .tooDeep form := by
  cases told : toolchain disk command context.packageDirectory with
  | answer answer => simp [reply_of_answer told, edgesOfAnswer_faults_iff]
  | failure failure => simp [reply_of_failure told]
  | fault cause => simp [reply_of_fault told, eq_comm]

/-- A source gives edges only where its tool has described the package. -/
theorem reply_eq_ok_iff :
    (dump toolchain levels command timeout).reply disk context = .ok (.ok edges) ↔
    ∃ description, toolchain.Describes levels disk command context.packageDirectory description ∧
      edges = contributed context description := by
  constructor
  · intro gives
    cases told : toolchain disk command context.packageDirectory with
    | answer answer =>
        rw [reply_of_answer told] at gives
        obtain ⟨description, read, object, same⟩ := edgesOfAnswer_eq_ok gives
        exact ⟨description, ⟨answer, told, read, object⟩,
          same.trans (describedEdges_eq context description)⟩
    | failure failure =>
        rw [reply_of_failure told] at gives
        cases gives
    | fault fault =>
        rw [reply_of_fault told] at gives
        cases gives
  · rintro ⟨description, ⟨answer, told, read, object⟩, rfl⟩
    rw [reply_of_answer told, edgesOfAnswer, read]
    simp only [object, if_true, describedEdges_eq]

end Replies

theorem reply_reader_of_read {read : Reported Manifest}
    (found : Manifest.read disk context.manifestPath = .ok read) :
    reader.reply disk context = .ok (.ok (declaredEdges context read.value)) := by
  simp only [reply, reader, found]
  rfl

/--
What a tool's description of a package comes to, entry by entry.

A source that asks a tool fails exactly where the tool does and where the answer is no JSON
object.  It ends the graph exactly where the run of the tool ends in another error and where the
answer is too deep.  Otherwise it gives the edges that the entries contribute, all of them to
roots of the index.  Entries that are not of the form that is read may be put in anywhere, and a
description of what a manifest declares gives the edges that are read from the manifest.
-/
theorem dump_entry_by_entry {projects : List Project}
    (indexed : context.index = .ofProjects projects)
    (toolchain : Toolchain) (levels : Nat) (command : List Text) (timeout : Option Float)
    (disk : Disk) :
    ((∃ failure, (dump toolchain levels command timeout).reply disk context =
      .ok (.error failure)) ↔
      (∃ failure, toolchain disk command context.packageDirectory = .failure failure) ∨
        ∃ answer, toolchain disk command context.packageDirectory = .answer answer ∧
          ((∃ flaw, JsonValue.ofPoints levels answer = .error flaw ∧ ∀ form, flaw ≠ .tooDeep form) ∨
            ∃ description, JsonValue.ofPoints levels answer = .ok description ∧
              description.isObject = false)) ∧
    (∀ fault, (dump toolchain levels command timeout).reply disk context = .error fault ↔
      (∃ cause, toolchain disk command context.packageDirectory = .fault cause ∧
        fault = .tool cause) ∨
        ∃ answer form, toolchain disk command context.packageDirectory = .answer answer ∧
          JsonValue.ofPoints levels answer = .error (.tooDeep form) ∧ fault = .tooDeep form) ∧
    (∀ edges, (dump toolchain levels command timeout).reply disk context = .ok (.ok edges) ↔
      ∃ description, toolchain.Describes levels disk command context.packageDirectory description ∧
        edges = contributed context description) ∧
    (∀ edges, (dump toolchain levels command timeout).reply disk context = .ok (.ok edges) →
      ∀ edge ∈ edges, edge.target ∈ context.index.roots) ∧
    (∀ (other : Toolchain) old new,
      toolchain.Describes levels disk command context.packageDirectory old →
      other.Describes levels disk command context.packageDirectory new → PaddedDescription old new →
        (dump other levels command timeout).reply disk context =
          (dump toolchain levels command timeout).reply disk context) ∧
    ∀ description read,
      toolchain.Describes levels disk command context.packageDirectory description →
      Manifest.read disk context.manifestPath = .ok read → Lists context description read.value →
        (dump toolchain levels command timeout).reply disk context = reader.reply disk context := by
  have gives {tools : Toolchain} {description : JsonValue}
      (describes : tools.Describes levels disk command context.packageDirectory description) :
      (dump tools levels command timeout).reply disk context =
        .ok (.ok (contributed context description)) :=
    reply_eq_ok_iff.mpr ⟨description, describes, rfl⟩
  refine ⟨reply_fails_iff, fun fault => reply_faults_iff, fun edges => reply_eq_ok_iff, ?_, ?_, ?_⟩
  · intro edges gives edge member
    obtain ⟨attempt, told, described⟩ := Outcome.map_eq_ok.mp gives
    exact (leads_of_dump indexed told described member).target
  · intro other old new before after padded
    rw [gives before, gives after, contributed_of_padded context padded]
  · intro description read describes found lists
    rw [gives describes, reply_reader_of_read found, contributed_of_lists lists]

open Workspace (pair)

/-- A disk with a package that declares its neighbor. -/
def related : Disk where
  root := .directory [(['a'], .directory
    [("Package.swift".toList, .file
      (Utf8.encode "Package(dependencies: [.package(path: \"../b\")])".toList))])]

/-- A description that lists the neighbor by the path of its directory. -/
def listing : JsonValue :=
  .record [("dependencies".toList, .array
      [.record [("fileSystem".toList, .array [.record [("path".toList, .text "/b".toList)]])]]),
    ("targets".toList, .array [.record [("dependencies".toList, .array [])]])]

/-- That description with other entries in all of its lists. -/
def paddedListing : JsonValue :=
  .record [("dependencies".toList, .array
      [.null, .record [("fileSystem".toList, .array
        [.record [("path".toList, .text [])], .record [("path".toList, .text "/b".toList)]])]]),
    ("targets".toList, .array
      [.record [("dependencies".toList, .array [.record [("byName".toList, .array [])]])],
        .text ['b']])]

set_option maxRecDepth 8000 in
theorem ofText_layout_listing : JsonValue.ofText 6 listing.layout = .ok listing := rfl

set_option maxRecDepth 8000 in
theorem ofText_layout_paddedListing :
    JsonValue.ofText 6 paddedListing.layout = .ok paddedListing := rfl

set_option maxRecDepth 8000 in
theorem ofPoints_layout_listing :
    JsonValue.ofPoints 4 (CodePoints.ofText listing.layout) = .error (.tooDeep .object) := rfl

/-- The toolchain with a tool for all commands that describes each package alike. -/
def describing (description : JsonValue) : Toolchain :=
  fun _ _ _ => .answer (CodePoints.ofText description.layout)

theorem padded_listing : PaddedDescription listing paddedListing where
  dependencies := by
    have pathless : GivesNoPath (.record [("path".toList, .text [])]) := by
      intro path filled same
      exact filled (JsonValue.string.inj (Option.some.inj same)).symm
    exact .insert (fun _ => nofun) (.keep (.insert pathless (.keep rfl .nil)) .nil)
  targets := .keep (.insert (fun _ _ => nofun) .nil) (.insert (fun _ => nofun) .nil)

/--
The description, the padded one and the manifest lead to the neighbor.  A command without words
ends the graph, and so does the description where it is too deep.
-/
theorem dump_entry_by_entry_pair :
    (dump (describing listing) 6 ["swift".toList] none).reply related
      (pair.contextOf ⟨['a'], ['a']⟩) =
      .ok (.ok [⟨['a'], ['b'], "a/Package.swift".toList⟩]) ∧
    (dump (describing paddedListing) 6 ["swift".toList] none).reply related
      (pair.contextOf ⟨['a'], ['a']⟩) =
      .ok (.ok [⟨['a'], ['b'], "a/Package.swift".toList⟩]) ∧
    reader.reply related (pair.contextOf ⟨['a'], ['a']⟩) =
      .ok (.ok [⟨['a'], ['b'], "a/Package.swift".toList⟩]) ∧
    (dump .none 6 [] none).reply related (pair.contextOf ⟨['a'], ['a']⟩) = .error (.tool .noWords) ∧
    (dump (describing listing) 4 ["swift".toList] none).reply related
      (pair.contextOf ⟨['a'], ['a']⟩) =
      .error (.tooDeep .object) := by
  have described : (describing listing).Describes 6 related ["swift".toList]
      (pair.contextOf ⟨['a'], ['a']⟩).packageDirectory listing :=
    ⟨_, rfl, ofText_layout_listing, rfl⟩
  have padded : (describing paddedListing).Describes 6 related ["swift".toList]
      (pair.contextOf ⟨['a'], ['a']⟩).packageDirectory paddedListing :=
    ⟨_, rfl, ofText_layout_paddedListing, rfl⟩
  have contributes : [⟨['a'], ['b'], "a/Package.swift".toList⟩] =
      contributed (pair.contextOf ⟨['a'], ['a']⟩) listing := by decide +kernel
  have lists : Lists (pair.contextOf ⟨['a'], ['a']⟩) listing
      (Manifest.ofText "Package(dependencies: [.package(path: \"../b\")])".toList) :=
    ⟨by decide +kernel, by decide +kernel⟩
  have text : related.readText (pair.contextOf ⟨['a'], ['a']⟩).manifestPath =
      .ok "Package(dependencies: [.package(path: \"../b\")])".toList := by decide +kernel
  obtain ⟨read, found, value⟩ := Manifest.read_of_readText text
  have indexed : (pair.contextOf ⟨['a'], ['a']⟩).index =
      .ofProjects [⟨['a'], ['a']⟩, ⟨['b'], ['b']⟩] := rfl
  obtain ⟨-, -, gives, -, padding, agreement⟩ :=
    dump_entry_by_entry indexed (describing listing) 6 ["swift".toList] none related
  obtain ⟨-, faults, -⟩ := dump_entry_by_entry indexed .none 6 [] none related
  obtain ⟨-, deep, -⟩ :=
    dump_entry_by_entry indexed (describing listing) 4 ["swift".toList] none related
  have given := (gives _).mpr ⟨listing, described, contributes⟩
  refine ⟨given, ?_, ?_, ?_, ?_⟩
  · rw [padding (describing paddedListing) listing paddedListing described padded padded_listing]
    exact given
  · rw [← agreement listing read described found (value ▸ lists)]
    exact given
  · exact (faults _).mpr (.inl ⟨_, rfl, rfl⟩)
  · exact (deep _).mpr (.inr ⟨_, _, rfl, ofPoints_layout_listing, rfl⟩)

end EdgeSource

end SwiftWorkspace
