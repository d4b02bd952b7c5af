import Mathlib.Data.List.Forall2
import SwiftWorkspace.Proofs.Graphs

/-!
# Inferred and discovered projects

A project is named once when it is discovered, with the directory that the walk has
come to, and once when it is inferred, with the path of its manifest file.  Both give
the same name and the same root.
-/

namespace SwiftWorkspace

namespace Manifest

theorem packageName_ne_nil (source : Source) : source.packageName ≠ [] := by
  simp only [Source.packageName]
  cases found : List.findSome? _ _ with
  | none => decide
  | some name =>
      obtain ⟨site, -, filled⟩ := List.exists_of_findSome?_eq_some found
      obtain ⟨literal, -, filled⟩ := Option.bind_eq_some_iff.mp filled
      exact (Dependency.mem_of_filled? filled).2

theorem name_ne_nil_of_read {disk : Disk} {path : Path} {manifest : Reported Manifest}
    (read : Manifest.read disk path = .ok manifest) : manifest.value.name ≠ [] := by
  obtain ⟨text, -, read⟩ := Outcome.bind_eq_ok.mp read
  obtain rfl := Except.ok.inj read
  exact packageName_ne_nil _

end Manifest

namespace Entry

variable {entry : Entry} {entries : List (Text × Entry)} {segments : List Text}

/-- No walk fails for a null character in a name. -/
theorem locate_ne_unnameable (above : List Entry) (entry : Entry) (segments : List Text) :
    entry.locate above segments ≠ .error .unnameable := by
  fun_induction locate above entry segments <;> simp_all

theorem locate_concat {above : List Entry}
    (located : entry.locate above segments = .ok (.directory entries))
    {name : Text} (ahead : name ≠ Path.up) (short : isLongName name = false) :
    entry.locate above (segments ++ [name]) =
      (entries.lookup name).elim (.error .notFound) .ok := by
  fun_induction locate above entry segments with
  | case1 above entry =>
      obtain rfl := Except.ok.inj located
      rw [List.nil_append, locate_name ahead, if_neg (by simp [short])]
      rfl
  | case2 => cases located
  | case3 entries segments ih => rw [List.cons_append, locate_up_root, ih located]
  | case4 entries segments outer above ih => rw [List.cons_append, locate_up, ih located]
  | case5 => cases located
  | case6 => cases located
  | case7 above entries segment segments differs notLong entry held ih =>
      rw [List.cons_append, locate_name differs, if_neg notLong, held]
      exact ih located

end Entry

namespace Disk

variable {disk : Disk} {segments : List Text} {entries : List (Text × Entry)} {name : Text}

/-- A child of a directory can be looked up when neither its name nor its path is too long. -/
theorem exists_find? (located : disk.locate ⟨.root, segments⟩ = .ok (.directory entries))
    (isName : IsEntryName name)
    (short : Entry.isLongName name = false)
    (fits : isLongPath ⟨.root, segments ++ [name]⟩ = false) :
    ∃ found, disk.find? ⟨.root, segments ++ [name]⟩ = .ok found := by
  have nameable : Path.isUnnameable ⟨.root, segments ++ [name]⟩ = false := by
    apply Path.isUnnameable_eq_false
    intro other member
    rcases List.mem_append.mp member with above | last
    · exact nameable_of_locate located other above
    · obtain rfl := List.mem_singleton.mp last
      exact isName.nameable
  obtain ⟨-, -, walked⟩ := locate_eq_ok_iff.mp located
  have walk : disk.locate ⟨.root, segments ++ [name]⟩ =
      (entries.lookup name).elim (.error .notFound) .ok := by
    rw [locate, Path.join_of_root _ rfl]
    simp only [nameable, fits, Bool.false_eq_true, if_false]
    exact Entry.locate_concat walked isName.notUp short
  rw [find?, walk]
  cases entries.lookup name <;> exact ⟨_, rfl⟩

/-- A path that leads to something can be looked up, and so can one with a shorter last name. -/
theorem isLongPath_of_locate {other : Text} {found : Entry}
    (located : disk.locate ⟨.root, segments ++ [other]⟩ = .ok found)
    (shorter : (Utf8.encode name).length ≤ (Utf8.encode other).length) :
    isLongPath ⟨.root, segments ++ [name]⟩ = false := by
  obtain ⟨-, fits, -⟩ := locate_eq_ok_iff.mp located
  rw [isLongPath, decide_eq_false_iff_not, Nat.not_lt, text_root] at fits ⊢
  cases segments with
  | nil =>
      simp only [List.nil_append, Text.join, List.intercalate_singleton, Utf8.encode_cons,
        List.length_append] at fits ⊢
      omega
  | cons first segments =>
      rw [Text.join_concat] at fits ⊢
      simp only [Utf8.encode, List.flatMap_cons, List.flatMap_append, List.length_append]
        at fits shorter ⊢
      omega

/-- A file whose path holds no null character is not unreadable for such a character. -/
theorem cause_ne_unnameable {path : Path} (absolute : path.anchor = .root)
    (nameable : path.isUnnameable = false) {failure : ReadFailure}
    (failed : Manifest.read disk path = .error failure) : failure.cause ≠ .unnameable := by
  have walk : disk.locate path ≠ .error .unnameable := by
    rw [locate, Path.join_of_root _ absolute]
    simp only [nameable, Bool.false_eq_true, if_false]
    split
    · simp
    · exact Entry.locate_ne_unnameable _ _ _
  rw [Manifest.read, readText, Disk.read] at failed
  cases located : disk.locate path with
  | error cause =>
      rw [located] at failed
      obtain rfl := Except.error.inj failed
      exact fun same => walk (located.trans (congrArg _ same))
  | ok entry =>
      cases entry with
      | directory entries =>
          rw [located] at failed
          obtain rfl := Except.error.inj failed
          simp
      | file content =>
          simp only [located, bind, Except.bind] at failed
          cases decoded : Utf8.decode content with
          | ok text => simp [decoded, pure, Except.pure] at failed
          | error invalid =>
              simp only [decoded] at failed
              obtain rfl := Except.error.inj failed
              simp

end Disk

/-- Some item is found, or none, when each of them can be asked. -/
theorem Outcome.exists_anyM {α ε : Type} {action : α → Except ε Bool} {items : List α}
    (each : ∀ item ∈ items, ∃ result, action item = .ok result) :
    ∃ result, items.anyM action = .ok result := by
  induction items with
  | nil => exact ⟨false, rfl⟩
  | cons item items ih =>
      obtain ⟨first, answered⟩ := each item (.head _)
      obtain ⟨rest, others⟩ := ih fun other member => each other (.tail _ member)
      cases first with
      | true => exact ⟨true, by rw [List.anyM, answered]; rfl⟩
      | false => exact ⟨rest, by rw [List.anyM, answered]; exact others⟩

/--
Results that all are successes are collected, and those that hold something stay in their order.
-/
theorem Reported.exists_collectUntilFailure {α β ε : Type}
    {run : α → Reported (Except ε (Option β))}
    {keeps : α → Bool} {fits : α → β → Prop} {items : List α}
    (kept : ∀ item ∈ items, keeps item → ∃ result, (run item).value = .ok (some result) ∧
      fits item result)
    (dropped : ∀ item ∈ items, keeps item = false → (run item).value = .ok none) :
    ∃ results, (Reported.collectUntilFailure (items.map run)).value = .ok results ∧
      List.Forall₂ fits (items.filter keeps) (results.filterMap id) := by
  induction items with
  | nil => exact ⟨[], rfl, .nil⟩
  | cons item items ih =>
      obtain ⟨results, collected, each⟩ := ih (fun other member => kept other (.tail _ member))
        fun other member => dropped other (.tail _ member)
      have next {result : Option β} (ran : (run item).value = .ok result) :
          (Reported.collectUntilFailure ((item :: items).map run)).value =
            .ok (result :: results) := by
        rw [List.map_cons, Reported.collectUntilFailure, ran]
        simp only [collected, Except.map]
      cases keep : keeps item with
      | true =>
          obtain ⟨result, ran, fit⟩ := kept item (.head _) keep
          refine ⟨some result :: results, next ran, ?_⟩
          rw [List.filter_cons_of_pos keep]
          exact .cons fit each
      | false =>
          refine ⟨none :: results, next (dropped item (.head _) keep), ?_⟩
          rw [List.filter_cons_of_neg (by simp [keep])]
          exact each

namespace ProjectNode

/-- The names that are looked up in the directory of a project. -/
def examinedNames : List Text := descriptionNames ++ ["Tests".toList]

/-- Whether all of these can be looked up in a directory. -/
def IsExaminable (disk : Disk) (directory : Path) : Prop :=
  ∀ name ∈ examinedNames, ∃ found, disk.find? (directory.child name) = .ok found

variable {disk : Disk} {workspace : Path} {root : Text}

/-- The root of a manifest file is the normal form of its directory. -/
theorem rootOf_eq (file : Text) :
    rootOf file = Project.normalizeRoot (GraphBuilder.packageRoot file) := by
  rw [rootOf, GraphBuilder.packageRoot]
  split
  · rename_i alone
    rw [List.isEmpty_iff.mp alone]
    decide
  · rfl

theorem exists_ofManifest (examinable : IsExaminable disk (workspace.join (Path.ofText root)))
    (options : TaskOptions) (manifest : Manifest) :
    ∃ node, ofManifest disk workspace options root manifest = .ok node ∧
      node.name = projectName (disk.resolve workspace) root manifest ∧ node.root = root := by
  obtain ⟨described, answered⟩ : ∃ found, hasDescription disk (workspace.join (Path.ofText root)) =
      .ok found := by
    refine Outcome.exists_anyM fun name member => ?_
    obtain ⟨found, looked⟩ := examinable name (List.mem_append_left _ member)
    exact ⟨found.isSome, by rw [Disk.isPresent, looked]; rfl⟩
  obtain ⟨tasks, planned⟩ : ∃ tasks, ProjectTask.inWorkspace disk workspace root manifest options =
      .ok tasks := by
    obtain ⟨found, looked⟩ := examinable "Tests".toList (List.mem_append_right _ (.head _))
    have tested : ProjectTask.hasTestDirectory disk workspace root =
        .ok (found.any Entry.isDirectory) := by
      rw [ProjectTask.hasTestDirectory, Disk.isDirectory, looked]
      rfl
    rw [ProjectTask.inWorkspace, tested]
    cases options.includeTest <;> exact ⟨_, rfl⟩
  have made : ofManifest disk workspace options root manifest = .ok
      { name := projectName (disk.resolve workspace) root manifest
        root
        kind := .ofManifest manifest
        sourceRoot := sourceDirectory root
        tasks
        isDescribed := described } := by
    rw [ofManifest, answered, planned]
    rfl
  exact ⟨_, made, rfl, rfl⟩

end ProjectNode

namespace Workspace

def canRead (workspace : Workspace) (disk : Disk) (project : Project) : Bool :=
  (Manifest.read disk (workspace.contextOf project).manifestPath).isOk

def inferredDirectory (workspace : Workspace) (project : Project) : Path :=
  workspace.root.join (Path.ofText (Project.normalizeRoot project.root))

/--
How a project was found: at the end of some names below the workspace, and with the name
that its manifest gives or else the last of them.
-/
structure Finds (workspace : Workspace) (disk : Disk) (names : List Text) (project : Project) :
    Prop where
  surveyed : workspace.Surveyed
  places : Discovery.Places (discoveryOptions workspace.settings) names project
  name_eq : project.name = (Discovery.projectName disk
    ⟨.root, workspace.root.segments ++ names ++ [workspace.settings.manifestName]⟩
    ⟨.root, workspace.root.segments ++ names⟩).value
  located : ∃ entry, disk.locate workspace.root = .ok entry

variable {workspace : Workspace} {disk : Disk} {project : Project} {names : List Text}

theorem exists_finds {reader : DocumentReader} (named : disk.root.IsNamed) {directory : Path}
    {given : Option Settings}
    {found : Reported Workspace} (discovered : discover reader disk directory given = .ok found)
    (member : project ∈ found.value.index.projects) :
    ∃ names, found.value.Finds disk names project := by
  have surveyed := surveyed_of_discover named discovered
  obtain ⟨root, -, discovered⟩ := Outcome.bind_eq_ok.mp discovered
  obtain ⟨settings, -, discovered⟩ := Outcome.bind_eq_ok.mp discovered
  obtain rfl := Except.ok.inj discovered
  have among : project ∈ (Discovery.discover disk (discoveryOptions settings) root).value := member
  obtain ⟨names, places, same⟩ := Discovery.exists_projectAt named among
  have located : ∃ entry, disk.locate (disk.resolve root) = .ok entry := by
    simp only [Discovery.discover] at among
    split at among
    · exact ⟨_, by assumption⟩
    · cases among
  exact ⟨names, surveyed, places, congrArg Project.name same, located⟩

namespace Finds

variable (finds : workspace.Finds disk names project)
include finds

theorem resolve_root : disk.resolve workspace.root = workspace.root := by
  have anchor := finds.surveyed.anchor
  rw [Disk.resolve, Path.join_of_root _ anchor, Path.collapsed,
    Path.collapse_of_plain finds.surveyed.plain, ← anchor]

theorem projectName_eq (filled : workspace.root.name ≠ []) {manifest : Manifest}
    (named : manifest.name ≠ []) : ProjectNode.projectName workspace.root project.root manifest =
      if manifest.isNamed then manifest.name
        else Path.name ⟨.root, workspace.root.segments ++ names⟩ := by
  have given : manifest.name.isEmpty = false := List.isEmpty_eq_false_iff.mpr named
  have kept {name : Text} (inside : name ≠ []) : ProjectNode.nameOr name = name :=
    if_neg (by simpa using inside)
  rw [ProjectNode.projectName, given]
  cases manifest.isNamed with
  | true => rfl
  | false =>
      simp only [Bool.not_false, Bool.and_false, Bool.false_eq_true, if_false]
      rcases List.eq_nil_or_concat names with rfl | ⟨names, name, rfl⟩
      · have root : project.root = workspaceRoot := finds.places.root_eq
        rw [if_pos root, kept filled, List.append_nil]
        rfl
      · have inside := finds.places.inside
        rw [List.concat_eq_append] at inside ⊢
        have filled : names ++ [name] ≠ [] := by simp
        have split : project.root.splitOn '/' = names ++ [name] := by
          rw [finds.places.root_eq, List.concat_eq_append, Path.text_below, if_neg (by simp)]
          exact Path.splitOn_join (fun name member => (inside name member).written) filled
        have elsewhere := root_ne_workspaceRoot finds.places (by simp)
        rw [if_neg elsewhere, split, ← List.append_assoc, Path.name, List.getLast?_concat,
          List.getLast?_concat]
        exact kept (inside name (by simp)).filled

theorem manifestPath_eq : (workspace.contextOf project).manifestPath =
    ⟨.root, workspace.root.segments ++ names ++ [workspace.settings.manifestName]⟩ :=
  manifestPath_contextOf finds.surveyed.anchor finds.places

/-- No segment on the way to the manifest of a project holds a null character. -/
theorem isUnnameable_manifestPath :
    (workspace.contextOf project).manifestPath.isUnnameable = false := by
  obtain ⟨entry, located⟩ := finds.located
  have root : workspace.root = ⟨.root, workspace.root.segments⟩ := by rw [← finds.surveyed.anchor]
  rw [root] at located
  rw [finds.manifestPath_eq]
  apply Path.isUnnameable_eq_false
  intro name member
  rw [List.append_assoc] at member
  rcases List.mem_append.mp member with above | below
  · exact Disk.nameable_of_locate located name above
  · rcases List.mem_append.mp below with inside | last
    · exact (finds.places.inside name inside).nameable
    · rw [List.mem_singleton.mp last]
      exact finds.places.manifestName.nameable

theorem inferProject_of_cannotRead (unread : workspace.canRead disk project = false) :
    (workspace.inferProject disk project).value = .ok none := by
  cases failed : Manifest.read disk (workspace.contextOf project).manifestPath with
  | ok manifest => simp [canRead, failed, Except.isOk, Except.toBool] at unread
  | error failure =>
      have absolute : (workspace.contextOf project).manifestPath.anchor = .root := by
        rw [finds.manifestPath_eq]
      have cause := Disk.cause_ne_unnameable absolute finds.isUnnameable_manifestPath failed
      have failed : Manifest.read disk
          (workspace.root.join (Path.ofText (workspace.manifestFileOf project))) =
          .error failure := failed
      rw [inferProject, ProjectNode.infer, failed]
      simp only [if_neg cause]
      rfl

theorem inferProject_of_canRead (readable : workspace.canRead disk project)
    (examinable : ProjectNode.IsExaminable disk (workspace.inferredDirectory project)) :
    ∃ manifest node, Manifest.read disk (workspace.contextOf project).manifestPath = .ok manifest ∧
      (workspace.inferProject disk project).value = .ok (some node) ∧
      node.name = ProjectNode.projectName workspace.root (Project.normalizeRoot project.root)
        manifest.value ∧
      node.root = Project.normalizeRoot project.root := by
  obtain ⟨manifest, read⟩ := Outcome.exists_of_isOk _ readable
  obtain ⟨node, made, name, root⟩ :=
    ProjectNode.exists_ofManifest examinable workspace.settings.tasks manifest.value
  refine ⟨manifest, node, read, ?_, ?_, root⟩
  · have read : Manifest.read disk
        (workspace.root.join (Path.ofText (workspace.manifestFileOf project))) =
        .ok manifest := read
    rw [inferProject, ProjectNode.infer, read]
    simp only [Reported.map, ProjectNode.rootOf_eq, packageRoot_eq finds.places, made]
    rfl
  · rw [name, finds.resolve_root]

/-- So it has the name and the root that it was discovered with, where these are in normal form. -/
theorem node_eq (filled : workspace.root.name ≠ [])
    (normal : Project.normalizeRoot project.root = project.root) {manifest : Reported Manifest}
    (read : Manifest.read disk (workspace.contextOf project).manifestPath = .ok manifest)
    {node : ProjectNode}
    (name : node.name = ProjectNode.projectName workspace.root (Project.normalizeRoot project.root)
      manifest.value)
    (root : node.root = Project.normalizeRoot project.root) :
    node.name = project.name ∧ node.root = project.root := by
  refine ⟨?_, root.trans normal⟩
  have found : Manifest.read disk
      ⟨.root, workspace.root.segments ++ names ++ [workspace.settings.manifestName]⟩ =
        .ok manifest := by
    rw [← finds.manifestPath_eq, read]
  rw [name, normal, finds.projectName_eq filled (Manifest.name_ne_nil_of_read read), finds.name_eq,
    Discovery.projectName, found]
  rfl

/--
A manifest whose name is not shorter than those that are looked up can only be read where these
fit.
-/
theorem isExaminable_of_canRead (readable : workspace.canRead disk project)
    (normal : Project.normalizeRoot project.root = project.root)
    (long : ∀ name ∈ ProjectNode.examinedNames,
      (Utf8.encode name).length ≤ (Utf8.encode workspace.settings.manifestName).length) :
    ProjectNode.IsExaminable disk (workspace.inferredDirectory project) := by
  obtain ⟨manifest, read⟩ := Outcome.exists_of_isOk _ readable
  obtain ⟨text, readText, -⟩ := Outcome.bind_eq_ok.mp read
  obtain ⟨written, content, -⟩ := Disk.readText_eq_ok_iff.mp readText
  have file := Disk.locate_of_read content
  rw [finds.manifestPath_eq] at file
  obtain ⟨entries, located⟩ := Disk.locate_parent file
  have directory : workspace.inferredDirectory project =
      ⟨.root, workspace.root.segments ++ names⟩ := by
    rw [inferredDirectory, normal]
    exact packageDirectory_contextOf finds.surveyed.anchor finds.places
  intro name member
  have known : ∀ name ∈ ProjectNode.examinedNames, IsEntryName name ∧
      Entry.isLongName name = false := by decide
  obtain ⟨isName, short⟩ := known name member
  rw [directory]
  exact Disk.exists_find? located isName short (Disk.isLongPath_of_locate file (long name member))

end Finds

/--
Discovery and inference give every project with a root in normal form and a manifest that
can be read the same name and the same root, if its directory can be examined.  It can if
the name of manifests is not shorter than those that are looked up.  All projects with
such manifests are inferred, in the order in which they are discovered.
-/
theorem inference_agrees {reader : DocumentReader} {disk : Disk} (named : disk.root.IsNamed)
    {directory : Path}
    {given : Option Settings} {found : Reported Workspace}
    (discovered : discover reader disk directory given = .ok found)
    (filled : found.value.root.name ≠ []) :
    (∀ project ∈ found.value.index.projects, Project.normalizeRoot project.root = project.root →
      found.value.canRead disk project →
        ((∀ name ∈ ProjectNode.examinedNames,
            (Utf8.encode name).length ≤ (Utf8.encode found.value.settings.manifestName).length) →
          ProjectNode.IsExaminable disk (found.value.inferredDirectory project)) ∧
        (ProjectNode.IsExaminable disk (found.value.inferredDirectory project) →
          ∃ node, (found.value.inferProject disk project).value = .ok (some node) ∧
            node.name = project.name ∧ node.root = project.root)) ∧
    ((∀ project ∈ found.value.index.projects, found.value.canRead disk project →
        ProjectNode.IsExaminable disk (found.value.inferredDirectory project)) →
      ∃ nodes, (found.value.inferProjects disk).value = .ok nodes ∧
        List.Forall₂
          (fun project node => (found.value.inferProject disk project).value = .ok (some node) ∧
            (Project.normalizeRoot project.root = project.root →
              node.name = project.name ∧ node.root = project.root))
          (found.value.index.projects.filter (found.value.canRead disk)) nodes) := by
  have inferred (project : Project) (member : project ∈ found.value.index.projects)
      (readable : found.value.canRead disk project)
      (examinable : ProjectNode.IsExaminable disk (found.value.inferredDirectory project)) :
      ∃ node, (found.value.inferProject disk project).value = .ok (some node) ∧
        (Project.normalizeRoot project.root = project.root →
          node.name = project.name ∧ node.root = project.root) := by
    obtain ⟨names, finds⟩ := exists_finds named discovered member
    obtain ⟨manifest, node, read, ran, name, root⟩ :=
      finds.inferProject_of_canRead readable examinable
    exact ⟨node, ran, fun normal => finds.node_eq filled normal read name root⟩
  constructor
  · intro project member normal readable
    constructor
    · intro long
      obtain ⟨names, finds⟩ := exists_finds named discovered member
      exact finds.isExaminable_of_canRead readable normal long
    · intro examinable
      obtain ⟨node, ran, agrees⟩ := inferred project member readable examinable
      exact ⟨node, ran, agrees normal⟩
  · intro examinable
    have missing : ∀ project ∈ found.value.index.projects,
        found.value.canRead disk project = false →
        (found.value.inferProject disk project).value = .ok none := by
      intro project member unread
      obtain ⟨names, finds⟩ := exists_finds named discovered member
      exact finds.inferProject_of_cannotRead unread
    obtain ⟨results, collected, each⟩ := Reported.exists_collectUntilFailure
      (fun project member readable => by
        obtain ⟨node, ran, agrees⟩ :=
          inferred project member readable (examinable project member readable)
        exact ⟨node, ran, And.intro ran agrees⟩)
      missing
    refine ⟨results.filterMap id, ?_, each⟩
    rw [inferProjects, Reported.map]
    simp only [collected]
    rfl

/-- A workspace that holds one package without a name. -/
def loneDisk : Disk where
  root := .directory
    [(['w'], .directory
      [(['a'], .directory [("Package.swift".toList, .file (Utf8.encode "Package()".toList))])])]

/-- The workspace with its package, which is named after its directory. -/
def loneWorkspace : Workspace where
  root := ⟨.root, [['w']]⟩
  settings := { root := ⟨.root, [['w']]⟩ }
  index := .ofProjects [⟨['a'], ['a']⟩]

open Discovery in
theorem discover_loneDisk :
    (Discovery.discover loneDisk {} ⟨.root, [['w']]⟩).value = [⟨['a'], ['a']⟩] := by
  let package : Entry := .directory
    [(({} : Options).manifestName, .file (Utf8.encode "Package()".toList))]
  have entries : walkEntries loneDisk {} ⟨.root, [['w']]⟩ [] [(['a'], package)] =
      [(['a'], [projectAt loneDisk {} ⟨.root, [['w'], ['a']]⟩ ['a']])] := by
    rw [walkEntries_cons (by decide +kernel), walk_package (by decide +kernel), walkEntries]
    rfl
  have walked : walk loneDisk {} ⟨.root, [['w']]⟩ [] (.directory [(['a'], package)]) =
      [projectAt loneDisk {} ⟨.root, [['w'], ['a']]⟩ ['a']] := by
    have none : holdsFile ({} : Options).manifestName [(['a'], package)] = false := by
      decide +kernel
    have listed : isListed loneDisk ⟨.root, [['w']]⟩ := by decide +kernel
    rw [walk, if_pos listed, none, entries, List.mergeSort_singleton]
    rfl
  have located : loneDisk.locate (loneDisk.resolve ⟨.root, [['w']]⟩) =
      .ok (.directory [(['a'], package)]) := rfl
  simp only [Discovery.discover, located]
  have root : loneDisk.resolve ⟨.root, [['w']]⟩ = ⟨.root, [['w']]⟩ := rfl
  rw [root, walked]
  decide +kernel

/-- The package is inferred with the name of its directory, as it was discovered. -/
theorem inference_agrees_loneDisk :
    ∃ records, discover EditCall.bareSurroundings.reader loneDisk ⟨.root, [['w']]⟩
      (some loneWorkspace.settings) = .ok ⟨loneWorkspace, records⟩ ∧
      (∃ node, (loneWorkspace.inferProject loneDisk ⟨['a'], ['a']⟩).value = .ok (some node) ∧
        node.name = ['a'] ∧ node.root = ['a']) ∧
      ∃ nodes, (loneWorkspace.inferProjects loneDisk).value = .ok nodes ∧ nodes.length = 1 := by
  have named : loneDisk.root.IsNamed := by
    have names : IsEntryName ['w'] ∧ IsEntryName ['a'] ∧
        IsEntryName "Package.swift".toList := by decide
    exact ⟨names.1, ⟨names.2.1, ⟨names.2.2, trivial, trivial⟩, trivial⟩, trivial⟩
  have discovered : discover EditCall.bareSurroundings.reader loneDisk ⟨.root, [['w']]⟩
      (some loneWorkspace.settings) =
      .ok ⟨loneWorkspace, (Discovery.discover loneDisk {} ⟨.root, [['w']]⟩).records⟩ := by
    have found : discover EditCall.bareSurroundings.reader loneDisk ⟨.root, [['w']]⟩
        (some loneWorkspace.settings) =
        .ok ((Discovery.discover loneDisk {} ⟨.root, [['w']]⟩).map
          (ofProjects loneDisk ⟨.root, [['w']]⟩ (some loneWorkspace.settings))) := rfl
    rw [found, Reported.map, discover_loneDisk]
    rfl
  have readable : loneWorkspace.canRead loneDisk ⟨['a'], ['a']⟩ := by decide +kernel
  have normal : Project.normalizeRoot ['a'] = ['a'] := by decide +kernel
  obtain ⟨each, all⟩ := inference_agrees named discovered (by decide)
  obtain ⟨fits, agrees⟩ := each ⟨['a'], ['a']⟩ (.head _) normal readable
  have examinable := fits (by decide)
  refine ⟨_, discovered, agrees examinable, ?_⟩
  obtain ⟨nodes, inferred, related⟩ := all fun project member _ => by
    obtain rfl := List.mem_singleton.mp member
    exact examinable
  refine ⟨nodes, inferred, ?_⟩
  have only : loneWorkspace.index.projects.filter (loneWorkspace.canRead loneDisk) =
      [⟨['a'], ['a']⟩] :=
    List.filter_cons_of_pos readable
  rw [← related.length_eq]
  exact congrArg List.length only

end Workspace

end SwiftWorkspace
