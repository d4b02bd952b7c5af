import SwiftWorkspace.Proofs.Locality
import SwiftWorkspace.Proofs.Ways

/-!
# Discovered projects

The root of a discovered project is the path of a directory below the workspace,
which is written with the names of entries, or a dot for the workspace itself.
-/

namespace SwiftWorkspace

namespace Entry

mutual

def IsNamed : Entry → Prop
  | .file _ => True
  | .directory entries => AreNamed entries

def AreNamed : List (Text × Entry) → Prop
  | [] => True
  | (name, entry) :: entries => IsEntryName name ∧ entry.IsNamed ∧ AreNamed entries

end

theorem AreNamed.of_mem {entries : List (Text × Entry)} (named : AreNamed entries) {name : Text}
    {entry : Entry} (member : (name, entry) ∈ entries) : IsEntryName name ∧ entry.IsNamed := by
  induction entries with
  | nil => cases member
  | cons first entries ih =>
      obtain ⟨isName, below, rest⟩ := named
      rcases List.mem_cons.mp member with rfl | member
      · exact ⟨isName, below⟩
      · exact ih rest member

theorem IsNamed.of_reach? {tree found : Entry} (named : tree.IsNamed) {names : List Text}
    (there : tree.reach? names = some found) : found.IsNamed := by
  induction names generalizing tree with
  | nil =>
      obtain rfl := Option.some.inj there
      exact named
  | cons name names ih =>
      obtain ⟨entries, below, rfl, held, rest⟩ := reach?_cons_iff.mp there
      obtain ⟨front, back, rfl, -⟩ := List.lookup_eq_some_iff.mp held
      have named : AreNamed (front ++ (name, below) :: back) := named
      have member : (name, below) ∈ front ++ (name, below) :: back := by simp
      exact ih (named.of_mem member).2 rest

end Entry

namespace Discovery

section Joining

variable {names : List Text} (inside : ∀ name ∈ names, IsEntryName name)
include inside

theorem isEmpty_join : (Text.join ['/'] names).isEmpty = names.isEmpty := by
  cases names with
  | nil => rfl
  | cons first names =>
      have filled := (inside first (.head _)).filled
      cases names <;> simp [Text.join, List.intercalate, filled]

theorem childPath_join (name : Text) :
    childPath (Text.join ['/'] names) name = Text.join ['/'] (names ++ [name]) := by
  rw [childPath, isEmpty_join inside]
  cases names with
  | nil => simp [Text.join]
  | cons first names => exact (Text.join_concat first names name).symm

end Joining

/--
Whether a project lies at the end of some names of entries, and its manifest has such a name
too.
-/
structure Places (options : Options) (names : List Text) (project : Project) : Prop where
  inside : ∀ name ∈ names, IsEntryName name
  root_eq : project.root = (Path.below names).text
  manifestName : IsEntryName options.manifestName

variable {options : Options} {disk : Disk}

theorem places_projectAt {directory : Path} {names : List Text}
    (inside : ∀ name ∈ names, IsEntryName name) (manifestName : IsEntryName options.manifestName) :
    Places options names (projectAt disk options directory (Text.join ['/'] names)).value := by
  refine ⟨inside, ?_, manifestName⟩
  rw [Path.text_below, ← isEmpty_join inside]
  rfl

theorem isEntryName_of_holdsFile {name : Text} {entries : List (Text × Entry)}
    (named : Entry.AreNamed entries) (holds : holdsFile name entries) : IsEntryName name := by
  obtain ⟨⟨other, entry⟩, member, found⟩ := List.any_eq_true.mp holds
  obtain rfl : other = name := by simpa using (Bool.and_eq_true_iff.mp found).1
  exact (named.of_mem member).1

mutual

/-- The walk finds a project at the end of the names on its way. -/
theorem exists_projectAt_of_walk {directory : Path} {names : List Text} {entry : Entry}
    (named : entry.IsNamed) (inside : ∀ name ∈ names, IsEntryName name) {found : Reported Project}
    (member : found ∈ walk disk options directory (Text.join ['/'] names) entry) :
    ∃ more, Places options (names ++ more) found.value ∧
      found = projectAt disk options { directory with segments := directory.segments ++ more }
        (Text.join ['/'] (names ++ more)) := by
  match entry with
  | .file _ => simp [walk] at member
  | .directory entries =>
      rw [walk] at member
      split at member
      case isFalse => cases member
      rcases List.mem_append.mp member with here | below
      · split at here
        · rename_i holds
          obtain rfl := List.mem_singleton.mp here
          refine ⟨[], ?_, ?_⟩
          · rw [List.append_nil]
            exact places_projectAt inside (isEntryName_of_holdsFile named holds)
          · rw [List.append_nil, List.append_nil]
        · cases here
      · obtain ⟨⟨name, projects⟩, among, member⟩ := List.mem_flatMap.mp below
        exact exists_projectAt_of_walkEntries named inside (List.mem_mergeSort.mp among) member

theorem exists_projectAt_of_walkEntries {directory : Path} {names : List Text}
    {entries : List (Text × Entry)}
    (named : Entry.AreNamed entries) (inside : ∀ name ∈ names, IsEntryName name) {name : Text}
    {projects : List (Reported Project)}
    (among : (name, projects) ∈ walkEntries disk options directory (Text.join ['/'] names) entries)
    {found : Reported Project} (member : found ∈ projects) :
    ∃ more, Places options (names ++ more) found.value ∧
      found = projectAt disk options { directory with segments := directory.segments ++ more }
        (Text.join ['/'] (names ++ more)) := by
  match entries with
  | [] => simp [walkEntries] at among
  | (first, entry) :: entries =>
      obtain ⟨isName, below, rest⟩ := named
      simp only [walkEntries, childPath_join inside] at among
      split at among
      · rcases List.mem_cons.mp among with here | among
        · obtain ⟨rfl, rfl⟩ := Prod.mk.inj here
          have longer : ∀ other ∈ names ++ [name], IsEntryName other := by
            intro other among
            rcases List.mem_append.mp among with above | last
            · exact inside other above
            · obtain rfl := List.mem_singleton.mp last
              exact isName
          obtain ⟨more, places, same⟩ := exists_projectAt_of_walk below longer member
          refine ⟨name :: more, ?_, ?_⟩
          · rwa [List.append_cons names name more]
          · rw [same, List.append_cons names name more,
              List.append_cons directory.segments name more]
            rfl
        · exact exists_projectAt_of_walkEntries rest inside among member
      · exact exists_projectAt_of_walkEntries rest inside among member

end

theorem exists_projectAt (named : disk.root.IsNamed) {workspace : Path} {project : Project}
    (member : project ∈ (discover disk options workspace).value) :
    ∃ names, Places options names project ∧
      project = (projectAt disk options ⟨.root, (disk.resolve workspace).segments ++ names⟩
        (Text.join ['/'] names)).value := by
  simp only [discover] at member
  split at member
  · rename_i entry located
    obtain ⟨found, among, rfl⟩ := List.mem_map.mp member
    have below := named.of_reach? (Disk.reach?_of_locate located)
    have none : ∀ name ∈ ([] : List Text), IsEntryName name := by simp
    obtain ⟨names, places, same⟩ := exists_projectAt_of_walk below none among
    exact ⟨names, places, congrArg Reported.value same⟩
  · cases member

theorem walkEntries_cons {directory : Path} {path name : Text} {entry : Entry}
    {entries : List (Text × Entry)} (enter : enters options name (childPath path name)) :
    walkEntries disk options directory path ((name, entry) :: entries) =
      (name, walk disk options (directory.child name) (childPath path name) entry) ::
        walkEntries disk options directory path entries := by
  simp only [walkEntries, enter, if_true]

theorem walk_package {directory : Path} {path : Text} {content : Bytes}
    (listed : isListed disk directory) :
    walk disk options directory path (.directory [(options.manifestName, .file content)]) =
      [projectAt disk options directory path] := by
  have holds : holdsFile options.manifestName [(options.manifestName, .file content)] = true := by
    simp [holdsFile]
  have below :
      ((walkEntries disk options directory path [(options.manifestName, .file content)]).mergeSort
      fun left right => Text.le left.1 right.1).flatMap Prod.snd = [] := by
    refine List.flatMap_eq_nil_iff.mpr fun found member => ?_
    rw [List.mem_mergeSort] at member
    simp only [walkEntries] at member
    split at member
    · obtain rfl := List.mem_singleton.mp member
      rw [walk]
    · cases member
  rw [walk, if_pos listed, if_pos holds, below, List.append_nil]

end Discovery

namespace Workspace

structure Surveyed (workspace : Workspace) : Prop where
  anchor : workspace.root.anchor = .root
  plain : Path.up ∉ workspace.root.segments
  index_eq : workspace.index = .ofProjects workspace.index.projects
  places : ∀ project ∈ workspace.index.projects,
    ∃ names, Discovery.Places (discoveryOptions workspace.settings) names project

theorem surveyed_of_discover {reader : DocumentReader} {disk : Disk} (named : disk.root.IsNamed)
    {directory : Path} {given : Option Settings} {found : Reported Workspace}
    (discovered : discover reader disk directory given = .ok found) :
    found.value.Surveyed := by
  obtain ⟨root, -, discovered⟩ := Outcome.bind_eq_ok.mp discovered
  obtain ⟨settings, -, discovered⟩ := Outcome.bind_eq_ok.mp discovered
  obtain rfl := Except.ok.inj discovered
  refine ⟨rfl, Path.up_not_mem_collapse _, rfl, fun project member => ?_⟩
  obtain ⟨names, places, -⟩ := Discovery.exists_projectAt named member
  exact ⟨names, places⟩

end Workspace

end SwiftWorkspace
