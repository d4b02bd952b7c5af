import SwiftWorkspace.Proofs.Discovered
import SwiftWorkspace.Proofs.Preservation
import SwiftWorkspace.Workspace.Overview

/-!
# The graph over one manifest

The manifest file of a discovered project is the manifest's name below the project's
root, and the graph over it has the edges to the paths that the manifest declares.
-/

namespace SwiftWorkspace

open RelativePath (IsNormal)

namespace Path

variable {names : List Text} {directory name : Text} {last : Char}

theorem takeWhile_reverse_of_noSlash (noSlash : '/' ∉ name) (rest : Text) :
    (name.reverse ++ rest).takeWhile (· ≠ '/') = name.reverse ++ rest.takeWhile (· ≠ '/') :=
  List.takeWhile_append_of_pos fun char member => by
    simpa using fun same : char = '/' => noSlash (same ▸ List.mem_reverse.mp member)

theorem directoryText_of_noSlash (noSlash : '/' ∉ name) : directoryText name = [] := by
  have whole := takeWhile_reverse_of_noSlash noSlash []
  rw [List.append_nil, List.takeWhile_nil, List.append_nil] at whole
  simp only [directoryText, whole, List.length_reverse, Nat.sub_self, List.take_zero,
    List.all_nil, if_true]

theorem directoryText_append (noSlash : '/' ∉ name) (differs : last ≠ '/') :
    directoryText (directory ++ [last] ++ '/' :: name) = directory ++ [last] := by
  have tail : (directory ++ [last] ++ '/' :: name).reverse.takeWhile (· ≠ '/') = name.reverse := by
    rw [List.reverse_append, List.reverse_cons, List.append_assoc,
      takeWhile_reverse_of_noSlash noSlash]
    simp
  have split : directory ++ [last] ++ '/' :: name =
      (directory ++ [last] ++ ['/']) ++ name := by simp
  have head : (directory ++ [last] ++ '/' :: name).take
      ((directory ++ [last] ++ '/' :: name).length - name.reverse.length) =
        directory ++ [last] ++ ['/'] := by
    rw [split, List.length_append, List.length_reverse, Nat.add_sub_cancel, List.take_left]
  rw [directoryText]
  simp only [tail, head]
  rw [if_neg (by simp [differs])]
  simp [Text.trimEnd, differs]

theorem join_of_root (base : Path) {path : Path} (absolute : path.anchor = .root) :
    base.join path = path := by
  rw [join, isAbsolute, absolute]
  rfl

/-- A path of names without null characters can name something. -/
theorem isUnnameable_eq_false {path : Path}
    (nameable : ∀ name ∈ path.segments, Char.ofNat 0 ∉ name) : path.isUnnameable = false := by
  refine List.any_eq_false.mpr fun name member unnameable => ?_
  exact nameable name member (List.elem_iff.mp unnameable)

theorem text_below_concat (first : Text) (names : List Text) (name : Text) :
    (below (first :: names ++ [name])).text = (below (first :: names)).text ++ '/' :: name := by
  rw [text_below, text_below]
  exact Text.join_concat first names name

/-- The last character of a written path of names is none of a slash. -/
theorem exists_last_below {first : Text} (inside : ∀ name ∈ first :: names, IsWritten name) :
    ∃ directory last, (below (first :: names)).text = directory ++ [last] ∧ last ≠ '/' := by
  have ends (front : Text) {name : Text} (isName : IsWritten name) :
      ∃ directory last, front ++ name = directory ++ [last] ∧ last ≠ '/' := by
    obtain ⟨start, last, rfl⟩ := (List.eq_nil_or_concat name).resolve_left isName.1
    exact ⟨front ++ start, last, by simp, fun same => isName.2.2 (by simp [same])⟩
  rcases List.eq_nil_or_concat names with rfl | ⟨names, name, rfl⟩
  · have found := ends [] (inside first (.head _))
    simpa [text_below, Text.join] using found
  · have isName := inside name (by simp)
    have found := ends ((below (first :: names)).text ++ ['/']) isName
    rw [List.concat_eq_append, ← List.cons_append, text_below_concat]
    simpa using found

end Path

namespace Disk

/-- A path from the root that leads to something has no null characters. -/
theorem nameable_of_locate {disk : Disk} {segments : List Text} {found : Entry}
    (located : disk.locate ⟨.root, segments⟩ = .ok found) :
    ∀ name ∈ segments, Char.ofNat 0 ∉ name := by
  intro name member unnameable
  obtain ⟨nameable, -⟩ := locate_eq_ok_iff.mp located
  exact List.any_eq_false.mp nameable name member (List.elem_iff.mpr unnameable)

theorem text_root (segments : List Text) :
    (⟨.root, segments⟩ : Path).text = '/' :: Text.join ['/'] segments := rfl

/-- A path that leads to something goes through a directory. -/
theorem locate_parent {disk : Disk} {segments : List Text} {name : Text} {found : Entry}
    (located : disk.locate ⟨.root, segments ++ [name]⟩ = .ok found) :
    ∃ entries, disk.locate ⟨.root, segments⟩ = .ok (.directory entries) := by
  have shorter : (Utf8.encode (⟨.root, segments⟩ : Path).text).length ≤
      (Utf8.encode (⟨.root, segments ++ [name]⟩ : Path).text).length := by
    refine (Utf8.encode_sublist ?_).length_le
    rw [text_root, text_root]
    cases segments with
    | nil => simp [Text.join]
    | cons first segments =>
        rw [Text.join_concat]
        exact (List.sublist_append_left _ _).cons_cons _
  obtain ⟨-, fits, walked⟩ := locate_eq_ok_iff.mp located
  obtain ⟨entries, walked⟩ := Entry.locate_parent walked
  refine ⟨entries, locate_eq_ok_iff.mpr ⟨?_, ?_, walked⟩⟩
  · apply Path.isUnnameable_eq_false
    intro other member
    exact nameable_of_locate located other (List.mem_append_left _ member)
  · rw [isLongPath, decide_eq_false_iff_not] at fits ⊢
    omega

end Disk

theorem Batch.result_summary {batch : Batch} (sound : batch.fault = none) (edges : List Edge)
    (files : List Text) :
    ((Batch.concat [batch]).append (GraphBuilder.summary edges files)).result =
      .ok batch.edges := by
  simp [Batch.concat, Batch.append, Batch.result, GraphBuilder.summary, sound]

namespace GraphBuilder

variable {builder : GraphBuilder} {disk : Disk} {file : Text} {context : ManifestContext}

/-- The root of the directory of a file is the path of the file without its last name. -/
theorem packageRoot_below {names : List Text} (inside : ∀ name ∈ names, Path.IsWritten name) :
    packageRoot (Path.below names).text = (Path.below names.dropLast).text := by
  rcases List.eq_nil_or_concat names with rfl | ⟨names, file, rfl⟩
  · rfl
  · rw [List.concat_eq_append] at inside ⊢
    have noSlash : '/' ∉ file := (inside file (by simp)).2.2
    rw [packageRoot, List.dropLast_concat]
    cases names with
    | nil =>
        have whole : (Path.below ([] ++ [file])).text = file := by
          simp [Path.text_below, Text.join]
        rw [whole, Path.directoryText_of_noSlash noSlash]
        rfl
    | cons first names =>
        obtain ⟨directory, last, ends, differs⟩ :=
          Path.exists_last_below fun name member => inside name (List.mem_append_left _ member)
        rw [Path.text_below_concat, ends, Path.directoryText_append noSlash differs]
        simp

/--
The batch of a manifest in a directory that exists is that of the first source that describes
it.
-/
theorem batchFor_of_isDirectory (same : builder.context file = context)
    (present : disk.isDirectory context.packageDirectory = .ok true) :
    builder.batchFor disk file = firstBatch disk context builder.sources := by
  subst same
  delta batchFor
  simp only [present]

theorem firstBatch_reader {manifest : Reported Manifest}
    (read : Manifest.read disk context.manifestPath = .ok manifest) :
    firstBatch disk context [.reader] =
      describedBatch
        { result := .ok (EdgeSource.declaredEdges context manifest.value), records :=
          manifest.records }
        (EdgeSource.declaredEdges context manifest.value) := by
  simp only [firstBatch, EdgeSource.reader, read]

theorem build_singleton (relative : builder.relativeFile file = .ok file)
    (sound : (builder.batchFor disk file).fault = none) :
    (builder.build disk [file]).result = .ok (builder.batchFor disk file).edges := by
  have files : [file].mapM builder.relativeFile = .ok [file] := by
    rw [List.mapM_cons, relative]
    rfl
  rw [build]
  simp only [files]
  exact Batch.result_summary sound _ _

end GraphBuilder

namespace Workspace

variable {workspace : Workspace} {project : Project} {names : List Text}

section Files

variable (places : Discovery.Places (discoveryOptions workspace.settings) names project)
include places

theorem root_ne_workspaceRoot (filled : names ≠ []) : project.root ≠ workspaceRoot := by
  intro same
  have read := Path.ofText_below fun name member => (places.inside name member).written
  rw [← places.root_eq, same] at read
  exact filled (congrArg Path.segments read).symm

/-- The manifest file of a project is the manifest's name in the project's directory. -/
theorem manifestFileOf_eq :
    workspace.manifestFileOf project =
      (Path.below (names ++ [workspace.settings.manifestName])).text := by
  have isName := places.manifestName
  rw [manifestFileOf]
  cases names with
  | nil =>
      have root : project.root = workspaceRoot := places.root_eq
      rw [if_pos root]
      simp [Path.text_below, Text.join]
  | cons first names =>
      obtain ⟨directory, last, ends, differs⟩ :=
        Path.exists_last_below fun name member => (places.inside name member).written
      have relative : Text.startsWith workspace.settings.manifestName ['/'] = false := by
        cases written : workspace.settings.manifestName with
        | nil => rfl
        | cons char rest =>
            have differs : '/' ≠ char := fun same => isName.noSlash (by
              rw [discoveryOptions, written, same]
              exact .head _)
            simp [Text.startsWith, List.isPrefixOf, differs]
      have open_end : Text.endsWith (directory ++ [last]) ['/'] = false := by
        simp [Text.endsWith, List.isSuffixOf, List.isPrefixOf, differs.symm]
      rw [if_neg (root_ne_workspaceRoot places (List.cons_ne_nil _ _)), Path.joinText,
        places.root_eq, Path.text_below_concat, ends, relative, open_end]
      simp

theorem written_file :
    ∀ name ∈ names ++ [workspace.settings.manifestName], Path.IsWritten name := by
  intro name member
  have isName : IsEntryName name := by
    rcases List.mem_append.mp member with inside | last
    · exact places.inside name inside
    · rw [List.mem_singleton.mp last]
      exact places.manifestName
  exact isName.written

theorem packageRoot_eq :
    GraphBuilder.packageRoot (workspace.manifestFileOf project) = project.root := by
  rw [manifestFileOf_eq places, GraphBuilder.packageRoot_below (written_file places),
    List.dropLast_concat, places.root_eq]

end Files

/-- What the sources are told about the manifest file of a project. -/
def contextOf (workspace : Workspace) (project : Project) : ManifestContext where
  sourceRoot := project.root
  manifestFile := workspace.manifestFileOf project
  packageDirectory := workspace.root.join (Path.ofText project.root)
  workspace := workspace.root
  index := workspace.index

section Contexts

variable (anchor : workspace.root.anchor = .root)
  (places : Discovery.Places (discoveryOptions workspace.settings) names project)
include anchor places

theorem packageDirectory_contextOf :
    (workspace.contextOf project).packageDirectory = ⟨.root, workspace.root.segments ++ names⟩ := by
  have inside := fun name member => written_file places name (List.mem_append_left _ member)
  rw [contextOf, places.root_eq, Path.ofText_below inside, Path.join, ← anchor]
  rfl

theorem manifestPath_contextOf : (workspace.contextOf project).manifestPath =
    ⟨.root, workspace.root.segments ++ names ++ [workspace.settings.manifestName]⟩ := by
  rw [ManifestContext.manifestPath, contextOf, manifestFileOf_eq places,
    Path.ofText_below (written_file places), Path.join, ← anchor, List.append_assoc]
  rfl

end Contexts

section Graphs

variable {disk : Disk} (surveyed : workspace.Surveyed) (member : project ∈ workspace.index.projects)
include surveyed member

theorem context_eq (normal : IsNormal project.root) (sources : List EdgeSource) :
    GraphBuilder.context ⟨workspace.index, workspace.root, sources⟩
      (workspace.manifestFileOf project) =
      workspace.contextOf project := by
  obtain ⟨names, places⟩ := surveyed.places project member
  have root := ProjectIndex.resolveRoot?_of_mem member normal
  rw [← surveyed.index_eq] at root
  simp only [GraphBuilder.context, packageRoot_eq places, root, contextOf, Option.getD_some]

theorem isDirectory_of_read {manifest : Reported Manifest}
    (read : Manifest.read disk (workspace.contextOf project).manifestPath = .ok manifest) :
    disk.isDirectory (workspace.contextOf project).packageDirectory = .ok true := by
  obtain ⟨names, places⟩ := surveyed.places project member
  obtain ⟨text, readText, -⟩ := Outcome.bind_eq_ok.mp read
  obtain ⟨written, content, -⟩ := Disk.readText_eq_ok_iff.mp readText
  have file := Disk.locate_of_read content
  rw [manifestPath_contextOf surveyed.anchor places] at file
  obtain ⟨entries, located⟩ := Disk.locate_parent file
  rw [packageDirectory_contextOf surveyed.anchor places, Disk.isDirectory, Disk.find?, located]
  rfl

theorem graph_result (normal : IsNormal project.root) {manifest : Reported Manifest}
    (read : Manifest.read disk (workspace.contextOf project).manifestPath = .ok manifest) :
    (workspace.graph disk [.reader] (some [workspace.manifestFileOf project])).result =
      .ok ((EdgeSource.declaredEdges (workspace.contextOf project) manifest.value).filter
        (!·.isLoop)) := by
  obtain ⟨names, places⟩ := surveyed.places project member
  have relative : GraphBuilder.relativeFile ⟨workspace.index, workspace.root, [.reader]⟩
      (workspace.manifestFileOf project) = .ok (workspace.manifestFileOf project) := by
    rw [manifestFileOf_eq places, GraphBuilder.relativeFile,
      Path.ofText_below (written_file places)]
    rfl
  have batch := (GraphBuilder.batchFor_of_isDirectory (context_eq surveyed member normal [.reader])
    (isDirectory_of_read surveyed member read)).trans (GraphBuilder.firstBatch_reader read)
  have built := GraphBuilder.build_singleton relative (by rw [batch]; rfl)
  rw [graph, Option.getD_some, built, batch]
  rfl

end Graphs

end Workspace

end SwiftWorkspace
