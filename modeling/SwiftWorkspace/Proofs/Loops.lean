import SwiftWorkspace.Proofs.Batches
import SwiftWorkspace.Proofs.LocalEdges

/-!
# Edges that point back

An edge is taken for a loop when its two roots are written alike.  Its target is the
root of a project, while its source is written as the manifest is given.  So an edge
that leads from a directory to itself is dropped wherever the manifest is not reached
by going up in a path that is relative to the workspace.
-/

namespace SwiftWorkspace

namespace Path

variable {segments names base : List Text} {name : Text}

/-- The segments of a path that is read are written without slashes. -/
theorem isWritten_of_mem_ofText {text : Text} (member : name ∈ (ofText text).segments) :
    IsWritten name := by
  obtain ⟨part, kept⟩ := List.mem_filter.mp member
  rw [List.splitOn_eq_splitOnP] at part
  have spelled : name ≠ [] ∧ name ≠ here := by simpa using kept
  refine ⟨spelled.1, spelled.2, fun slash => ?_⟩
  have separates := (Text.mem_of_mem_splitOnP part slash).2
  cases separates

theorem eq_append_of_segmentsBelow? (found : segmentsBelow? base segments = some names) :
    segments = base ++ names := by
  fun_induction segmentsBelow? base segments with
  | case1 segments => exact Option.some.inj found
  | case2 => cases found
  | case3 first base segments ih => rw [List.cons_append, ← ih found]
  | case4 => cases found

end Path

namespace ProjectIndex

/-- The roots of an index are those of its projects, in normal form. -/
theorem exists_project_of_mem_roots {projects : List Project} {root : Text}
    (member : root ∈ (ofProjects projects).roots) : ∃ project ∈ projects, project.key = root := by
  obtain ⟨entry, inside, rfl⟩ := List.mem_map.mp member
  suffices steps : ∀ table : Table Project, entry ∈ projects.foldl claimRoot table →
      entry ∈ table ∨ ∃ project ∈ projects, project.key = entry.1 from
    (steps [] inside).resolve_left (by simp)
  clear member inside
  induction projects with
  | nil => exact fun table held => .inl held
  | cons project projects ih =>
      intro table held
      rcases ih _ held with before | ⟨other, among, same⟩
      · rw [claimRoot, Table.insertNew] at before
        split at before
        · exact .inl before
        · rcases List.mem_append.mp before with before | here
          · exact .inl before
          · exact .inr ⟨project, .head _, by rw [List.mem_singleton.mp here]⟩
      · exact .inr ⟨other, .tail _ among, same⟩

end ProjectIndex

namespace GraphBuilder

/--
Whether a manifest is given by a path into the workspace that is read as it is written:
a path relative to the workspace that does not go up, or one from the root.
-/
inductive IsStraight (workspace : Path) (manifest : Text) : Prop
  | relative (relative : (Path.ofText manifest).isAbsolute = false)
      (plain : Path.up ∉ (Path.ofText manifest).segments)
  | absolute (absolute : (Path.ofText manifest).isAbsolute)
      (inside : ((Path.ofText manifest).collapsed.relativeTo? workspace).isSome)

variable {builder : GraphBuilder} {manifest file : Text}

/-- A straight manifest is placed at the end of some names, none of which leads up. -/
theorem IsStraight.exists_below (straight : IsStraight builder.workspace manifest)
    (placed : builder.relativeFile manifest = .ok file) :
    ∃ names, file = (Path.below names).text ∧ (∀ name ∈ names, Path.IsWritten name) ∧
      Path.up ∉ names := by
  have written : ∀ name ∈ (Path.ofText manifest).segments, Path.IsWritten name :=
    fun name => Path.isWritten_of_mem_ofText
  rw [relativeFile] at placed
  cases straight with
  | relative relative plain =>
      have anchor : (Path.ofText manifest).anchor = .relative := by
        simpa [Path.isAbsolute] using relative
      have same : Path.ofText manifest = Path.below (Path.ofText manifest).segments := by
        rw [Path.below, ← anchor]
      simp only [relative, Bool.not_false, if_true] at placed
      exact ⟨_, by rw [← same, Except.ok.inj placed], written, plain⟩
  | absolute absolute inside =>
      obtain ⟨relative, below⟩ := Option.isSome_iff_exists.mp inside
      simp only [absolute, Bool.not_true, Bool.false_eq_true, if_false, below,
        Option.getD_some] at placed
      split at placed
      · cases placed
      · rw [Path.relativeTo?, Option.ite_none_right_eq_some] at below
        obtain ⟨-, below⟩ := below
        obtain ⟨names, rest, rfl⟩ := Option.map_eq_some_iff.mp below
        have collapsed : Path.collapse (Path.ofText manifest).segments =
            builder.workspace.segments ++ names :=
          Path.eq_append_of_segmentsBelow? rest
        have among (name : Text) (member : name ∈ names) :
            name ∈ Path.collapse (Path.ofText manifest).segments := by
          rw [collapsed]
          exact List.mem_append_right _ member
        exact ⟨names, (Except.ok.inj placed).symm,
          fun name member => written name (Path.mem_of_mem_collapse (among name member)),
          fun member => Path.up_not_mem_collapse _ (among _ member)⟩

/-- The source of all edges of a manifest is the root of its directory in normal form. -/
theorem sourceRoot_context :
    (builder.context file).sourceRoot = Project.normalizeRoot (packageRoot file) := by
  change (builder.index.resolveRoot? (packageRoot file)).getD
    (Project.normalizeRoot (packageRoot file)) = _
  rw [ProjectIndex.resolveRoot?]
  split
  · rw [Option.getD_some]
  · rw [Option.getD_none]

end GraphBuilder

namespace Workspace

variable {workspace : Workspace} {project : Project} {names : List Text}

def directoryOf (workspace : Workspace) (root : Text) : Path :=
  (workspace.root.join (Path.ofText root)).collapsed

structure LeadsAway (workspace : Workspace) (edge : Edge) : Prop where
  known : ∃ project ∈ workspace.index.projects, project.key = edge.target
  source : ∀ project ∈ workspace.index.projects,
    workspace.directoryOf project.root = workspace.directoryOf
      (GraphBuilder.packageRoot edge.manifestFile) →
      edge.source = project.key
  target : ∀ project ∈ workspace.index.projects, project.key = edge.target →
    workspace.directoryOf project.root ≠
      workspace.directoryOf (GraphBuilder.packageRoot edge.manifestFile)
  apart : Project.normalizeRoot (GraphBuilder.packageRoot edge.manifestFile) =
      GraphBuilder.packageRoot edge.manifestFile →
    ∀ project ∈ workspace.index.projects, project.root = edge.target →
      workspace.directoryOf edge.source ≠ workspace.directoryOf edge.target

section Directories

variable (surveyed : workspace.Surveyed)
include surveyed

theorem directoryOf_below (inside : ∀ name ∈ names, Path.IsWritten name) (plain : Path.up ∉ names) :
    workspace.directoryOf (Path.below names).text = ⟨.root, workspace.root.segments ++ names⟩ := by
  have together : Path.up ∉ workspace.root.segments ++ names := fun member =>
    (List.mem_append.mp member).elim surveyed.plain plain
  rw [directoryOf, Path.ofText_below inside, Path.collapsed]
  exact congrArg _ (Path.collapse_of_plain together)

theorem root_eq_of_directoryOf (member : project ∈ workspace.index.projects)
    (inside : ∀ name ∈ names, Path.IsWritten name) (plain : Path.up ∉ names)
    (same : workspace.directoryOf project.root = workspace.directoryOf (Path.below names).text) :
    project.root = (Path.below names).text := by
  obtain ⟨way, places⟩ := surveyed.places project member
  have notUp : Path.up ∉ way := fun member => (places.inside _ member).notUp rfl
  rw [places.root_eq, directoryOf_below surveyed
    (fun name member => (places.inside name member).written) notUp,
    directoryOf_below surveyed inside plain] at same
  rw [places.root_eq, List.append_cancel_left (congrArg Path.segments same)]

/-- An edge that is no loop leads away, where the manifest file lies at the end of some names. -/
theorem leadsAway_of_leads {sources : List EdgeSource} {edge : Edge}
    (leads : EdgeSource.Leads
      (GraphBuilder.context ⟨workspace.index, workspace.root, sources⟩ edge.manifestFile) edge)
    (noLoop : edge.isLoop = false) (file : edge.manifestFile = (Path.below names).text)
    (inside : ∀ name ∈ names, Path.IsWritten name) (plain : Path.up ∉ names) :
    workspace.LeadsAway edge := by
  have source : edge.source = Project.normalizeRoot (GraphBuilder.packageRoot edge.manifestFile) :=
    leads.source.trans GraphBuilder.sourceRoot_context
  have differs : edge.source ≠ edge.target := by
    intro same
    simp [Edge.isLoop, same] at noLoop
  have home {project : Project} (member : project ∈ workspace.index.projects)
      (same : workspace.directoryOf project.root =
        workspace.directoryOf (GraphBuilder.packageRoot edge.manifestFile)) :
      project.root = GraphBuilder.packageRoot edge.manifestFile := by
    rw [file, GraphBuilder.packageRoot_below inside] at same ⊢
    exact root_eq_of_directoryOf surveyed member
      (fun name among => inside name (List.dropLast_subset _ among))
      (fun among => plain (List.dropLast_subset _ among)) same
  refine ⟨?_, ?_, ?_, ?_⟩
  · have target : edge.target ∈ workspace.index.roots := leads.target
    rw [surveyed.index_eq] at target
    exact ProjectIndex.exists_project_of_mem_roots target
  · intro project member same
    rw [source, ← home member same, Project.key]
  · intro project member key same
    exact differs (by rw [source, ← home member same, ← key, Project.key])
  · intro normal project member root same
    rw [source, normal, ← root] at same
    exact differs (by rw [source, normal, ← home member same.symm, root])

end Directories

/--
In a workspace whose projects are discovered every edge leads away from the directory of
its manifest, whatever its sources say and however its manifests are spelled, unless one of
them goes up in a path that is relative to the workspace.
-/
theorem edges_lead_away {reader : DocumentReader} {disk : Disk} (named : disk.root.IsNamed)
    {directory : Path} {given : Option Settings} {found : Reported Workspace}
    (discovered : discover reader disk directory given = .ok found)
    {sources : List EdgeSource} (known : ∀ source ∈ sources,
      source = .reader ∨ ∃ toolchain levels command timeout, source =
        .dump toolchain levels command timeout)
    {manifests : List Text} (straight : ∀ manifest ∈ manifests,
      GraphBuilder.IsStraight found.value.root manifest)
    {workers : Int} {edges : List Edge} (yields : GraphBuilder.Yields
      ⟨found.value.index, found.value.root, sources⟩ disk workers manifests (.ok edges)) :
    ∀ edge ∈ edges, found.value.LeadsAway edge := by
  intro edge member
  have surveyed := surveyed_of_discover named discovered
  obtain ⟨leads, noLoop, manifest, among, placed⟩ :=
    GraphBuilder.leads_of_yields surveyed.index_eq known yields member
  obtain ⟨names, file, inside, plain⟩ := (straight manifest among).exists_below placed
  exact leadsAway_of_leads surveyed leads noLoop file inside plain

open EditCall (neighbors)

/-- A builder whose tool names both neighbors for every package. -/
def describing : GraphBuilder where
  index := pair.index
  workspace := pair.root
  sources := [.dump
    (fun _ _ _ => .answer <| CodePoints.ofText
      "\x7b\"targets\":[\x7b\"dependencies\":[\x7b\"byName\":[\"a\"]\x7d,\x7b\"byName\":[\"b\"]\x7d]\x7d]\x7d".toList)
    9 ["swift".toList] none]

/-- Of a manifest that is given in two ways, both edges lead to the neighbor. -/
theorem edges_lead_away_pair :
    ∃ edges, describing.Yields neighbors 2
      ["a/Package.swift".toList, "/b/..//a/./Package.swift".toList] (.ok edges) ∧
      edges.map Edge.target = [['b'], ['b']] ∧ ∀ edge ∈ edges, pair.LeadsAway edge := by
  obtain ⟨records, discovered⟩ := exists_discover_pair
  have built : describing.Yields neighbors 2
      ["a/Package.swift".toList, "/b/..//a/./Package.swift".toList]
      (.ok [⟨['a'], ['b'], "a/Package.swift".toList⟩,
        ⟨['a'], ['b'], "a/Package.swift".toList⟩]) := by
    exact GraphBuilder.yields_iff_build.mpr (by decide +kernel)
  have straight : ∀ manifest ∈ ["a/Package.swift".toList, "/b/..//a/./Package.swift".toList],
      GraphBuilder.IsStraight pair.root manifest := by
    intro manifest member
    rcases List.mem_cons.mp member with rfl | member
    · exact .relative (by decide) (by decide)
    · obtain rfl := List.mem_singleton.mp member
      exact .absolute (by decide) (by decide)
  refine ⟨_, built, rfl, edges_lead_away isNamed_neighbors discovered ?_ straight built⟩
  intro source member
  obtain rfl := List.mem_singleton.mp member
  exact .inr ⟨_, _, _, _, rfl⟩

/--
A manifest that is reached by going up is given another root than its project, and its loop is
kept.
-/
example : (describing.build neighbors ["b/../a/Package.swift".toList]).edges.map Edge.source =
    ["b/../a".toList, "b/../a".toList] := by
  decide +kernel

end Workspace

end SwiftWorkspace
