import SwiftWorkspace.Graph.Source
import SwiftWorkspace.Outcome
import SwiftWorkspace.Proofs.Ways

/-!
# The roots that edges lead to

Whatever a manifest declares by a path or a name is looked up in the index, and the
index answers with roots of its projects only.  So no edge leads elsewhere.
-/

namespace SwiftWorkspace

namespace ProjectIndex

variable {projects : List Project}

theorem key_mem_roots {project : Project} (member : project ∈ projects) :
    project.key ∈ (ofProjects projects).roots := by
  obtain ⟨entry, inside, same⟩ := List.lookup_isSome_iff.mp (lookup_foldl_claimRoot member [])
  exact List.mem_map.mpr ⟨entry, inside, (eq_of_beq same).symm⟩

def LeadsTo (roots : List Text) (table : Table Text) : Prop := ∀ entry ∈ table, entry.2 ∈ roots

theorem LeadsTo.insertNew {roots : List Text} {table : Table Text}
    (leads : LeadsTo roots table) (key : Text)
    {root : Text} (inside : root ∈ roots) : LeadsTo roots (table.insertNew key root) := by
  rw [Table.insertNew]
  split
  · exact leads
  · intro entry member
    rcases List.mem_append.mp member with old | new
    · exact leads entry old
    · rw [List.mem_singleton.mp new]
      exact inside

/--
A step that adds at most a project's root leads to the roots of the projects, and so does a run
of it.
-/
theorem LeadsTo.foldl {claim : Table Text → Project → Table Text} {roots : List Text}
    (step : ∀ table project, project.key ∈ roots → LeadsTo roots table →
      LeadsTo roots (claim table project))
    (inside : ∀ project ∈ projects, project.key ∈ roots) {table : Table Text}
    (leads : LeadsTo roots table) : LeadsTo roots (projects.foldl claim table) := by
  induction projects generalizing table with
  | nil => exact leads
  | cons project projects ih =>
      exact ih (fun other member => inside other (.tail _ member))
        (step table project (inside project (.head _)) leads)

theorem leadsTo_byName (projects : List Project) :
    LeadsTo (ofProjects projects).roots (ofProjects projects).byName := by
  have inside : ∀ project ∈ projects, project.key ∈ (ofProjects projects).roots :=
    fun _ => key_mem_roots
  refine LeadsTo.foldl ?_ inside (LeadsTo.foldl ?_ inside fun entry member => by cases member)
  · intro table project held leads
    rw [claimBasename]
    split
    · exact leads
    · exact leads.insertNew _ held
  · intro table project held leads
    rw [claimName]
    split
    · exact leads
    · exact leads.insertNew _ held

theorem mem_roots_of_resolveName? {name root : Text}
    (resolved : (ofProjects projects).resolveName? name = some root) :
    root ∈ (ofProjects projects).roots := by
  obtain ⟨before, after, split, -⟩ := List.lookup_eq_some_iff.mp resolved
  exact leadsTo_byName projects (name, root) (by rw [split]; simp)

theorem mem_roots_of_resolveRoot? {index : ProjectIndex} {written root : Text}
    (resolved : index.resolveRoot? written = some root) : root ∈ index.roots := by
  rw [resolveRoot?, Option.ite_none_right_eq_some] at resolved
  obtain ⟨held, same⟩ := resolved
  obtain ⟨entry, inside, key⟩ := List.lookup_isSome_iff.mp held
  rw [← Option.some.inj same, eq_of_beq key]
  exact List.mem_map_of_mem inside

theorem mem_roots_of_resolvePath? {index : ProjectIndex} {workspace path : Path} {root : Text}
    (resolved : index.resolvePath? workspace path = some root) : root ∈ index.roots := by
  rw [resolvePath?] at resolved
  split at resolved
  · cases resolved
  · obtain ⟨relative, -, found⟩ := Option.bind_eq_some_iff.mp resolved
    exact mem_roots_of_resolveRoot? found

theorem mem_roots_of_resolveGiven? {index : ProjectIndex} {workspace : Path}
    {path : GivenPath} {root : Text}
    (resolved : index.resolveGiven? workspace path = some root) : root ∈ index.roots := by
  rw [resolveGiven?] at resolved
  split at resolved
  · cases resolved
  · obtain ⟨found, -, resolved⟩ := Option.bind_eq_some_iff.mp resolved
    obtain ⟨relative, -, resolved⟩ := Option.bind_eq_some_iff.mp resolved
    exact mem_roots_of_resolveRoot? resolved

end ProjectIndex

namespace EdgeSource

variable {disk : Disk} {context : ManifestContext} {attempt : Attempt}
    {edges : List Edge} {edge : Edge}

structure Leads (context : ManifestContext) (edge : Edge) : Prop where
  source : edge.source = context.sourceRoot
  target : edge.target ∈ context.index.roots
  manifestFile : edge.manifestFile = context.manifestFile

theorem leads_of_edgeToPath? {path : Text} (found : context.edgeToPath? path = some edge) :
    Leads context edge := by
  obtain ⟨root, resolved, rfl⟩ := Option.map_eq_some_iff.mp found
  exact ⟨rfl, ProjectIndex.mem_roots_of_resolvePath? resolved, rfl⟩

theorem leads_of_edgeToGiven? {path : CodePoints} (found : context.edgeToGiven? path = some edge) :
    Leads context edge := by
  obtain ⟨root, resolved, rfl⟩ := Option.map_eq_some_iff.mp found
  exact ⟨rfl, ProjectIndex.mem_roots_of_resolveGiven? resolved, rfl⟩

theorem leads_of_edgeToName? {projects : List Project} (same : context.index = .ofProjects projects)
    {name : CodePoints} (found : context.edgeToName? name = some edge) : Leads context edge := by
  obtain ⟨root, resolved, rfl⟩ := Option.map_eq_some_iff.mp found
  obtain ⟨name, -, resolved⟩ := Option.bind_eq_some_iff.mp resolved
  refine ⟨rfl, ?_, rfl⟩
  rw [same] at resolved ⊢
  exact ProjectIndex.mem_roots_of_resolveName? resolved

theorem leads_of_reader (told : reader.describe disk context = .ok attempt)
    (described : attempt.result = .ok edges) (member : edge ∈ edges) : Leads context edge := by
  simp only [reader] at told
  split at told
  · injection told with told
    subst told
    injection described with described
    subst described
    obtain ⟨dependency, -, found⟩ := List.mem_filterMap.mp member
    obtain ⟨path, -, found⟩ := Option.bind_eq_some_iff.mp found
    exact leads_of_edgeToPath? found
  · split at told
    · cases told
    · injection told with told
      subst told
      cases described

/-- The edges of a description of a package are to paths and to names. -/
theorem leads_of_describedEdges {projects : List Project}
    (same : context.index = .ofProjects projects)
    {description : JsonValue} (member : edge ∈ describedEdges context description) :
    Leads context edge := by
  rcases List.mem_append.mp member with member | member
  · obtain ⟨entry, -, member⟩ := List.mem_flatMap.mp member
    obtain ⟨package, -, found⟩ := List.mem_filterMap.mp member
    obtain ⟨path, -, found⟩ := Option.bind_eq_some_iff.mp found
    split at found
    · cases found
    · exact leads_of_edgeToGiven? found
  · obtain ⟨target, -, member⟩ := List.mem_flatMap.mp member
    obtain ⟨reference, -, found⟩ := List.mem_filterMap.mp member
    obtain ⟨first, -, found⟩ := Option.bind_eq_some_iff.mp found
    obtain ⟨name, -, found⟩ := Option.bind_eq_some_iff.mp found
    exact leads_of_edgeToName? same found

theorem edgesOfAnswer_eq_ok {levels : Nat} {answer : CodePoints}
    (answered : edgesOfAnswer levels context answer = .ok (.ok edges)) :
    ∃ description, JsonValue.ofPoints levels answer = .ok description ∧
      description.isObject = true ∧
      edges = describedEdges context description := by
  rw [edgesOfAnswer] at answered
  split at answered
  · cases answered
  · cases answered
  · rename_i description read
    split at answered
    · rename_i object
      exact ⟨description, read, object, (Except.ok.inj (Except.ok.inj answered)).symm⟩
    · cases answered

theorem leads_of_dump {projects : List Project} (same : context.index = .ofProjects projects)
    {toolchain : Toolchain} {levels : Nat} {command : List Text} {timeout : Option Float}
    (told : (dump toolchain levels command timeout).describe disk context = .ok attempt)
    (described : attempt.result = .ok edges) (member : edge ∈ edges) : Leads context edge := by
  simp only [dump] at told
  split at told
  · obtain ⟨result, answered, told⟩ := Outcome.bind_eq_ok.mp told
    obtain rfl := Except.ok.inj told
    obtain rfl : result = .ok edges := described
    obtain ⟨description, -, -, rfl⟩ := edgesOfAnswer_eq_ok answered
    exact leads_of_describedEdges same member
  · obtain rfl := Except.ok.inj told
    cases described
  · cases told

end EdgeSource

end SwiftWorkspace
