import SwiftWorkspace.Proofs.Graphs
import SwiftWorkspace.Proofs.Insertion
import SwiftWorkspace.Proofs.OneLine

/-!
# Edges of local dependencies

When one project of a workspace is added to another one as a dependency, the graph
over the manifest of the other one has one more edge, and that edge leads to the
project that was added.
-/

namespace SwiftWorkspace

open RelativePath (IsNormal)

namespace Source

/-- Where inserting a dependency succeeds its declaration is read behind the others. -/
theorem Tidy.dependencies_of_insert {source : Source}
    (tidy : source.Tidy) {dependency declared : Dependency}
    {piece : List Cell} (written : dependency.Written piece declared) {targets : Option (List Text)}
    {product : Option Text} {result : Text}
    (noFeed : '\n' ∉ (filled? product).getD (Reference.canonicalName dependency.name))
    (inserted : Edit.insert source.text dependency targets product = .ok result) :
    (Manifest.ofText result).dependencies =
      (Manifest.ofText source.text).dependencies ++ [declared] := by
  obtain ⟨new, rfl, -, outcome⟩ := tidy.inserted_of_ok written noFeed inserted
  rw [outcome.manifest]
  rfl

end Source

namespace Dependency

variable {way : Text} {dependency : Dependency}

theorem fields_of_path (made : ofFields? { path := some way } = some dependency) :
    dependency.toDependencyFields = { name := Reference.canonicalName way, path := some way } ∧
      way ≠ [] := by
  rw [ofFields?] at made
  split at made
  · rename_i addressed
    have filled : way ≠ [] := by
      rintro rfl
      exact absurd addressed (by decide : ¬ DependencyFields.isAddressed { path := some [] } = true)
    have empty : filled? none = none := rfl
    obtain rfl := Option.some.inj made
    refine ⟨?_, filled⟩
    simp [DependencyFields.named, DependencyFields.address, filled?_of_filled filled, empty]
  · cases made

theorem onLine_declaration (line : way.OnLine)
    (fields : dependency.toDependencyFields =
      { name := Reference.canonicalName way, path := some way })
    (filled : way ≠ []) : Text.OnLine dependency.declaration := by
  have front : Text.OnLine ".package(path: ".toList := by
    unfold Text.OnLine
    exact Text.forall_mem_of_all (by decide)
  rw [declaration, fields]
  simp only [filled?_of_filled filled]
  intro char member
  rcases List.mem_append.mp member with before | last
  · rcases List.mem_append.mp before with first | literal
    · exact front char first
    · exact line.encode char literal
  · rw [List.mem_singleton.mp last]
    decide

theorem linear_of_path (line : way.OnLine)
    (fields : dependency.toDependencyFields =
      { name := Reference.canonicalName way, path := some way }) :
    dependency.Linear := by
  have noFeed : '\n' ∉ way := fun member => (line _ member).1 rfl
  refine ⟨?_, ?_, ?_, ?_, ?_, ?_⟩ <;> rw [fields]
  · exact Reference.noFeed_canonicalName noFeed
  · simp
  · simpa using noFeed
  · simp
  · simp
  · simp

end Dependency

/-- Inserting a dependency that is written on one line brings no carriage return into a text. -/
theorem Edit.noReturn_insert {text new : Text} {dependency : Dependency}
    {targets : Option (List Text)}
    {product : Option Text} (declaration : Text.OnLine dependency.declaration)
    (referred : Text.OnLine ((filled? product).getD (Reference.canonicalName dependency.name)))
    (inserted : Edit.insert text dependency targets product = .ok new) (noReturn : '\r' ∉ text) :
    '\r' ∉ new := by
  have grows : Edit.Grows (· ≠ '\r') text new :=
    Edit.grows_insert (Text.forall_mem_of_all (by decide))
      (fun char member => (declaration char member).2)
      (fun char member => (referred.encode char member).2) inserted
  intro member
  rcases grows.mem member with old | fresh
  · exact noReturn old
  · exact fresh rfl

theorem Manifest.read_of_readText {disk : Disk} {path : Path} {text : Text}
    (read : disk.readText path = .ok text) :
    ∃ found, Manifest.read disk path = .ok found ∧ found.value = Manifest.ofText text :=
  ⟨_, Outcome.bind_eq_ok.mpr ⟨text, read, rfl⟩, rfl⟩

theorem EdgeSource.declaredEdges_concat {context : ManifestContext} {old new : Manifest}
    {declared : Dependency}
    {way : Text} {edge : Edge} (declarations : new.dependencies = old.dependencies ++ [declared])
    (path : filled? declared.path = some way) (leads : context.edgeToPath? way = some edge) :
    declaredEdges context new = declaredEdges context old ++ [edge] := by
  simp [declaredEdges, declarations, path, leads]

namespace Workspace

variable {workspace : Workspace} {disk after : Disk} {owner target : Project} {reference : Text}
  {targets : Option (List Text)} {product version : Option Text} {added : Reported Dependency}

structure LocalAddition (workspace : Workspace) (disk : Disk) (owner target : Project)
    (targets : Option (List Text)) (product : Option Text) where
  path : Path
  dependency : Dependency
  old : Text
  new : Text
  path_eq : workspace.manifestPath disk owner.root = .ok path
  made : Dependency.ofFields? { path := some (RelativePath.between owner.root target.root) } =
    some dependency
  text_eq : disk.readText path = .ok old
  insert_eq : Edit.insert old dependency targets
    ((filled? product).or (filled? (some target.name))) = .ok new

/-- The disk with the new text of the manifest. -/
def LocalAddition.result (addition : LocalAddition workspace disk owner target targets product) :
    Disk :=
  disk.writeText addition.path addition.new

theorem exists_localAddition (meant : workspace.project owner.root = .ok owner)
    (resolved : workspace.project reference = .ok target)
    (succeeds : workspace.addDependency disk owner.root
      { version := version, localProject := some reference, targets :=
        targets, product := product } =
        .ok (after, added)) :
    reference ≠ [] ∧
      ∃ addition : LocalAddition workspace disk owner target targets product, after =
        addition.result := by
  obtain ⟨change, planned, done⟩ := Outcome.map_eq_ok.mp succeeds
  obtain ⟨addition⟩ := exists_addition planned
  obtain ⟨address, holder, fields, given, text, address_eq, owner_eq, path_eq, fields_eq,
      outcome_eq, text_eq,
    insert_eq⟩ := addition
  obtain rfl := Except.ok.inj (owner_eq.symm.trans meant)
  obtain ⟨rfl, filled⟩ : address = .localProject reference ∧ reference ≠ [] := by
    have noUrl : filled? none = none := rfl
    cases filled : filled? (some reference) with
    | none => simp [DependencyRequest.address, noUrl, filled] at address_eq
    | some given =>
        obtain ⟨same, filled_given⟩ := Dependency.mem_of_filled? filled
        obtain rfl : reference = given := by simpa using same
        exact ⟨by simpa [DependencyRequest.address, noUrl, filled,
          eq_comm] using address_eq, filled_given⟩
  rw [newDependency, resolved] at fields_eq
  obtain ⟨rfl, rfl⟩ := Prod.mk.inj (Except.ok.inj fields_eq)
  exact ⟨filled, ⟨change.path, change.outcome, text, change.text, path_eq, outcome_eq,
    text_eq, insert_eq⟩, (congrArg Prod.fst done).symm⟩

theorem eq_of_manifestPath {path : Path} (meant : workspace.project owner.root = .ok owner)
    (found : workspace.manifestPath disk owner.root = .ok path) :
    path = (workspace.contextOf owner).manifestPath := by
  have file : workspace.manifestFile owner.root = .ok (workspace.manifestFileOf owner) := by
    rw [manifestFile, meant]
    rfl
  rw [manifestPath_eq, file] at found
  obtain ⟨_, same, found⟩ := Outcome.bind_eq_ok.mp found
  obtain rfl := Except.ok.inj same
  obtain ⟨present, -, found⟩ := Outcome.bind_eq_ok.mp found
  split at found
  · exact (Except.ok.inj found).symm
  · cases found

theorem edgeToPath?_between (surveyed : workspace.Surveyed)
    (owner_member : owner ∈ workspace.index.projects)
    (target_member : target ∈ workspace.index.projects) (owner_normal : IsNormal owner.root)
    (target_normal : IsNormal target.root) {found : Entry}
    (located : disk.locate (workspace.contextOf owner).manifestPath = .ok found) :
    (workspace.contextOf owner).edgeToPath? (RelativePath.between owner.root target.root) =
      some ⟨owner.root, target.root, workspace.manifestFileOf owner⟩ := by
  obtain ⟨start, owner_places⟩ := surveyed.places owner owner_member
  obtain ⟨names, target_places⟩ := surveyed.places target target_member
  rw [manifestPath_contextOf surveyed.anchor owner_places] at located
  have nameable := fun name member => Disk.nameable_of_locate located name
    (List.mem_append_left _ (List.mem_append_left _ member))
  have root : workspace.root = ⟨.root, workspace.root.segments⟩ := by
    rw [← surveyed.anchor]
  rw [owner_places.root_eq] at owner_normal
  have resolved := ProjectIndex.resolvePath?_between target_member
    target_places.root_eq target_normal
    surveyed.plain owner_places.inside target_places.inside owner_normal nameable
  rw [← packageDirectory_contextOf surveyed.anchor owner_places, ← root, ← surveyed.index_eq,
    ← owner_places.root_eq] at resolved
  rw [ManifestContext.edgeToPath?]
  exact congrArg (Option.map _) resolved

theorem onLine_reference {name fallback : Text} (line : Text.OnLine ((filled? product).getD name))
    (fallback_line : fallback.OnLine) :
    Text.OnLine ((filled? ((filled? product).or (filled? (some name)))).getD fallback) := by
  have twice (value : Option Text) : filled? (filled? value) = filled? value := by
    rw [filled?, filled?, Option.filter_filter]
    simp
  cases given : filled? product with
  | some reference =>
      rw [given, Option.getD_some] at line
      rwa [Option.some_or, ← given, twice, given, Option.getD_some]
  | none =>
      rw [given, Option.getD_none] at line
      rw [Option.none_or, twice]
      cases named : filled? (some name) with
      | some reference =>
          obtain rfl : name = reference := by simpa using (Dependency.mem_of_filled? named).1
          exact line
      | none => exact fallback_line

namespace LocalAddition

variable (addition : LocalAddition workspace disk owner target targets product)
  (root : target.root.OnLine) (line : Text.OnLine ((filled? product).getD target.name))
include root line

theorem onLine_referred :
    Text.OnLine ((filled? ((filled? product).or (filled? (some target.name)))).getD
    (Reference.canonicalName addition.dependency.name)) := by
  refine onLine_reference line (Reference.onLine_canonicalName ?_)
  rw [(Dependency.fields_of_path addition.made).1]
  exact Reference.onLine_canonicalName (RelativePath.onLine_between root)

/-- No carriage return gets into the manifest. -/
theorem noReturn : '\r' ∉ addition.new := by
  obtain ⟨fields, filled⟩ := Dependency.fields_of_path addition.made
  have declaration := Dependency.onLine_declaration (RelativePath.onLine_between root) fields filled
  obtain ⟨written, -, same⟩ := Disk.readText_eq_ok_iff.mp addition.text_eq
  refine Edit.noReturn_insert declaration (onLine_referred addition root line) addition.insert_eq ?_
  rw [same]
  exact Text.noReturn_withLineFeeds _

theorem readText_after : addition.result.readText addition.path = .ok addition.new :=
  Disk.readText_writeText rfl addition.text_eq (noReturn addition root line)

/-- What is inserted into the manifest is the way to the project. -/
theorem exists_inserted {source : Source} (tidy : source.Tidy) (same : addition.old = source.text) :
    ∃ (new : Source) (declared : Dependency), addition.new = new.text ∧
      source.Takes (Edit.selectTargets targets (Edit.ordinaryTargets source.text)) ∧
      source.Inserted new (Edit.selectTargets targets (Edit.ordinaryTargets source.text))
        ((filled? ((filled? product).or (filled? (some target.name)))).getD
          (Reference.canonicalName addition.dependency.name)) declared ∧
      declared.url = none ∧ declared.path = some (RelativePath.between owner.root target.root) ∧
      declared.name = Reference.canonicalName (RelativePath.between owner.root target.root) := by
  obtain ⟨fields, filled⟩ := Dependency.fields_of_path addition.made
  have linear := Dependency.linear_of_path (RelativePath.onLine_between root) fields
  have path : filled? addition.dependency.path =
      some (RelativePath.between owner.root target.root) := by
    rw [fields]
    exact Dependency.filled?_of_filled filled
  have url : filled? addition.dependency.url = none := by
    rw [fields]
    rfl
  obtain ⟨piece, declared, written⟩ := Dependency.written_local linear path
  have noFeed := fun member => (onLine_referred addition root line _ member).1 rfl
  obtain ⟨new, text, takes, inserted⟩ :=
    tidy.inserted_of_ok written noFeed (same ▸ addition.insert_eq)
  refine ⟨new, declared, text, takes, inserted, written.url.trans url, written.path.trans path, ?_⟩
  simp [written.name, DependencyFields.address, url, path]

theorem exists_declared (plain : Plain addition.old) : ∃ declared,
    (Manifest.ofText addition.new).dependencies =
      (Manifest.ofText addition.old).dependencies ++ [declared] ∧
      filled? declared.path = some (RelativePath.between owner.root target.root) := by
  obtain ⟨source, tidy, same⟩ := plain.exists_tidy
  obtain ⟨new, declared, text, -, inserted, -, path, -⟩ :=
    exists_inserted addition root line tidy same
  refine ⟨declared, ?_, ?_⟩
  · rw [text, inserted.manifest, same]
    rfl
  · rw [path]
    exact Dependency.filled?_of_filled (Dependency.fields_of_path addition.made).2

end LocalAddition

/--
When a discovered project is added to another one, whose manifest is plain, the graph over
that manifest has the edges that it had before and one more: from the one project to the
other.  Both roots are in normal form and differ by more than case; the root of the added
project and what targets refer to it by have no line feeds and carriage returns.
-/
theorem graph_of_local_addition {reader : DocumentReader} {seen : Disk} (named : seen.root.IsNamed)
    {directory : Path} {given : Option Settings} {found : Reported Workspace}
    (discovered : discover reader seen directory given = .ok found)
    (owner_member : owner ∈ found.value.index.projects)
    (target_member : target ∈ found.value.index.projects)
    (owner_normal : IsNormal owner.root) (target_normal : IsNormal target.root)
    (apart : owner.root.fold ≠ target.root.fold) (root : target.root.OnLine)
    (line : Text.OnLine ((filled? product).getD target.name))
    (meant : found.value.project owner.root = .ok owner)
    (resolved : found.value.project reference = .ok target)
    (plain : ∀ path text, found.value.manifestPath disk owner.root = .ok path →
      disk.readText path = .ok text →
      Plain text)
    (succeeds : found.value.addDependency disk owner.root
      { version := version, localProject := some reference, targets :=
        targets, product := product } =
        .ok (after, added)) :
    ∃ edges, (found.value.graph disk [.reader] (some [found.value.manifestFileOf owner])).result =
      .ok edges ∧
      (found.value.graph after [.reader] (some [found.value.manifestFileOf owner])).result =
        .ok (edges ++ [⟨owner.root, target.root, found.value.manifestFileOf owner⟩]) := by
  have surveyed := surveyed_of_discover named discovered
  obtain ⟨-, addition, rfl⟩ := exists_localAddition meant resolved succeeds
  obtain ⟨declared, declarations, way⟩ := addition.exists_declared root line
    (plain addition.path addition.old addition.path_eq addition.text_eq)
  have place := eq_of_manifestPath meant addition.path_eq
  obtain ⟨before, read_before, before_eq⟩ := Manifest.read_of_readText addition.text_eq
  obtain ⟨behind, read_behind, behind_eq⟩ :=
    Manifest.read_of_readText (addition.readText_after root line)
  obtain ⟨written, content, -⟩ := Disk.readText_eq_ok_iff.mp addition.text_eq
  have leads := edgeToPath?_between surveyed owner_member target_member owner_normal target_normal
    (place ▸ Disk.locate_of_read content)
  rw [place] at read_before read_behind
  rw [← before_eq, ← behind_eq] at declarations
  refine ⟨_, graph_result surveyed owner_member owner_normal read_before, ?_⟩
  rw [graph_result surveyed owner_member owner_normal read_behind,
    EdgeSource.declaredEdges_concat declarations way leads, List.filter_append]
  simp [Edge.isLoop, apart]

open EditCall (neighbors bareSurroundings)

theorem isNamed_neighbors : neighbors.root.IsNamed := by
  have manifest : IsEntryName "Package.swift".toList := by decide
  have first : IsEntryName ['a'] := by decide
  have second : IsEntryName ['b'] := by decide
  exact ⟨first, ⟨manifest, trivial, trivial⟩, second, ⟨manifest, trivial, trivial⟩, trivial⟩

open Discovery in
theorem discover_neighbors :
    (Discovery.discover neighbors {} ⟨.root, []⟩).value = [⟨['a'], ['a']⟩, ⟨['b'], ['b']⟩] := by
  let package : Entry := .directory
    [(({} : Options).manifestName, .file (Utf8.encode "Package(dependencies: [])".toList))]
  have entries : walkEntries neighbors {} ⟨.root, []⟩ [] [(['a'], package), (['b'], package)] =
      [(['a'], [projectAt neighbors {} ⟨.root, [['a']]⟩ ['a']]),
        (['b'], [projectAt neighbors {} ⟨.root, [['b']]⟩ ['b']])] := by
    rw [walkEntries_cons (by decide +kernel), walk_package (by decide +kernel),
      walkEntries_cons (by decide +kernel), walk_package (by decide +kernel), walkEntries]
    rfl
  have walked : walk neighbors {} ⟨.root, []⟩ [] (.directory [(['a'], package), (['b'], package)]) =
      [projectAt neighbors {} ⟨.root, [['a']]⟩ ['a'],
        projectAt neighbors {} ⟨.root, [['b']]⟩ ['b']] := by
    have none : holdsFile ({} : Options).manifestName [(['a'], package), (['b'], package)] =
        false := by decide +kernel
    have sorted : List.Pairwise (fun left right => Text.le left.1 right.1)
        [(['a'], [projectAt neighbors {} ⟨.root, [['a']]⟩ ['a']]),
          (['b'], [projectAt neighbors {} ⟨.root, [['b']]⟩ ['b']])] := by
      simp [Text.le]
    have listed : isListed neighbors ⟨.root, []⟩ := by decide +kernel
    rw [walk, if_pos listed, none, entries, List.mergeSort_of_pairwise sorted]
    rfl
  have located : neighbors.locate (neighbors.resolve ⟨.root, []⟩) =
      .ok (.directory [(['a'], package), (['b'], package)]) := rfl
  simp only [Discovery.discover, located]
  have root : neighbors.resolve ⟨.root, []⟩ = ⟨.root, []⟩ := rfl
  rw [root, walked]
  decide +kernel

def pair : Workspace where
  root := ⟨.root, []⟩
  settings := { root := ⟨.root, []⟩ }
  index := .ofProjects [⟨['a'], ['a']⟩, ⟨['b'], ['b']⟩]

theorem exists_discover_pair :
    ∃ records, discover bareSurroundings.reader neighbors ⟨.root, []⟩ (some pair.settings) =
      .ok ⟨pair, records⟩ := by
  refine ⟨(Discovery.discover neighbors {} ⟨.root, []⟩).records, ?_⟩
  have discovered : discover bareSurroundings.reader neighbors ⟨.root, []⟩ (some pair.settings) =
      .ok ((Discovery.discover neighbors {} ⟨.root, []⟩).map
        (ofProjects neighbors ⟨.root, []⟩ (some pair.settings))) := rfl
  rw [discovered, Reported.map, discover_neighbors]
  rfl

/-- One neighbor is added to the other one. -/
theorem graph_of_neighbor_addition :
    ∃ after added, pair.addDependency neighbors ['a'] { localProject := some ['b'] } = .ok
      (after, added) ∧
      ∃ edges, (pair.graph neighbors [.reader] (some ["a/Package.swift".toList])).result =
        .ok edges ∧
        (pair.graph after [.reader] (some ["a/Package.swift".toList])).result =
          .ok (edges ++ [⟨['a'], ['b'], "a/Package.swift".toList⟩]) := by
  have line : Text.OnLine ['b'] := by
    unfold Text.OnLine
    exact Text.forall_mem_of_all (by decide)
  have reference : Text.OnLine ((filled? none).getD ['b']) := line
  have meant : pair.project ['a'] = .ok ⟨['a'], ['a']⟩ := rfl
  have content : neighbors.readText (pair.contextOf ⟨['a'], ['a']⟩).manifestPath =
      .ok "Package(dependencies: [])".toList := by decide +kernel
  have plain (path : Path) (text : Text) (found : pair.manifestPath neighbors ['a'] = .ok path)
      (read : neighbors.readText path = .ok text) : Plain text := by
    have place : path = (pair.contextOf ⟨['a'], ['a']⟩).manifestPath :=
      eq_of_manifestPath meant found
    subst place
    obtain rfl := Except.ok.inj (content.symm.trans read)
    decide +kernel
  have succeeds : (pair.addDependency neighbors ['a'] { localProject := some ['b'] }).isOk := by
    decide +kernel
  have owner : (⟨['a'], ['a']⟩ : Project) ∈ pair.index.projects := by
    simp [pair, ProjectIndex.ofProjects]
  have target : (⟨['b'], ['b']⟩ : Project) ∈ pair.index.projects := by
    simp [pair, ProjectIndex.ofProjects]
  have normal : IsNormal ['a'] ∧ IsNormal ['b'] :=
    ⟨⟨by decide +kernel, by decide⟩, ⟨by decide +kernel, by decide⟩⟩
  have apart : Text.fold ['a'] ≠ Text.fold ['b'] := by decide +kernel
  have file : pair.manifestFileOf ⟨['a'], ['a']⟩ = "a/Package.swift".toList := by decide +kernel
  obtain ⟨records, discovered⟩ := exists_discover_pair
  cases served : pair.addDependency neighbors ['a'] { localProject := some ['b'] } with
  | error error => simp [served, Except.isOk, Except.toBool] at succeeds
  | ok result =>
      refine ⟨result.1, result.2, rfl, ?_⟩
      have edges := graph_of_local_addition isNamed_neighbors discovered owner target normal.1
        normal.2 apart line
        reference meant rfl plain served
      rw [file] at edges
      exact edges

end Workspace

end SwiftWorkspace
