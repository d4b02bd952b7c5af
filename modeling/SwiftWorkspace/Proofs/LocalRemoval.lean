import SwiftWorkspace.Proofs.Dangling
import SwiftWorkspace.Proofs.LocalEdges

/-!
# Removing local dependencies

A project that is added to another one is declared by the way to it, and referred to
by its name.  When it is removed by its name the references and the declaration
go if that name and the canonical name of the way are what the name resolves to.
-/

namespace SwiftWorkspace

open Reference (canonicalName)

namespace Source

variable {source middle last : Source} {names selected : List Text} {reference name : Text}
  {declared : Dependency} {isGone : Dependency → Bool}

theorem refersTo_literal (reference name : Text) :
    read (·.refersTo name) (literalCells reference) = decide (reference = name) :=
  refersTo_of_string (read_literal reference) name

/--
References that were inserted are left by a removal if they were added and another name was
removed.
-/
theorem Inserted.usageCount_removed (inserted : source.Inserted middle names reference declared)
    (has : ∀ target ∈ names, source.Has target) (removed : middle.Removed last selected name isGone)
    (gone : last.usageCount name = 0) (unused : source.usageCount reference = 0) :
    last.usageCount reference = 0 ↔ name = reference ∨ names = [] := by
  have none (entry : Text × List (List Cell)) (member : entry ∈ source.entries) :
      entry.2.countP (fun piece => read (·.refersTo reference) piece &&
        !read (·.refersTo name) piece) = 0 := by
    rw [usageCount_entries, List.sum_eq_zero_iff_forall_eq_nat] at unused
    have unreferred := unused _ (List.mem_map_of_mem member)
    rw [List.countP_eq_zero] at unreferred ⊢
    intro piece inside
    simp [unreferred piece inside]
  have left : last.usageCount reference = 0 ↔ ∀ entry ∈ source.entries,
      (List.replicate (names.count entry.1) (literalCells reference)).countP
        (fun piece => read (·.refersTo reference) piece && !read (·.refersTo name) piece) = 0 := by
    rw [usageCount_entries, removed.entries_of_unused gone, inserted.entries,
      List.sum_eq_zero_iff_forall_eq_nat]
    simp only [List.map_map, List.forall_mem_map, Function.comp_apply, countP_unreferring,
      List.countP_append]
    refine forall₂_congr fun entry member => ?_
    rw [none entry member, Nat.zero_add]
  rw [left]
  simp only [List.countP_replicate, refersTo_literal]
  constructor
  · intro all
    by_contra other
    push Not at other
    obtain ⟨target, member⟩ := List.exists_mem_of_ne_nil names other.2
    obtain ⟨form, inside, rfl⟩ := has target member
    have count :=
      all _ (List.mem_map_of_mem (f := fun form : TargetForm => (form.name, form.pieces)) inside)
    simp [other.1.symm, List.count_eq_zero, member] at count
  · rintro (rfl | rfl) entry member
    · simp
    · simp

end Source

theorem Dependency.isMeantBy_way {declared : Dependency} {way identifier name : Text}
    (address : declared.address = way) (url : declared.url = none) (path : declared.path = some way)
    (named : declared.name = canonicalName way) :
    declared.isMeantBy identifier name = true ↔ way = identifier ∨ canonicalName way = name := by
  simp [isMeantBy, url, path, named, address]

/-- An edge that comes with the last declaration is left exactly if that declaration stays. -/
theorem EdgeSource.mem_declaredEdges_filter {context : ManifestContext} {old last : Manifest}
    {declared : Dependency} {way : Text} {edge : Edge} {isGone : Dependency → Bool}
    (undeclared : edge ∉ declaredEdges context old) (path : filled? declared.path = some way)
    (dependencies : last.dependencies = (old.dependencies ++ [declared]).filter (!isGone ·)) :
    edge ∈ declaredEdges context last ↔
      context.edgeToPath? way = some edge ∧ isGone declared = false := by
  have others : edge ∉ (old.dependencies.filter (!isGone ·)).filterMap
      fun dependency => (filled? dependency.path).bind context.edgeToPath? := fun member =>
    undeclared ((List.filter_sublist.filterMap _).subset member)
  rw [declaredEdges, dependencies, List.filter_append, List.filterMap_append, List.mem_append,
    or_iff_right others]
  cases gone : isGone declared with
  | true => simp [gone]
  | false => simp [gone, path]

namespace Workspace

variable {workspace : Workspace} {disk middle after : Disk} {owner target : Project} {path : Path}
  {reference dependency text : Text} {targets : Option (List Text)} {version : Option Text}
  {added : Reported Dependency} {removed : Reported Unit}

theorem exists_removal {dropDeclaration : Bool}
    (removes : workspace.removeDependency disk reference dependency
      targets dropDeclaration = .ok (after, removed)) :
    ∃ path text edited, workspace.manifestPath disk reference = .ok path ∧
      disk.readText path = .ok text ∧
      Edit.remove text dependency targets dropDeclaration = .ok edited ∧
      after.readText path = .ok edited.text := by
  obtain ⟨change, planned, done⟩ := Outcome.map_eq_ok.mp removes
  obtain ⟨removal⟩ := exists_subtraction planned
  obtain rfl : change.apply disk = after := congrArg Prod.fst done
  have noReturn : '\r' ∉ change.text := by
    obtain ⟨written, -, same⟩ := Disk.readText_eq_ok_iff.mp removal.text_eq
    rw [removal.result_eq]
    intro member
    have inside := (Edit.shrinks_remove removal.remove_eq).sublist.subset member
    rw [same] at inside
    exact Text.noReturn_withLineFeeds _ inside
  refine ⟨change.path, removal.text, removal.edited, removal.path_eq, removal.text_eq,
    removal.remove_eq, ?_⟩
  rw [← removal.result_eq]
  exact Disk.readText_writeText rfl removal.text_eq noReturn

theorem LocalAddition.manifestPath_result {product : Option Text}
    (addition : LocalAddition workspace disk owner target targets product) :
    workspace.manifestPath addition.result owner.root = .ok addition.path := by
  obtain ⟨written, held, -⟩ := Disk.readText_eq_ok_iff.mp addition.text_eq
  rw [← addition.path_eq]
  exact manifestPath_alike (Disk.sameShape_write (Disk.locate_of_read held) _) rfl

/--
When a project is added to another one, whose manifest is plain and has no path to it and
no reference to its name, and is then removed by its name, the manifest still declares a
path to it exactly if the way to it leads there and neither is the name nor has what the
name resolves to as its canonical name.  References to the name are left exactly if it
does not resolve to itself and some target has been selected.  The name resolves to its
canonical name unless it is an address.
-/
theorem left_of_local_addition (root : target.root.OnLine) (line : target.name.OnLine)
    (meant : workspace.project owner.root = .ok owner)
    (resolved : workspace.project target.name = .ok target)
    (located : workspace.manifestPath disk owner.root = .ok path)
    (read : disk.readText path = .ok text) (plain : Plain text)
    (undeclared : (workspace.contextOf owner).edgeTo target.root ∉
      EdgeSource.declaredEdges (workspace.contextOf owner) (Manifest.ofText text))
    (unused : (Source.ofText text).usageCount target.name = 0)
    (adds : workspace.addDependency disk owner.root
      { version := version, localProject := some target.name, targets := targets } =
        .ok (middle, added))
    (removes : workspace.removeDependency middle owner.root target.name none true =
      .ok (after, removed)) :
    ∃ inserted last, middle.readText path = .ok inserted ∧ after.readText path = .ok last ∧
      ((workspace.contextOf owner).edgeTo target.root ∈
          EdgeSource.declaredEdges (workspace.contextOf owner) (Manifest.ofText last) ↔
        (workspace.contextOf owner).edgeToPath? (RelativePath.between owner.root target.root) =
            some ((workspace.contextOf owner).edgeTo target.root) ∧
          RelativePath.between owner.root target.root ≠ target.name ∧
          canonicalName (RelativePath.between owner.root target.root) ≠
            (Manifest.ofText inserted).resolveName target.name) ∧
      ((Source.ofText last).usageCount target.name = 0 ↔
        (Manifest.ofText inserted).resolveName target.name = target.name ∨
          Edit.selectTargets targets (Edit.ordinaryTargets text) = []) ∧
      ((∀ declared ∈ (Manifest.ofText text).dependencies, declared.address ≠ target.name) →
        (Manifest.ofText inserted).resolveName target.name = canonicalName target.name) := by
  obtain ⟨filled, addition, rfl⟩ := exists_localAddition meant resolved adds
  obtain rfl := Except.ok.inj (located.symm.trans addition.path_eq)
  obtain rfl := Except.ok.inj (read.symm.trans addition.text_eq)
  obtain ⟨source, tidy, same⟩ := plain.exists_tidy
  have given : Text.OnLine ((filled? none).getD target.name) := line
  obtain ⟨new, declared, new_text, takes, inserted, url, way, named⟩ :=
    addition.exists_inserted root given tidy same
  have referred : (filled? ((filled? none).or (filled? (some target.name)))).getD
      (canonicalName addition.dependency.name) = target.name := by
    have none : filled? none = none := rfl
    simp [none, Dependency.filled?_of_filled filled]
  rw [referred] at inserted
  obtain ⟨place, between, edited, place_eq, between_eq, remove_eq, after_eq⟩ :=
    exists_removal removes
  obtain rfl := Except.ok.inj (place_eq.symm.trans addition.manifestPath_result)
  obtain rfl := Except.ok.inj (between_eq.symm.trans (addition.readText_after root given))
  rw [new_text] at remove_eq between_eq
  obtain ⟨last, last_text, result⟩ := inserted.tidy.removed_of_ok rfl remove_eq
  obtain ⟨gone, all⟩ := inserted.tidy.removed_everywhere result
  have has (name : Text)
      (member : name ∈ Edit.selectTargets targets (Edit.ordinaryTargets source.text)) :
      source.Has name := by
    obtain ⟨form, inside, named, -⟩ := takes.2 name member
    exact ⟨form, inside, named⟩
  have dependencies : (Manifest.ofText last.text).dependencies =
      ((Manifest.ofText source.text).dependencies ++ [declared]).filter
        (!·.isMeantBy target.name ((Manifest.ofText new.text).resolveName target.name)) := by
    rw [all.manifest, inserted.manifest]
    rfl
  have path : filled? declared.path = some (RelativePath.between owner.root target.root) := by
    rw [way]
    exact Dependency.filled?_of_filled (Dependency.fields_of_path addition.made).2
  have address := Dependency.address_of_path path
  rw [same] at undeclared unused
  rw [tidy.ofText_text] at unused
  refine ⟨new.text, last.text, between_eq, last_text ▸ after_eq, ?_, ?_, fun others => ?_⟩
  · rw [EdgeSource.mem_declaredEdges_filter undeclared path dependencies, ← Bool.not_eq_true,
      Dependency.isMeantBy_way address url way named, not_or]
  · rw [same, all.tidy.ofText_text]
    exact inserted.usageCount_removed has all gone unused
  · refine Manifest.resolveName_eq rfl fun other member same_address => ?_
    rw [inserted.manifest] at member
    rcases List.mem_append.mp member with old | fresh
    · exact absurd same_address (others other (same ▸ old))
    · obtain rfl := List.mem_singleton.mp fresh
      rw [named, ← same_address, address]

open EditCall (neighborhood)

def lonelyManifest : Text :=
  "Package(name: \"p\", dependencies: [], targets: [.target(name: \"t\", dependencies: [])])".toList

/-- A disk with two packages beside each other, whose names are not those of their directories. -/
def strangers : Disk where
  root := .directory
    [(['a'], .directory [("Package.swift".toList, .file (Utf8.encode lonelyManifest))]),
      (['b'], .directory [("Package.swift".toList, .file (Utf8.encode lonelyManifest))])]

/--
The declaration stays when a neighbor is removed by its name, which is not that of its
directory.
-/
theorem left_of_strangers :
    ∃ middle added after removed,
      neighborhood.addDependency strangers ['a'] { localProject := some ['q'] } = .ok
        (middle, added) ∧
        neighborhood.removeDependency middle ['a'] ['q'] none true = .ok (after, removed) ∧
        ∃ path last, after.readText path = .ok last ∧ (Source.ofText last).usageCount ['q'] = 0 ∧
          ⟨['a'], ['b'], "a/Package.swift".toList⟩ ∈
            EdgeSource.declaredEdges (neighborhood.contextOf ⟨['p'], ['a']⟩)
              (Manifest.ofText last) := by
  have root : (Project.root ⟨['q'], ['b']⟩).OnLine := by
    unfold Text.OnLine
    exact Text.forall_mem_of_all (by decide)
  have line : (Project.name ⟨['q'], ['b']⟩).OnLine := by
    unfold Text.OnLine
    exact Text.forall_mem_of_all (by decide)
  have meant : neighborhood.project ['a'] = .ok ⟨['p'], ['a']⟩ := rfl
  have resolved : neighborhood.project ['q'] = .ok ⟨['q'], ['b']⟩ := rfl
  have read : strangers.readText (neighborhood.contextOf ⟨['p'], ['a']⟩).manifestPath =
      .ok lonelyManifest := by
    decide +kernel
  have plain : Plain lonelyManifest := by decide +kernel
  have declared : (Manifest.ofText lonelyManifest).dependencies = [] := by
    change (Source.ofText lonelyManifest).dependencies = _
    rw [← Source.declarations_eq]
    decide +kernel
  have unused : (Source.ofText lonelyManifest).usageCount ['q'] = 0 := by
    rw [Source.usageCount, ← Source.calls_eq]
    decide +kernel
  have undeclared : (neighborhood.contextOf ⟨['p'], ['a']⟩).edgeTo ['b'] ∉
      EdgeSource.declaredEdges (neighborhood.contextOf ⟨['p'], ['a']⟩)
        (Manifest.ofText lonelyManifest) := by
    simp [EdgeSource.declaredEdges, declared]
  obtain ⟨path, located⟩ := Outcome.exists_of_isOk (neighborhood.manifestPath strangers ['a'])
    (by decide +kernel)
  have place : path = (neighborhood.contextOf ⟨['p'], ['a']⟩).manifestPath :=
    eq_of_manifestPath meant located
  subst place
  have both : ∃ result,
      (neighborhood.addDependency strangers ['a'] { localProject := some ['q'] } >>= fun added =>
      neighborhood.removeDependency added.1 ['a'] ['q'] none true) = .ok result :=
    Outcome.exists_of_isOk _ (by decide +kernel)
  obtain ⟨⟨after, removed⟩, both⟩ := both
  obtain ⟨⟨middle, added⟩, adds, removes⟩ := Outcome.bind_eq_ok.mp both
  simp only at removes
  obtain ⟨inserted, last, -, last_eq, stays, gone, resolves⟩ :=
    left_of_local_addition root line meant resolved located read plain undeclared
      unused adds removes
  have name : (Manifest.ofText inserted).resolveName ['q'] = ['q'] := by
    rw [resolves (by simp [declared])]
    decide +kernel
  refine ⟨middle, added, after, removed, adds, removes, _, last, last_eq, gone.mpr (.inl name), ?_⟩
  refine stays.mpr ⟨by decide +kernel, by decide +kernel, ?_⟩
  rw [name]
  decide +kernel

end Workspace

end SwiftWorkspace
