import SwiftWorkspace.Proofs.Queries

/-!
# References without a declaration

Removing a dependency counts the references to one name only, and drops every
declaration that is meant by the identifier or by that name.  What the targets
refer to by another name of a declaration stays behind when it goes.
-/

namespace SwiftWorkspace

namespace Source

variable {source new : Source} {names : List Text} {dependency : Text} {isGone : Dependency → Bool}

/-- Without references to the name in the result, all targets are as if they had been selected. -/
theorem Removed.entries_of_unused (removed : source.Removed new names dependency isGone)
    (unused : new.usageCount dependency = 0) :
    new.entries = source.entries.map fun entry => (entry.1, unreferring dependency entry.2) := by
  have none (entry : Text × List (List Cell)) (member : entry ∈ new.entries) :
      entry.2.countP (read (·.refersTo dependency)) = 0 := by
    rw [usageCount_entries, List.sum_eq_zero_iff_forall_eq_nat] at unused
    exact unused _ (List.mem_map_of_mem member)
  rw [removed.entries]
  refine List.map_congr_left fun entry member => ?_
  split
  case isTrue => rfl
  case isFalse other =>
      have kept : entry ∈ new.entries := by
        rw [removed.entries, List.mem_map]
        exact ⟨entry, member, if_neg other⟩
      rw [unreferring_eq_self (none entry kept)]

theorem local_refersBesides (dependency other : Text) :
    Local fun source element => source.refersTo other element &&
      !source.refersTo dependency element :=
  ((local_refersTo other).zip (local_refersTo dependency)).map fun refers => refers.1 && !refers.2

/-- The references to a name that are left are those that are not references to the removed one. -/
theorem Removed.usageCount_other (removed : source.Removed new names dependency isGone)
    (unused : new.usageCount dependency = 0) (other : Text) :
    new.usageCount other = source.references.countP fun element =>
      source.refersTo other element && !source.refersTo dependency element := by
  rw [usageCount_entries, removed.entries_of_unused unused, Source.entries,
    forms_outline, references, List.countP_flatMap]
  simp only [List.map_map]
  refine congrArg List.sum (List.map_congr_left fun target member => ?_)
  simp only [Function.comp_apply, countP_unreferring]
  exact (countP_referenceElements (local_refersBesides dependency other) member).symm

/-- A declaration that is read no more was meant, and the name is referred to no more. -/
theorem Removed.meant_of_gone {identifier : Text} {dropDeclaration : Bool}
    (removed : source.Removed new names dependency
      (goes identifier dependency dropDeclaration (new.usageCount dependency)))
    {declared : Dependency} (member : declared ∈ (Manifest.ofText source.text).dependencies)
    (gone : declared ∉ (Manifest.ofText new.text).dependencies) :
    new.usageCount dependency = 0 ∧ declared.isMeantBy identifier dependency := by
  rw [removed.manifest, List.mem_filter, not_and] at gone
  have goes := gone member
  simp only [Source.goes, Bool.not_eq_true, Bool.not_eq_false', Bool.and_eq_true,
    decide_eq_true_eq] at goes
  exact ⟨goes.1.2, goes.2⟩

theorem name_of_meant {identifier : Text} {declared : Dependency}
    (resolved : (Manifest.ofText source.text).resolveName identifier = dependency)
    (own : declared.name = Reference.canonicalName declared.address)
    (same : ∀ other ∈ (Manifest.ofText source.text).dependencies,
      other.address = declared.address → other.name = declared.name)
    (one : declared.HasOneAddress) (meant : declared.isMeantBy identifier dependency) :
    dependency = declared.name := by
  rcases one.isMeantBy_iff.mp meant with address | named | canonical
  · rw [← resolved, ← address]
    exact Manifest.resolveName_eq own.symm same
  · exact named.symm
  · rw [own, canonical]

end Source

/--
When a removal from a plain manifest makes a declaration go, no target refers to the name
that the identifier resolves to any more, and the declaration was meant by the identifier
or by that name.  Of the references to any other name, those are left that do not refer to
the resolved one, too.  So a target refers to the declaration's own name, or to
the canonical name of its address, exactly if one did so before and not to the resolved
name; and none does if all declarations with this address have this canonical name.
-/
theorem references_of_undeclared {text : Text} (plain : Plain text) {identifier name : Text}
    (resolved : (Manifest.ofText text).resolveName identifier = name) {targets : Option (List Text)}
    {dropDeclaration : Bool} {edited : Edited}
    (removed : Edit.remove text identifier targets dropDeclaration = .ok edited)
    {declared : Dependency} (member : declared ∈ (Manifest.ofText text).dependencies)
    (gone : declared ∉ (Manifest.ofText edited.text).dependencies) :
    declared.isMeantBy identifier name ∧ (Source.ofText edited.text).usageCount name = 0 ∧
      (∀ other, (Source.ofText edited.text).usageCount other =
        (Source.ofText text).references.countP fun element =>
          (Source.ofText text).refersTo other element &&
            !(Source.ofText text).refersTo name element) ∧
      ((∀ other ∈ [declared.name, Reference.canonicalName declared.address],
          (Source.ofText edited.text).usageCount other = 0) ↔
        ∀ element ∈ (Source.ofText text).references,
          (Source.ofText text).refersTo declared.name element ∨
              (Source.ofText text).refersTo (Reference.canonicalName declared.address) element →
            (Source.ofText text).refersTo name element) ∧
      ((∀ other ∈ (Manifest.ofText text).dependencies, other.address = declared.address →
          other.name = Reference.canonicalName declared.address) →
        (Source.ofText edited.text).usageCount declared.name = 0 ∧
          (Source.ofText edited.text).usageCount
            (Reference.canonicalName declared.address) = 0) := by
  obtain ⟨source, tidy, rfl⟩ := plain.exists_tidy
  obtain ⟨new, same, result⟩ := tidy.removed_of_ok resolved removed
  rw [same] at gone ⊢
  obtain ⟨unused, meant⟩ := result.meant_of_gone member gone
  have others := result.usageCount_other unused
  simp only [tidy.ofText_text, result.tidy.ofText_text]
  refine ⟨meant, unused, others, ?_, fun derived => ?_⟩
  · simp only [List.forall_mem_cons, List.not_mem_nil, false_implies, implies_true,
      and_true, others, List.countP_eq_zero]
    constructor
    · rintro ⟨first, last⟩ element inside (refers | refers)
      · simpa [refers] using first element inside
      · simpa [refers] using last element inside
    · intro covered
      constructor
      · intro element inside
        simpa using fun refers => covered element inside (.inl refers)
      · intro element inside
        simpa using fun refers => covered element inside (.inr refers)
  · have own : declared.name = Reference.canonicalName declared.address :=
      derived declared member rfl
    have named : name = declared.name := Source.name_of_meant resolved own (own ▸ derived)
      (Source.hasOneAddress_of_mem member) meant
    rw [← own, ← named]
    exact ⟨unused, unused⟩

theorem exists_remove_everywhere {text : Text} (plain : Plain text) {identifier name : Text}
    (resolved : (Manifest.ofText text).resolveName identifier = name)
    (meant : Edit.meantDeclarations (Manifest.ofText text) identifier name ≠ []) :
    ∃ edited, Edit.remove text identifier none true = .ok edited ∧
      (Manifest.ofText edited.text).dependencies =
        (Manifest.ofText text).dependencies.filter (!·.isMeantBy identifier name) := by
  obtain ⟨source, tidy, rfl⟩ := plain.exists_tidy
  have has : ∀ name ∈ Edit.selectTargets none (Edit.allTargets source.text), source.Has name :=
    fun name member => (tidy.has_iff name).mpr member
  obtain ⟨new, warnings, removed, result⟩ := tidy.remove true resolved (.inl meant) has
  exact ⟨_, removed, by rw [(tidy.removed_everywhere result).2.manifest]⟩

/--
A manifest that declares a dependency under a name of its own, and refers to it by both names.
-/
def renamedManifest : Text :=
  "Package(name: \"p\", dependencies: [.package(name: \"c\", url: \"https://h/b\", from: \"1.0.0\")], ".toList ++
    "targets: [.target(name: \"t\", dependencies: [\"b\", \"c\"])])".toList

def renamedDependency : Dependency :=
  ⟨{ name := ['c'], url := some "https://h/b".toList, version := some "1.0.0".toList }, by decide⟩

/--
The dependency goes when it is removed by the name of its repository, and one reference is left.
-/
theorem references_of_renamedManifest :
    ∃ edited, Edit.remove renamedManifest ['b'] none true = .ok edited ∧
      (Manifest.ofText edited.text).dependencies = [] ∧
      (Source.ofText edited.text).usageCount ['b'] = 0 ∧
      (Source.ofText edited.text).usageCount ['c'] = 1 := by
  have plain : Plain renamedManifest := by decide +kernel
  have declared : (Manifest.ofText renamedManifest).dependencies = [renamedDependency] := by
    change (Source.ofText renamedManifest).dependencies = _
    rw [← Source.declarations_eq]
    decide +kernel
  have resolved : (Manifest.ofText renamedManifest).resolveName ['b'] = ['b'] := by
    rw [Manifest.resolveName, declared]
    decide +kernel
  have meant : Edit.meantDeclarations (Manifest.ofText renamedManifest) ['b'] ['b'] ≠ [] := by
    rw [Edit.meantDeclarations, declared]
    decide +kernel
  obtain ⟨edited, removed, dependencies⟩ := exists_remove_everywhere plain resolved meant
  have gone : (Manifest.ofText edited.text).dependencies = [] := by
    rw [dependencies, declared]
    decide +kernel
  obtain ⟨-, unused, others, -⟩ := references_of_undeclared plain resolved removed
    (declared ▸ List.mem_singleton_self _) (gone ▸ List.not_mem_nil)
  refine ⟨edited, removed, gone, unused, ?_⟩
  rw [others, Source.references, ← Source.calls_eq]
  decide +kernel

end SwiftWorkspace
