import SwiftWorkspace.Proofs.Restoring

/-!
# Queries and removals

A dependency is looked up by name, URL or path, and it is removed by any of these.
What both of them mean by an identifier is compared here, and so are the removals of
one dependency by its address and by its name.  Whether the dependency is in use is
asked in two ways as well: from the strings that a target lists, and from all
references in its array.
-/

namespace SwiftWorkspace

open Reference (canonicalName)

namespace Dependency

variable {dependency : Dependency} {identifier name : Text}

def HasOneAddress (dependency : Dependency) : Prop :=
  ∀ text, dependency.url = some text ∨ dependency.path = some text ↔ dependency.address = text

theorem HasOneAddress.isMeantBy_iff (one : dependency.HasOneAddress) :
    dependency.isMeantBy identifier name = true ↔
      dependency.address = identifier ∨ dependency.name = name ∨
        canonicalName dependency.address = name := by
  rw [← one identifier]
  simp only [isMeantBy, Bool.or_eq_true, decide_eq_true_eq, or_assoc]

/-- An identifier whose canonical name is the name adds nothing to what the name means. -/
theorem HasOneAddress.isMeantBy_of_canonical (one : dependency.HasOneAddress)
    (canonical : canonicalName identifier = name) :
    dependency.isMeantBy identifier name = true ↔
      dependency.name = name ∨ canonicalName dependency.address = name := by
  rw [one.isMeantBy_iff, or_iff_right_of_imp]
  rintro rfl
  exact .inr canonical

theorem HasOneAddress.isCalled_iff (one : dependency.HasOneAddress) :
    dependency.isCalled identifier = true ↔
      dependency.address = identifier ∨ dependency.name = identifier ∨
      dependency.isRemote = true ∧ canonicalName dependency.address = identifier := by
  have remote : (filled? dependency.url).any (canonicalName · = identifier) = true ↔
      dependency.isRemote = true ∧ canonicalName dependency.address = identifier := by
    rw [isRemote]
    cases url : filled? dependency.url with
    | none => simp
    | some address => simp [address_of_url url]
  rw [← one identifier]
  simp only [isCalled, Bool.or_eq_true, decide_eq_true_eq, remote, or_assoc]
  exact or_left_comm.trans (or_congr_right or_left_comm)

theorem isRemote_of_not_isLocal (dependency : Dependency) (remote : ¬ dependency.isLocal = true) :
    dependency.isRemote = true := by
  rw [isLocal, Bool.not_eq_true] at remote
  simpa [isRemote, DependencyFields.isAddressed, remote] using dependency.addressed

theorem addresses_of_ofFields? {fields : DependencyFields}
    (made : ofFields? fields = some dependency) :
    dependency.url = fields.url ∧ dependency.path = fields.path := by
  rw [ofFields?] at made
  split at made
  · obtain rfl := Option.some.inj made
    simp only [DependencyFields.named]
    split <;> exact ⟨rfl, rfl⟩
  · cases made

theorem hasOneAddress_of_ofFields? {fields : DependencyFields} {address : Text}
    (filled : address ≠ [])
    (only : fields.url = some address ∧ fields.path = none ∨
      fields.url = none ∧ fields.path = some address)
    (made : ofFields? fields = some dependency) : dependency.HasOneAddress := by
  obtain ⟨url, path⟩ := addresses_of_ofFields? made
  intro text
  rcases only with ⟨own, other⟩ | ⟨other, own⟩
  · have known : filled? dependency.url = some address := by rw [url, own, filled?_of_filled filled]
    simp [url, path, own, other, address_of_url known]
  · have known : filled? dependency.path = some address := by
      rw [path, own, filled?_of_filled filled]
    simp [url, path, own, other, address_of_path known]

end Dependency

namespace Source

theorem hasOneAddress_of_dependencyIn? {source : Source} {element : Span} {dependency : Dependency}
    (read : source.dependencyIn? element = some dependency) : dependency.HasOneAddress := by
  rw [dependencyIn?] at read
  split at read
  · cases read
  · split at read
    · cases read
    · split at read
      · rename_i url
        exact Dependency.hasOneAddress_of_ofFields? (Dependency.mem_of_filled? url).2
          (.inl ⟨rfl, rfl⟩) read
      · split at read
        · rename_i path
          exact Dependency.hasOneAddress_of_ofFields? (Dependency.mem_of_filled? path).2
            (.inr ⟨rfl, rfl⟩) read
        · cases read

theorem hasOneAddress_of_mem {source : Source} {dependency : Dependency}
    (declared : dependency ∈ source.dependencies) : dependency.HasOneAddress := by
  rw [dependencies] at declared
  split at declared
  · cases declared
  · obtain ⟨element, -, read⟩ := List.mem_filterMap.mp declared
    exact hasOneAddress_of_dependencyIn? read

end Source

namespace Edit

variable {text identifier other name : Text}

theorem isDeclaration_of_canonical (source : Source) (canonical : canonicalName identifier = name)
    (canonical_other : canonicalName other = name) :
    isDeclaration source identifier name = isDeclaration source other name := by
  funext element
  rw [isDeclaration, isDeclaration]
  cases read : source.dependencyIn? element with
  | none => rfl
  | some dependency =>
      have one := Source.hasOneAddress_of_dependencyIn? read
      exact Bool.eq_iff_iff.mpr
        ((one.isMeantBy_of_canonical canonical).trans
          (one.isMeantBy_of_canonical canonical_other).symm)

theorem removeDeclarations_of_canonical (text : Text) (canonical : canonicalName identifier = name)
    (canonical_other : canonicalName other = name) :
    removeDeclarations text identifier name = removeDeclarations text other name := by
  simp only [removeDeclarations, isDeclaration_of_canonical _ canonical canonical_other]

theorem remove_of_canonical {dependency : Dependency} (canonical : canonicalName identifier = name)
    (canonical_other : canonicalName other = name)
    (resolved : (Manifest.ofText text).resolveName identifier = name)
    (resolved_other : (Manifest.ofText text).resolveName other = name)
    (declared : dependency ∈ (Manifest.ofText text).dependencies) (named : dependency.name = name)
    (targets : Option (List Text)) (dropDeclaration : Bool) :
    remove text identifier targets dropDeclaration = remove text other targets dropDeclaration := by
  have meant (identifier : Text) :
      (meantDeclarations (Manifest.ofText text) identifier name).isEmpty = false := by
    rw [List.isEmpty_eq_false_iff]
    refine List.ne_nil_of_mem (List.mem_filter.mpr ⟨declared, ?_⟩)
    simp [Dependency.isMeantBy, named]
  simp only [remove, resolved, resolved_other, meant,
    removeDeclarations_of_canonical _ canonical canonical_other]
  rfl

/--
A dependency is removed in the same way by its address and by its name, if that is the
canonical name of the address for every declaration with it, and nobody's address.
-/
theorem remove_by_address {text address : Text} {dependency : Dependency}
    (declared : dependency ∈ (Manifest.ofText text).dependencies)
    (addressed : dependency.url = some address ∨ dependency.path = some address)
    (derived : ∀ other ∈ (Manifest.ofText text).dependencies,
      other.url = some address ∨ other.path = some address → other.name = canonicalName address)
    (canonical : canonicalName dependency.name = dependency.name)
    (no_address : ∀ other ∈ (Manifest.ofText text).dependencies,
      other.url ≠ some dependency.name ∧ other.path ≠ some dependency.name)
    (targets : Option (List Text)) (dropDeclaration : Bool) :
    remove text address targets dropDeclaration =
      remove text dependency.name targets dropDeclaration := by
  have own : canonicalName address = dependency.name := (derived dependency declared addressed).symm
  have by_address : (Manifest.ofText text).resolveName address = dependency.name := by
    refine Manifest.resolveName_eq own fun other member same => ?_
    rw [← own]
    exact derived other member ((Source.hasOneAddress_of_mem member address).mpr same)
  have by_name : (Manifest.ofText text).resolveName dependency.name = dependency.name := by
    refine Manifest.resolveName_eq canonical fun other member same => ?_
    rcases (Source.hasOneAddress_of_mem member dependency.name).mpr same with url | path
    · exact absurd url (no_address other member).1
    · exact absurd path (no_address other member).2
  exact remove_of_canonical own canonical by_address by_name declared rfl targets dropDeclaration

/--
A manifest with a package of another place and a package beside it that has a name of its own.
-/
def mixedManifest : Text :=
  "Package(name: \"p\", dependencies: [.package(url: \"https://h/b\", from: \"1.0.0\"), ".toList ++
    ".package(name: \"d\", path: \"../c\")], targets: [.target(name: \"t\", dependencies: [\"b\"])])".toList

def farDependency : Dependency :=
  ⟨{ name := ['b'], url := some "https://h/b".toList, version := some "1.0.0".toList }, by decide⟩

def nearDependency : Dependency := ⟨{ name := ['d'], path := some "../c".toList }, by decide⟩

theorem dependencies_mixedManifest :
    (Manifest.ofText mixedManifest).dependencies = [farDependency, nearDependency] := by
  change (Source.ofText mixedManifest).dependencies = _
  rw [← Source.declarations_eq]
  decide +kernel

/-- The package of another place is removed by its URL as by its name. -/
theorem remove_by_address_mixedManifest :
    remove mixedManifest "https://h/b".toList none true = remove mixedManifest ['b'] none true := by
  have canonical : canonicalName "https://h/b".toList = ['b'] := by decide +kernel
  have addresses : ∀ other ∈ [farDependency, nearDependency],
      (other.url = some "https://h/b".toList ∨ other.path = some "https://h/b".toList →
        other.name = ['b']) ∧ other.url ≠ some ['b'] ∧ other.path ≠ some ['b'] := by decide +kernel
  have declared : farDependency ∈ (Manifest.ofText mixedManifest).dependencies := by
    simp [dependencies_mixedManifest]
  refine remove_by_address declared (.inl rfl) ?_ (by decide +kernel) ?_ none true
  · rw [dependencies_mixedManifest, canonical]
    exact fun other member => (addresses other member).1
  · rw [dependencies_mixedManifest]
    exact fun other member => (addresses other member).2

end Edit

namespace Manifest

variable {manifest : Manifest} {identifier : Text}

theorem isSome_findDependency? : (manifest.findDependency? identifier).isSome ↔
    ∃ dependency ∈ manifest.dependencies, dependency.isCalled identifier = true := by
  rw [findDependency?, List.find?_isSome]

theorem meantDeclarations_ne_nil {name : Text} :
    Edit.meantDeclarations manifest identifier name ≠ [] ↔
    ∃ dependency ∈ manifest.dependencies, dependency.isMeantBy identifier name = true := by
  rw [Edit.meantDeclarations, Ne, List.filter_eq_nil_iff]
  push Not
  rfl

/--
A lookup finds a dependency exactly when a removal regards one as declared, if the
identifier is its own canonical name or the address of a declaration, and packages at a
path of this canonical name have it as their name.
-/
theorem find_iff_meant {text identifier : Text}
    (known : canonicalName identifier = identifier ∨
      ∃ dependency ∈ (ofText text).dependencies,
        dependency.url = some identifier ∨ dependency.path = some identifier)
    (named : ∀ dependency ∈ (ofText text).dependencies, dependency.isLocal = true →
      canonicalName dependency.address = identifier → dependency.name = identifier) :
    ((ofText text).findDependency? identifier).isSome ↔
      Edit.meantDeclarations (ofText text) identifier
        ((ofText text).resolveName identifier) ≠ [] := by
  rw [isSome_findDependency?, meantDeclarations_ne_nil]
  by_cases address : ∃ dependency ∈ (ofText text).dependencies, dependency.address = identifier
  · obtain ⟨dependency, declared, same⟩ := address
    have one := Source.hasOneAddress_of_mem declared
    exact iff_of_true ⟨dependency, declared, one.isCalled_iff.mpr (.inl same)⟩
      ⟨dependency, declared, one.isMeantBy_iff.mpr (.inl same)⟩
  · push Not at address
    have canonical : canonicalName identifier = identifier := by
      refine known.resolve_right fun ⟨dependency, declared, same⟩ => address dependency declared ?_
      exact (Source.hasOneAddress_of_mem declared identifier).mp same
    rw [resolveName_eq canonical fun dependency declared same =>
      absurd same (address dependency declared)]
    refine exists_congr fun dependency => and_congr_right fun declared => ?_
    have one := Source.hasOneAddress_of_mem declared
    rw [one.isCalled_iff, one.isMeantBy_iff]
    refine or_congr_right ⟨Or.imp_right And.right, ?_⟩
    rintro (name | derived)
    · exact .inl name
    · by_cases near : dependency.isLocal = true
      · exact .inl (named dependency declared near derived)
      · exact .inr ⟨dependency.isRemote_of_not_isLocal near, derived⟩

/-- Both of them know the package of another place by the name of its repository. -/
theorem find_iff_meant_mixedManifest :
    ((ofText Edit.mixedManifest).findDependency? ['b']).isSome ↔
      Edit.meantDeclarations (ofText Edit.mixedManifest) ['b']
        ((ofText Edit.mixedManifest).resolveName ['b']) ≠ [] := by
  refine find_iff_meant (.inl (by decide +kernel)) ?_
  rw [Edit.dependencies_mixedManifest]
  decide +kernel

/-- A package at a path with a name of its own is not found by the name of its directory. -/
example : (ofText Edit.mixedManifest).findDependency? ['c'] = none ∧
    Edit.meantDeclarations (ofText Edit.mixedManifest) ['c'] ['c'] = [Edit.nearDependency] := by
  rw [findDependency?, Edit.meantDeclarations, Edit.dependencies_mixedManifest]
  decide +kernel

end Manifest

namespace Source

variable {source : Source} {element : Span} {name : Text}

/-- The elements in the arrays of the targets' dependencies. -/
def references (source : Source) : List Span := source.targetCalls.flatMap source.referenceElements

def isReferenceCall (source : Source) (element : Span) : Bool :=
  (source.callIn? element).any fun call => isReferenceKeyword call.keyword

theorem refersTo_iff_of_not_call (no_call : source.isReferenceCall element = false) :
    source.refersTo name element = true ↔ source.stringIn? element = some name := by
  rw [refersTo, Bool.or_eq_true, decide_eq_true_eq, or_iff_left]
  rw [isReferenceCall] at no_call
  cases called : source.callIn? element with
  | none => simp
  | some call =>
      rw [called, Option.any_some] at no_call
      simp [no_call]

/-- The strings that the targets list are those among the references. -/
theorem strings_targets (source : Source) :
    source.targets.flatMap Target.dependencies = source.references.filterMap source.stringIn? := by
  rw [targets, references, List.flatMap_map, List.filterMap_flatMap]
  refine List.flatMap_congr fun target _ => ?_
  rw [targetOf, referenceElements]
  cases source.targetDependencies? target <;> rfl

theorem count_targets (source : Source) (name : Text) :
    (source.targets.flatMap Target.dependencies).count name =
      source.references.countP (source.stringIn? · == some name) := by
  rw [strings_targets, List.count_filterMap]

theorem count_targets_le (source : Source) (name : Text) :
    (source.targets.flatMap Target.dependencies).count name ≤ source.usageCount name := by
  rw [count_targets]
  refine List.countP_mono_left fun element _ string => ?_
  rw [refersTo, beq_iff_eq.mp string, decide_eq_true rfl, Bool.true_or]

/-- Without calls among the references, all of them are strings. -/
theorem count_targets_eq (no_call : ∀ element ∈ source.references,
    source.isReferenceCall element = false) :
    (source.targets.flatMap Target.dependencies).count name = source.usageCount name := by
  rw [count_targets]
  refine List.countP_congr fun element member => ?_
  rw [refersTo_iff_of_not_call (no_call element member), beq_iff_eq]

end Source

namespace Manifest

theorem uses_iff {manifest : Manifest} {name : Text} :
    manifest.uses name = true ↔ name ∈ manifest.targets.flatMap Target.dependencies := by
  simp [uses]

theorem targetsUsing_eq_nil_iff {manifest : Manifest} {name : Text} :
    manifest.targetsUsing name = [] ↔ name ∉ manifest.targets.flatMap Target.dependencies := by
  simp [targetsUsing]

/--
The targets list a name as a string at most as often as they refer to it, and exactly as
often if none of the references is a call.  A name in use is referred to, and one that is
not referred to is used by no target.
-/
theorem strings_usageCount (text name : Text) :
    ((ofText text).targets.flatMap Target.dependencies).count name ≤
      (Source.ofText text).usageCount name ∧
      ((∀ element ∈ (Source.ofText text).references,
        (Source.ofText text).isReferenceCall element = false) →
        ((ofText text).targets.flatMap Target.dependencies).count name =
          (Source.ofText text).usageCount name) ∧
      ((ofText text).uses name = true → 0 < (Source.ofText text).usageCount name) ∧
      ((Source.ofText text).usageCount name = 0 → (ofText text).targetsUsing name = []) := by
  have bound : ((ofText text).targets.flatMap Target.dependencies).count name ≤
      (Source.ofText text).usageCount name := Source.count_targets_le ..
  refine ⟨bound, Source.count_targets_eq, fun used => ?_, fun unused => ?_⟩
  · exact Nat.lt_of_lt_of_le (List.count_pos_iff.mpr (uses_iff.mp used)) bound
  · rw [unused, Nat.le_zero] at bound
    exact targetsUsing_eq_nil_iff.mpr (List.count_eq_zero.mp bound)

/-- The target of a manifest lists one package, and does not refer to the other. -/
theorem strings_usageCount_mixedManifest :
    ((ofText Edit.mixedManifest).targets.flatMap Target.dependencies).count ['b'] =
        (Source.ofText Edit.mixedManifest).usageCount ['b'] ∧
      0 < (Source.ofText Edit.mixedManifest).usageCount ['b'] ∧
      (ofText Edit.mixedManifest).targetsUsing ['d'] = [] := by
  obtain ⟨-, equal, used, -⟩ := strings_usageCount Edit.mixedManifest ['b']
  obtain ⟨-, -, -, unused⟩ := strings_usageCount Edit.mixedManifest ['d']
  refine ⟨equal ?_, used ?_, unused ?_⟩
  · rw [Source.references, ← Source.calls_eq]
    decide +kernel
  · change ((Source.ofText Edit.mixedManifest).targetCalls.map _).any _ = true
    rw [← Source.calls_eq]
    decide +kernel
  · rw [Source.usageCount, ← Source.calls_eq]
    decide +kernel

end Manifest

end SwiftWorkspace
