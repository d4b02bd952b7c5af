import SwiftWorkspace.Proofs.CanonicalNames
import SwiftWorkspace.Proofs.Changes

/-!
# Inserting a dependency into a plain manifest

Inserting a dependency declares it behind the declarations that are there, and
adds one reference to each of the selected targets.  It succeeds exactly if there
is an array for the declaration and every selected target accepts a reference.
-/

namespace SwiftWorkspace

namespace Manifest

def refer (names : List Text) (reference : Text) (manifest : Manifest) : Manifest :=
  { manifest with
    targets := manifest.targets.map fun target =>
      { target with
        dependencies :=
          target.dependencies ++ List.replicate (names.count target.name) reference } }

theorem refer_nil (reference : Text) (manifest : Manifest) :
    manifest.refer [] reference = manifest := by
  rw [refer]
  simp

theorem refer_cons (name reference : Text) (names : List Text) (manifest : Manifest) :
    (manifest.atTarget name (Target.refer reference)).refer names reference =
      manifest.refer (name :: names) reference := by
  rw [refer, refer, atTarget]
  simp only [List.map_map]
  refine congrArg (fun targets => Manifest.mk _ _ _ targets _) (List.map_congr_left ?_)
  intro target _
  rw [Function.comp_apply]
  by_cases same : target.name = name
  · rw [if_pos same, List.count_cons]
    simp [Target.refer, same, List.replicate_succ]
  · rw [if_neg same, List.count_cons_of_ne (Ne.symm same)]

end Manifest

namespace Source

variable {source : Source} {reference : Text}

/-- What adding references to some targets leaves of a source. -/
structure ReferredAll (source new : Source) (names : List Text) (reference : Text) : Prop where
  tidy : new.Tidy
  manifest : Manifest.ofText new.text = (Manifest.ofText source.text).refer names reference
  entries : new.entries = source.entries.map fun entry =>
    (entry.1, entry.2 ++ List.replicate (names.count entry.1) (literalCells reference))

theorem Tidy.addToTargets (tidy : source.Tidy) (noFeed : '\n' ∉ reference) (names : List Text)
    (accepts : ∀ name ∈ names, source.Accepts name) :
    ∃ new : Source, Edit.addToTargets source.text names reference = .ok new.text ∧
      source.ReferredAll new names reference := by
  induction names generalizing source with
  | nil => exact ⟨source, rfl, tidy, by rw [Manifest.refer_nil], by simp⟩
  | cons name names ih =>
      obtain ⟨middle, first, referred⟩ := tidy.addToTarget noFeed (accepts name (by simp))
      obtain ⟨new, rest, all⟩ := ih referred.tidy fun other member =>
        (referred.accepts other).mpr (accepts other (.tail _ member))
      refine ⟨new, ?_, all.tidy, ?_, ?_⟩
      · rw [Edit.addToTargets, List.foldlM_cons, first]
        exact rest
      · rw [all.manifest, referred.manifest, Manifest.refer_cons]
      · rw [all.entries, referred.entries, List.map_map]
        refine List.map_congr_left fun entry _ => ?_
        rw [Function.comp_apply]
        by_cases same : entry.1 = name
        · rw [if_pos same, List.count_cons]
          simp [same, List.replicate_succ]
        · rw [if_neg same, List.count_cons_of_ne (Ne.symm same)]

theorem Roomy.addToTargets_error (roomy : source.Roomy) (noFeed : '\n' ∉ reference)
    {names : List Text} (rejects : ∃ name ∈ names, ¬source.Accepts name) :
    ∃ error, Edit.addToTargets source.text names reference = .error error := by
  induction names generalizing source with
  | nil => simp at rejects
  | cons name names ih =>
      rw [Edit.addToTargets, List.foldlM_cons]
      by_cases accepts : source.Accepts name
      · obtain ⟨middle, first, middle_roomy, same⟩ := roomy.addToTarget noFeed accepts
        obtain ⟨other, member, rejected⟩ := rejects
        rcases List.mem_cons.mp member with rfl | later
        · exact absurd accepts rejected
        · obtain ⟨error, failed⟩ := ih middle_roomy ⟨other, later, (same other).not.mpr rejected⟩
          rw [first]
          exact ⟨error, failed⟩
      · have failed : ∃ error, Edit.addToTarget source.text name reference = .error error :=
          roomy.orderly.addToTarget_error accepts
        obtain ⟨error, failed⟩ := failed
        exact ⟨error, by rw [failed]; rfl⟩

theorem accepts_iff {name : Text} : source.Accepts name ↔ ∃ target ∈ source.targetCalls,
    target.name = name ∧
      ((source.labeledValue? target.call.arguments Field.dependencies.label).isNone ∨
        (source.targetDependencies? target).isSome) := by
  have each (target : TargetCall) : (source.formOf target).Accepts ↔
      ((source.labeledValue? target.call.arguments Field.dependencies.label).isNone ∨
        (source.targetDependencies? target).isSome) := by
    rw [TargetForm.Accepts, asks_formOf, dependencies_formOf, Option.isSome_map,
      Option.isSome_eq_false_iff]
  rw [Accepts, forms_outline]
  constructor
  · rintro ⟨form, member, rfl, accepts⟩
    obtain ⟨target, inside, rfl⟩ := List.mem_map.mp member
    exact ⟨target, inside, rfl, (each target).mp accepts⟩
  · rintro ⟨target, inside, rfl, accepts⟩
    exact ⟨source.formOf target, List.mem_map_of_mem inside, rfl, (each target).mpr accepts⟩

/-- With other package dependencies the same targets accept references. -/
theorem Redeclared.accepts_iff {new : Source} {dependencies : List Dependency}
    (redeclared : source.Redeclared new dependencies) (name : Text) :
    new.Accepts name ↔ source.Accepts name := by
  rw [Accepts, Accepts, redeclared.forms]

theorem Redeclared.ordinaryTargets {new : Source} {dependencies : List Dependency}
    (redeclared : source.Redeclared new dependencies) :
    Edit.ordinaryTargets new.text = Edit.ordinaryTargets source.text := by
  rw [Edit.ordinaryTargets, redeclared.manifest]
  rfl

/-- Whether there is an array for a declaration, and all given targets accept references. -/
def Takes (source : Source) (names : List Text) : Prop :=
  source.dependenciesSpan?.isSome ∧ ∀ name ∈ names, source.Accepts name

structure Inserted (source new : Source) (names : List Text) (reference : Text)
    (declared : Dependency) : Prop where
  tidy : new.Tidy
  manifest : Manifest.ofText new.text =
    { Manifest.ofText source.text with
      dependencies := (Manifest.ofText source.text).dependencies ++ [declared] }.refer
        names reference
  entries : new.entries = source.entries.map fun entry =>
    (entry.1, entry.2 ++ List.replicate (names.count entry.1) (literalCells reference))

theorem Tidy.insert (tidy : source.Tidy) {dependency declared : Dependency} {piece : List Cell}
    (written : dependency.Written piece declared) {targets : Option (List Text)}
    {product : Option Text}
    (noFeed : '\n' ∉ (filled? product).getD (Reference.canonicalName dependency.name))
    (takes : source.Takes (Edit.selectTargets targets (Edit.ordinaryTargets source.text))) :
    ∃ new : Source, Edit.insert source.text dependency targets product = .ok new.text ∧
      source.Inserted new (Edit.selectTargets targets (Edit.ordinaryTargets source.text))
        ((filled? product).getD (Reference.canonicalName dependency.name)) declared := by
  obtain ⟨span, located⟩ := Option.isSome_iff_exists.mp takes.1
  obtain ⟨middle, first, redeclared⟩ := tidy.declare written located
  obtain ⟨new, rest, referred⟩ := redeclared.tidy.addToTargets noFeed
    (Edit.selectTargets targets (Edit.ordinaryTargets source.text))
    fun name member => (redeclared.accepts_iff name).mpr (takes.2 name member)
  refine ⟨new, ?_, referred.tidy, ?_, ?_⟩
  · rw [Edit.insert, first]
    simp only [bind, Except.bind, redeclared.ordinaryTargets]
    exact rest
  · rw [referred.manifest, redeclared.manifest]
  · rw [referred.entries, entries, redeclared.forms]
    rfl

/-- Without an array, or with a selected target that accepts no reference, inserting fails. -/
theorem Tidy.insert_error (tidy : source.Tidy) {dependency declared : Dependency}
    {piece : List Cell} (written : dependency.Written piece declared) {targets : Option (List Text)}
    {product : Option Text}
    (noFeed : '\n' ∉ (filled? product).getD (Reference.canonicalName dependency.name))
    (refuses : ¬source.Takes (Edit.selectTargets targets (Edit.ordinaryTargets source.text))) :
    ∃ error, Edit.insert source.text dependency targets product = .error error := by
  rw [Edit.insert]
  cases located : source.dependenciesSpan? with
  | none =>
      rw [tidy.declare_error located]
      exact ⟨_, rfl⟩
  | some span =>
      obtain ⟨middle, first, redeclared⟩ := tidy.declare written located
      have rejected : ∃ name ∈ Edit.selectTargets targets (Edit.ordinaryTargets source.text),
          ¬middle.Accepts name := by
        simpa [Takes, located, redeclared.accepts_iff] using refuses
      obtain ⟨error, failed⟩ := redeclared.tidy.roomy.addToTargets_error noFeed rejected
      rw [first]
      simp only [bind, Except.bind, redeclared.ordinaryTargets]
      exact ⟨error, failed⟩

theorem Tidy.inserted_of_ok (tidy : source.Tidy) {dependency declared : Dependency}
    {piece : List Cell}
    (written : dependency.Written piece declared) {targets : Option (List Text)}
    {product : Option Text} {result : Text}
    (noFeed : '\n' ∉ (filled? product).getD (Reference.canonicalName dependency.name))
    (inserted : Edit.insert source.text dependency targets product = .ok result) :
    ∃ new : Source, result = new.text ∧
      source.Takes (Edit.selectTargets targets (Edit.ordinaryTargets source.text)) ∧
      source.Inserted new (Edit.selectTargets targets (Edit.ordinaryTargets source.text))
        ((filled? product).getD (Reference.canonicalName dependency.name)) declared := by
  by_cases takes : source.Takes (Edit.selectTargets targets (Edit.ordinaryTargets source.text))
  · obtain ⟨new, same, outcome⟩ := tidy.insert written noFeed takes
    exact ⟨new, Except.ok.inj (inserted.symm.trans same), takes, outcome⟩
  · obtain ⟨error, failed⟩ := tidy.insert_error written noFeed takes
    simp [failed] at inserted

/-- The reference to a dependency without line feeds has none. -/
theorem noFeed_reference {dependency : Dependency} (linear : dependency.Linear)
    {product : Option Text} (noFeed : ∀ name ∈ product, '\n' ∉ name) :
    '\n' ∉ (filled? product).getD (Reference.canonicalName dependency.name) := by
  cases found : filled? product with
  | none => exact Reference.noFeed_canonicalName linear.name
  | some name => exact noFeed name (Dependency.mem_of_filled? found).1

end Source

/--
Inserting a dependency into a plain manifest succeeds exactly if an array of
package dependencies is found and each selected target exists and has either no
argument for dependencies or an array there.  The dependency is then declared
behind the others, each selected target has one more reference for each time that
it is selected, and all else is read as before.
-/
theorem insert_of_plain {text : Text} (plain : Plain text) {dependency : Dependency}
    (linear : dependency.Linear)
    (accepted : ∀ version ∈ dependency.version, Requirement.isValid version)
    (targets : Option (List Text)) (product : Option Text)
    (noFeed : ∀ name ∈ product, '\n' ∉ name) :
    ((∃ result, Edit.insert text dependency targets product = .ok result) ↔
      (Source.ofText text).dependenciesSpan?.isSome ∧
        ∀ name ∈ Edit.selectTargets targets (Edit.ordinaryTargets text),
          ∃ target ∈ (Source.ofText text).targetCalls, target.name = name ∧
            (((Source.ofText text).labeledValue? target.call.arguments
                Field.dependencies.label).isNone ∨
              ((Source.ofText text).targetDependencies? target).isSome)) ∧
    ∀ result, Edit.insert text dependency targets product = .ok result →
      ∃ declared, Dependency.ofDeclaration? dependency.declaration = some declared ∧
        Manifest.ofText result =
          { Manifest.ofText text with
            dependencies := (Manifest.ofText text).dependencies ++ [declared]
            targets := (Manifest.ofText text).targets.map fun target =>
              { target with
                dependencies := target.dependencies ++
                  List.replicate
                    ((Edit.selectTargets targets (Edit.ordinaryTargets text)).count target.name)
                    ((filled? product).getD (Reference.canonicalName dependency.name)) } } := by
  have reference := Source.noFeed_reference linear noFeed
  obtain ⟨source, tidy, rfl⟩ := plain.exists_tidy
  obtain ⟨piece, declared, written⟩ := Dependency.exists_written linear accepted
  rw [tidy.ofText_text]
  by_cases takes : source.Takes (Edit.selectTargets targets (Edit.ordinaryTargets source.text))
  · obtain ⟨new, inserted, outcome⟩ := tidy.insert written reference takes
    refine ⟨iff_of_true ⟨_, inserted⟩ ⟨takes.1, fun name member =>
      Source.accepts_iff.mp (takes.2 name member)⟩, fun result same => ?_⟩
    rw [inserted] at same
    obtain rfl := Except.ok.inj same
    exact ⟨declared, written.ofDeclaration?, outcome.manifest⟩
  · obtain ⟨error, failed⟩ := tidy.insert_error written reference takes
    refine ⟨iff_of_false ?_ ?_, fun result same => ?_⟩
    · rintro ⟨result, same⟩
      rw [failed] at same
      simp at same
    · rintro ⟨found, accepts⟩
      exact takes ⟨found, fun name member => Source.accepts_iff.mpr (accepts name member)⟩
    · rw [failed] at same
      simp at same

/-- A dependency at some address, without any requirement. -/
def smallDependency : Dependency := ⟨{ name := ['b'], url := some "https://h/b".toList }, by decide⟩

/-- Such a dependency is inserted into a small manifest and its target. -/
theorem insert_smallManifest :
    ∃ result, Edit.insert smallManifest smallDependency (some [['t']]) none = .ok result ∧
      ∃ declared, Dependency.ofDeclaration? smallDependency.declaration = some declared ∧
        (Manifest.ofText result).dependencies =
          (Manifest.ofText smallManifest).dependencies ++ [declared] := by
  have linear : smallDependency.Linear := by
    constructor <;> decide +kernel
  have inserted := insert_of_plain plain_smallManifest linear (by simp [smallDependency])
    (some [['t']]) none (by simp)
  have located : (Source.ofText smallManifest).dependenciesSpan?.isSome := by
    rw [← Source.dependencies_landmarks]
    decide +kernel
  have accepts : ∃ target ∈ (Source.ofText smallManifest).targetCalls, target.name = ['t'] ∧
      (((Source.ofText smallManifest).labeledValue? target.call.arguments
          Field.dependencies.label).isNone ∨
        ((Source.ofText smallManifest).targetDependencies? target).isSome) := by
    rw [← Source.calls_eq]
    decide +kernel
  obtain ⟨result, same⟩ := inserted.1.mpr ⟨located, by simpa [Edit.selectTargets] using accepts⟩
  obtain ⟨declared, written, manifest⟩ := inserted.2 result same
  exact ⟨result, same, declared, written, by rw [manifest]⟩

end SwiftWorkspace
