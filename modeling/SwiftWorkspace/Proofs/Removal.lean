import SwiftWorkspace.Proofs.Changes

/-!
# Removing a dependency from a plain manifest

Removing a dependency drops its references from the selected targets.  When no
target refers to it any more, its declarations go as well if they are to go.
-/

namespace SwiftWorkspace

namespace Manifest

def release (names : List Text) (dependency : Text) (manifest : Manifest) : Manifest :=
  { manifest with
    targets := manifest.targets.map fun target =>
      if target.name ∈ names then target.release dependency else target }

theorem release_nil (dependency : Text) (manifest : Manifest) :
    manifest.release [] dependency = manifest := by
  rw [release]
  simp

theorem release_release (dependency : Text) (target : Target) :
    (target.release dependency).release dependency = target.release dependency := by
  rw [Target.release, Target.release]
  simp [List.filter_filter]

theorem release_cons (name dependency : Text) (names : List Text) (manifest : Manifest) :
    (manifest.atTarget name (Target.release dependency)).release names dependency =
      manifest.release (name :: names) dependency := by
  rw [release, release, atTarget]
  simp only [List.map_map]
  refine congrArg (fun targets => Manifest.mk _ _ _ targets _) (List.map_congr_left ?_)
  intro target _
  rw [Function.comp_apply]
  have named : (target.release dependency).name = target.name := rfl
  by_cases same : target.name = name
  · have inside : target.name ∈ name :: names := by simp [same]
    rw [if_pos same, named, if_pos inside]
    split
    · exact release_release dependency target
    · rfl
  · rw [if_neg same]
    simp [same]

end Manifest

namespace Source

variable {source : Source} {dependency : Text}

/-- What removing the references of some targets leaves of a source. -/
structure ReleasedAll (source new : Source) (names : List Text) (dependency : Text) : Prop where
  tidy : new.Tidy
  manifest : Manifest.ofText new.text = (Manifest.ofText source.text).release names dependency
  entries : new.entries = source.entries.map fun entry =>
    if entry.1 ∈ names then (entry.1, unreferring dependency entry.2) else entry

def removeStep (dependency : Text) (state : Text × Bool) (target : Text) :
    Except EditError (Text × Bool) := do
  match ← Edit.removeFromTarget? state.1 target dependency with
  | some text => pure (text, true)
  | none => pure (state.1, state.2)

theorem removeFromTargets_eq (text : Text) (targets : List Text) :
    Edit.removeFromTargets text targets dependency =
      targets.foldlM (removeStep dependency) (text, false) := rfl

theorem removeStep_ok {text name : Text} {result : Option Text} (flag : Bool)
    (removed : Edit.removeFromTarget? text name dependency = .ok result) :
    removeStep dependency (text, flag) name = .ok (result.getD text, result.isSome || flag) := by
  rw [removeStep, removed]
  cases result <;> rfl

/-- References are removed from all given targets, if these are there. -/
theorem Tidy.removeSteps (tidy : source.Tidy) (names : List Text)
    (has : ∀ name ∈ names, source.Has name) (flag : Bool) :
    ∃ (new : Source) (removed : Bool),
      names.foldlM (removeStep dependency) (source.text, flag) = .ok (new.text, removed) ∧
        source.ReleasedAll new names dependency := by
  induction names generalizing source flag with
  | nil =>
      refine ⟨source, flag, rfl, tidy, (Manifest.release_nil ..).symm, ?_⟩
      simp
  | cons name names ih =>
      obtain ⟨middle, result, first, text, released⟩ := tidy.removeFromTarget? (has name (by simp))
      obtain ⟨new, removed, rest, all⟩ := ih released.tidy
        (fun other member => (released.has other).mpr (has other (.tail _ member)))
        (result.isSome || flag)
      refine ⟨new, removed, ?_, all.tidy, ?_, ?_⟩
      · rw [List.foldlM_cons, removeStep_ok flag first, text]
        exact rest
      · rw [all.manifest, released.manifest, Manifest.release_cons]
      · rw [all.entries, released.entries, List.map_map]
        refine List.map_congr_left fun entry _ => ?_
        rw [Function.comp_apply]
        by_cases same : entry.1 = name
        · simp [same, unreferring_unreferring]
        · simp [same]

theorem Tidy.removeSteps_missing (tidy : source.Tidy) {names : List Text}
    (missing : ∃ name ∈ names, ¬source.Has name) (flag : Bool) :
    ∃ name ∈ names, ¬source.Has name ∧
      names.foldlM (removeStep dependency) (source.text, flag) = .error (.targetNotFound name) := by
  induction names generalizing source flag with
  | nil => simp at missing
  | cons name names ih =>
      rw [List.foldlM_cons]
      by_cases has : source.Has name
      · have step : ∃ (middle : Source) (result : Option Text),
            Edit.removeFromTarget? source.text name dependency = .ok result ∧
              result.getD source.text = middle.text ∧ source.Released middle name dependency :=
          tidy.removeFromTarget? has
        obtain ⟨middle, result, first, text, released⟩ := step
        have later : ∃ name ∈ names, ¬middle.Has name := by
          obtain ⟨other, member, absent⟩ := missing
          rcases List.mem_cons.mp member with rfl | later
          · exact absurd has absent
          · exact ⟨other, later, (released.has other).not.mpr absent⟩
        obtain ⟨other, member, absent, failed⟩ := ih released.tidy later (result.isSome || flag)
        refine ⟨other, .tail _ member, (released.has other).not.mp absent, ?_⟩
        rw [removeStep_ok flag first, text]
        exact failed
      · refine ⟨name, .head _, has, ?_⟩
        rw [removeStep, tidy.removeFromTarget?_missing has]
        rfl

/-- The names of the targets are those of their forms. -/
theorem Tidy.has_iff (tidy : source.Tidy) (name : Text) :
    source.Has name ↔ name ∈ Edit.allTargets source.text := by
  rw [Has, Edit.allTargets, tidy.manifest, Outline.manifest]
  simp only [List.map_map, List.mem_map]
  rfl

/-- A manifest that says something about dependencies has an array for them. -/
theorem Tidy.exists_dependenciesSpan (tidy : source.Tidy)
    (some_declared : (Manifest.ofText source.text).dependencies ≠ []) :
    ∃ span, source.dependenciesSpan? = some span := by
  rw [tidy.manifest] at some_declared
  cases located : source.dependenciesSpan? with
  | some span => exact ⟨span, rfl⟩
  | none =>
      refine absurd ?_ some_declared
      rw [Outline.manifest, outline, located]
      rfl

structure Removed (source new : Source) (names : List Text) (dependency : Text)
    (isGone : Dependency → Bool) : Prop where
  tidy : new.Tidy
  manifest : Manifest.ofText new.text =
    { (Manifest.ofText source.text).release names dependency with
      dependencies := (Manifest.ofText source.text).dependencies.filter (!isGone ·) }
  entries : new.entries = source.entries.map fun entry =>
    if entry.1 ∈ names then (entry.1, unreferring dependency entry.2) else entry

/-- The references that are left are those in the targets that are not released. -/
theorem Removed.usageCount {new : Source} {names : List Text} {isGone : Dependency → Bool}
    (removed : source.Removed new names dependency isGone) :
    new.usageCount dependency =
      ((source.targetCalls.filter (·.name ∉ names)).map (source.referencesIn dependency)).sum := by
  have left : new.usageCount dependency = (source.targetCalls.map fun target =>
      if target.name ∈ names then 0 else source.referencesIn dependency target).sum := by
    rw [usageCount_entries, removed.entries, Source.entries, forms_outline]
    simp only [List.map_map]
    refine congrArg List.sum (List.map_congr_left fun target member => ?_)
    have named : (source.formOf target).name = target.name := rfl
    simp only [Function.comp_apply, named]
    split
    · exact countP_unreferring_self ..
    · exact usageCount_formOf member dependency
  rw [left]
  induction source.targetCalls with
  | nil => rfl
  | cons target targets ih =>
      by_cases named : target.name ∈ names
      · simpa [named] using ih
      · simpa [named] using ih

/-- The declarations that go when an identifier that resolves to a name is removed. -/
def goes (identifier dependency : Text) (dropDeclaration : Bool) (left : Nat)
    (declared : Dependency) : Bool :=
  dropDeclaration && left = 0 && declared.isMeantBy identifier dependency

theorem ReleasedAll.removed {new : Source} {names : List Text}
    (released : source.ReleasedAll new names dependency) {isGone : Dependency → Bool}
    (stays : ∀ declared ∈ (Manifest.ofText source.text).dependencies, !isGone declared) :
    source.Removed new names dependency isGone where
  tidy := released.tidy
  manifest := by
    rw [released.manifest, List.filter_eq_self.mpr stays]
    rfl
  entries := released.entries

theorem ReleasedAll.removeDeclarations {new : Source} {names : List Text}
    (released : source.ReleasedAll new names dependency) (identifier : Text)
    (declared : (Manifest.ofText source.text).dependencies ≠ []) :
    ∃ last : Source, Edit.removeDeclarations new.text identifier dependency = .ok last.text ∧
      last.usageCount dependency = new.usageCount dependency ∧
      source.Removed last names dependency (·.isMeantBy identifier dependency) := by
  have same : (Manifest.ofText new.text).dependencies =
      (Manifest.ofText source.text).dependencies := by
    rw [released.manifest]
    rfl
  obtain ⟨span, located⟩ := released.tidy.exists_dependenciesSpan (same ▸ declared)
  obtain ⟨last, removed, redeclared⟩ := released.tidy.removeDeclarations identifier located
  have entries : last.entries = new.entries := by
    rw [Source.entries, redeclared.forms]
    rfl
  refine ⟨last, removed, ?_, redeclared.tidy, ?_, entries.trans released.entries⟩
  · rw [usageCount_entries, entries, usageCount_entries]
  · rw [redeclared.manifest, released.manifest]
    rfl

theorem not_unknown {declared : List Dependency} {count : Nat} (known : declared ≠ [] ∨ count ≠ 0) :
    ¬(!!declared.isEmpty && decide (count = 0)) = true := by
  simpa [or_iff_not_imp_left] using known

theorem Tidy.remove (tidy : source.Tidy) {identifier : Text} {targets : Option (List Text)}
    (dropDeclaration : Bool)
    (resolved : (Manifest.ofText source.text).resolveName identifier = dependency)
    (known : Edit.meantDeclarations (Manifest.ofText source.text) identifier dependency ≠ [] ∨
      source.usageCount dependency ≠ 0)
    (has : ∀ name ∈ Edit.selectTargets targets (Edit.allTargets source.text), source.Has name) :
    ∃ (new : Source) (warnings : List EditWarning),
      Edit.remove source.text identifier targets dropDeclaration = .ok ⟨new.text, warnings⟩ ∧
        source.Removed new (Edit.selectTargets targets (Edit.allTargets source.text)) dependency
          (goes identifier dependency dropDeclaration (new.usageCount dependency)) := by
  have stepped : ∃ (reduced : Source) (removed : Bool),
      _ = Except.ok (reduced.text, removed) ∧ source.ReleasedAll reduced _ dependency :=
    tidy.removeSteps _ has false
  obtain ⟨reduced, removed, steps, released⟩ := stepped
  rw [← removeFromTargets_eq, Edit.allTargets] at steps
  simp only [Edit.remove, resolved, tidy.ofText_text, if_neg (not_unknown known), steps, pure,
    bind, Except.bind, Except.pure, released.tidy.ofText_text]
  by_cases drops : (dropDeclaration &&
      !(Edit.meantDeclarations (Manifest.ofText source.text) identifier dependency).isEmpty) = true
  · rw [if_pos drops]
    have dropping : dropDeclaration = true := (Bool.and_eq_true_iff.mp drops).1
    by_cases left : reduced.usageCount dependency = 0
    · have declared : (Manifest.ofText source.text).dependencies ≠ [] := by
        intro none_declared
        simp [Edit.meantDeclarations, none_declared] at drops
      obtain ⟨last, gone, usages, all⟩ := released.removeDeclarations identifier declared
      refine ⟨last, _, by rw [if_pos left, gone], all.tidy, ?_, all.entries⟩
      rw [all.manifest]
      simp [goes, dropping, usages, left]
    · refine ⟨reduced, _, by rw [if_neg left], released.removed ?_⟩
      simp [goes, left]
  · refine ⟨reduced, _, by rw [if_neg drops], released.removed ?_⟩
    intro declared member
    by_cases dropping : dropDeclaration = true
    · have unmeant : Edit.meantDeclarations (Manifest.ofText source.text) identifier
          dependency = [] := by
        simpa [dropping] using drops
      have other := List.filter_eq_nil_iff.mp unmeant declared member
      simp [goes, other]
    · simp [goes, dropping]

theorem Tidy.remove_missing (tidy : source.Tidy) {identifier : Text} {targets : Option (List Text)}
    (dropDeclaration : Bool)
    (resolved : (Manifest.ofText source.text).resolveName identifier = dependency)
    (known : Edit.meantDeclarations (Manifest.ofText source.text) identifier dependency ≠ [] ∨
      source.usageCount dependency ≠ 0)
    (missing : ∃ name ∈ Edit.selectTargets targets (Edit.allTargets source.text),
      ¬source.Has name) :
    ∃ name ∈ Edit.selectTargets targets (Edit.allTargets source.text), ¬source.Has name ∧
      Edit.remove source.text identifier targets dropDeclaration =
        .error (.targetNotFound name) := by
  have stepped : ∃ name ∈ _, ¬source.Has name ∧ List.foldlM (removeStep dependency) _ _ =
      Except.error (EditError.targetNotFound name) :=
    tidy.removeSteps_missing missing false
  obtain ⟨name, member, absent, steps⟩ := stepped
  refine ⟨name, member, absent, ?_⟩
  rw [← removeFromTargets_eq, Edit.allTargets] at steps
  simp only [Edit.remove, resolved, tidy.ofText_text, if_neg (not_unknown known), steps,
    bind, Except.bind]

theorem Tidy.remove_unknown (tidy : source.Tidy) {identifier : Text} (targets : Option (List Text))
    (dropDeclaration : Bool)
    (resolved : (Manifest.ofText source.text).resolveName identifier = dependency)
    (undeclared : Edit.meantDeclarations (Manifest.ofText source.text) identifier dependency = [])
    (unused : source.usageCount dependency = 0) :
    Edit.remove source.text identifier targets dropDeclaration =
      .error (.dependencyNotFound identifier) := by
  simp only [Edit.remove, resolved, tidy.ofText_text, undeclared, unused]
  rfl

theorem Tidy.removed_of_ok (tidy : source.Tidy) {identifier : Text} {targets : Option (List Text)}
    {dropDeclaration : Bool} {edited : Edited}
    (resolved : (Manifest.ofText source.text).resolveName identifier = dependency)
    (removed : Edit.remove source.text identifier targets dropDeclaration = .ok edited) :
    ∃ new : Source, edited.text = new.text ∧
      source.Removed new (Edit.selectTargets targets (Edit.allTargets source.text)) dependency
        (goes identifier dependency dropDeclaration (new.usageCount dependency)) := by
  by_cases known : Edit.meantDeclarations (Manifest.ofText source.text) identifier dependency ≠ [] ∨
      source.usageCount dependency ≠ 0
  · by_cases has : ∀ name ∈ Edit.selectTargets targets (Edit.allTargets source.text),
      source.Has name
    · obtain ⟨new, warnings, same, result⟩ := tidy.remove dropDeclaration resolved known has
      obtain rfl := Except.ok.inj (removed.symm.trans same)
      exact ⟨new, rfl, result⟩
    · obtain ⟨name, -, -, failed⟩ :=
        tidy.remove_missing dropDeclaration resolved known (by simpa using has)
      simp [failed] at removed
  · obtain ⟨undeclared, unused⟩ := not_or.mp known
    rw [not_not] at undeclared unused
    simp [tidy.remove_unknown targets dropDeclaration resolved undeclared unused] at removed

/-- When all targets are selected, no reference is left, and the declarations that are meant go. -/
theorem Tidy.removed_everywhere (tidy : source.Tidy) {new : Source} {identifier : Text}
    (removed : source.Removed new (Edit.allTargets source.text) dependency
      (goes identifier dependency true (new.usageCount dependency))) :
    new.usageCount dependency = 0 ∧
      source.Removed new (Edit.allTargets source.text) dependency
        (·.isMeantBy identifier dependency) := by
  have left : new.usageCount dependency = 0 := by
    have no_other : source.targetCalls.filter (·.name ∉ Edit.allTargets source.text) = [] := by
      refine List.filter_eq_nil_iff.mpr fun target member => ?_
      simpa using (tidy.has_iff target.name).mp
        ⟨source.formOf target, by rw [forms_outline]; exact List.mem_map_of_mem member, rfl⟩
    rw [removed.usageCount, no_other]
    rfl
  have all : goes identifier dependency true (new.usageCount dependency) =
      (·.isMeantBy identifier dependency) := by
    funext declared
    simp [goes, left]
  exact ⟨left, all ▸ removed⟩

end Source

/--
Removing a dependency from a plain manifest, where its identifier resolves to a
name.  It is not found exactly if no declaration is meant and no target refers to
the name.  Otherwise some selected target is not found exactly if one is not
there.  Otherwise the selected targets have no references to the name any more, all
others keep theirs, and the declarations that are meant go exactly if they are
to go and no reference is left; all else is read as before.
-/
theorem remove_of_plain {text : Text} (plain : Plain text) {identifier name : Text}
    (resolved : (Manifest.ofText text).resolveName identifier = name) (targets : Option (List Text))
    (dropDeclaration : Bool) {selected : List Text}
    (selects : Edit.selectTargets targets (Edit.allTargets text) = selected) :
    (Edit.remove text identifier targets dropDeclaration = .error (.dependencyNotFound identifier) ↔
      Edit.meantDeclarations (Manifest.ofText text) identifier name = [] ∧
        (Source.ofText text).usageCount name = 0) ∧
    (Edit.meantDeclarations (Manifest.ofText text) identifier name ≠ [] ∨
        (Source.ofText text).usageCount name ≠ 0 →
      ((∃ missing, Edit.remove text identifier targets dropDeclaration =
          .error (.targetNotFound missing)) ↔
        ∃ target ∈ selected, target ∉ Edit.allTargets text) ∧
      ((∀ target ∈ selected, target ∈ Edit.allTargets text) →
        ∃ edited, Edit.remove text identifier targets dropDeclaration = .ok edited ∧
          (Source.ofText edited.text).usageCount name =
            (((Source.ofText text).targetCalls.filter (·.name ∉ selected)).map
              ((Source.ofText text).referencesIn name)).sum ∧
          Manifest.ofText edited.text =
            { Manifest.ofText text with
              dependencies :=
                if dropDeclaration ∧ (Source.ofText edited.text).usageCount name = 0 then
                  (Manifest.ofText text).dependencies.filter (!·.isMeantBy identifier name)
                else (Manifest.ofText text).dependencies
              targets := (Manifest.ofText text).targets.map fun target =>
                if target.name ∈ selected then
                  { target with dependencies := target.dependencies.filter (· ≠ name) }
                else target })) := by
  obtain ⟨source, tidy, rfl⟩ := plain.exists_tidy
  subst selects
  simp only [tidy.ofText_text, ← tidy.has_iff]
  by_cases known : Edit.meantDeclarations (Manifest.ofText source.text) identifier name ≠ [] ∨
      source.usageCount name ≠ 0
  · have found : ¬(Edit.meantDeclarations (Manifest.ofText source.text) identifier name = [] ∧
        source.usageCount name = 0) := by
      rwa [not_and_or]
    by_cases has : ∀ target ∈ Edit.selectTargets targets (Edit.allTargets source.text),
        source.Has target
    · obtain ⟨new, warnings, removed, result⟩ := tidy.remove dropDeclaration resolved known has
      rw [removed]
      refine ⟨iff_of_false (by simp) found, fun _ => ⟨iff_of_false (by simp) ?_, fun _ => ?_⟩⟩
      · rintro ⟨target, member, absent⟩
        exact absent (has target member)
      · refine ⟨_, rfl, ?_, ?_⟩
        · simpa only [result.tidy.ofText_text] using result.usageCount
        · rw [result.manifest, result.tidy.ofText_text]
          by_cases dropped : dropDeclaration = true ∧ new.usageCount name = 0
          · simp [Source.goes, dropped, Manifest.release, Target.release]
          · have stays : ∀ declared, Source.goes identifier name dropDeclaration
                (new.usageCount name) declared = false := by
              intro declared
              simp only [Source.goes, Bool.and_eq_false_imp, Bool.and_eq_true, decide_eq_true_eq]
              exact fun both => absurd both dropped
            simp [stays, dropped, Manifest.release, Target.release]
    · have missing : ∃ target ∈ Edit.selectTargets targets (Edit.allTargets source.text),
          ¬source.Has target := by
        simpa using has
      obtain ⟨target, member, absent, failed⟩ :=
        tidy.remove_missing dropDeclaration resolved known missing
      rw [failed]
      refine ⟨iff_of_false (by simp) found, fun _ =>
        ⟨iff_of_true ⟨target, rfl⟩ missing, fun all => ?_⟩⟩
      exact absurd (all target member) absent
  · obtain ⟨undeclared, unused⟩ := not_or.mp known
    rw [not_not] at undeclared unused
    exact ⟨iff_of_true (tidy.remove_unknown targets dropDeclaration resolved undeclared unused)
      ⟨undeclared, unused⟩, fun contrary => absurd contrary known⟩

/-- A small manifest with a dependency and one reference to it. -/
def usedManifest : Text :=
  "Package(name: \"p\", dependencies: [.package(path: \"b\")], ".toList ++
    "targets: [.target(name: \"t\", dependencies: [\"b\"])])".toList

/-- The dependency of a small manifest is removed from its target and from the package. -/
theorem remove_usedManifest :
    ∃ edited, Edit.remove usedManifest ['b'] none true = .ok edited ∧
      (Manifest.ofText edited.text).dependencies = [] ∧
      ∀ target ∈ (Manifest.ofText edited.text).targets, ['b'] ∉ target.dependencies := by
  have plain : Plain usedManifest := by decide +kernel
  have declared : (Manifest.ofText usedManifest).dependencies =
      [⟨{ name := ['b'], path := some ['b'] }, by decide⟩] := by
    change (Source.ofText usedManifest).dependencies = _
    rw [← Source.declarations_eq]
    decide +kernel
  have names : Edit.allTargets usedManifest = [['t']] := by
    change ((Source.ofText usedManifest).targetCalls.map _).map Target.name = _
    rw [← Source.calls_eq]
    decide +kernel
  have resolved : (Manifest.ofText usedManifest).resolveName ['b'] = ['b'] := by
    rw [Manifest.resolveName, declared]
    decide +kernel
  have meant : Edit.meantDeclarations (Manifest.ofText usedManifest) ['b'] ['b'] ≠ [] := by
    rw [Edit.meantDeclarations, declared]
    decide +kernel
  have result := (remove_of_plain plain resolved none true names).2 (.inl meant)
  obtain ⟨edited, removed, left, manifest⟩ := result.2 (by simp [names])
  have unused : (Source.ofText edited.text).usageCount ['b'] = 0 := by
    rw [left, ← Source.calls_eq]
    decide +kernel
  refine ⟨edited, removed, ?_, fun target member => ?_⟩
  · rw [manifest, declared]
    simp [unused, Dependency.isMeantBy]
  · rw [manifest] at member
    obtain ⟨old, inside, rfl⟩ := List.mem_map.mp member
    have selected : old.name ∈ Edit.allTargets usedManifest := List.mem_map_of_mem inside
    rw [names] at selected
    rw [if_pos selected]
    simp

end SwiftWorkspace
