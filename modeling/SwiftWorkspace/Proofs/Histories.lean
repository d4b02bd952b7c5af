import SwiftWorkspace.Proofs.Insertion
import SwiftWorkspace.Proofs.Removal

/-!
# Histories of edits

Edits of the dependencies of a manifest can follow each other in any order and any
number.  A plain manifest stays plain all the way, and apart from dependencies all
that is read from it stays as it was.
-/

namespace SwiftWorkspace

inductive ManifestEdit where
  | insert (dependency : Dependency) (targets : Option (List Text)) (product : Option Text)
  | remove (identifier : Text) (targets : Option (List Text)) (dropDeclaration : Bool)
  | addToTarget (target dependency : Text)
  | removeFromTarget (target dependency : Text)

namespace ManifestEdit

def run (text : Text) : ManifestEdit → Except EditError Text
  | insert dependency targets product => Edit.insert text dependency targets product
  | remove identifier targets dropDeclaration =>
      (Edit.remove text identifier targets dropDeclaration).map Edited.text
  | addToTarget target dependency => Edit.addToTarget text target dependency
  | removeFromTarget target dependency =>
      (Edit.removeFromTarget? text target dependency).map (·.getD text)

/-- The text after an edit; one that fails leaves it as it was. -/
def step (text : Text) (edit : ManifestEdit) : Text := (edit.run text).toOption.getD text

/-- Whether what is to be written has no line feed, and its version is accepted. -/
def Linear : ManifestEdit → Prop
  | insert dependency _ product =>
      dependency.Linear ∧ (∀ version ∈ dependency.version, Requirement.isValid version) ∧
        ∀ name ∈ product, '\n' ∉ name
  | remove .. => True
  | addToTarget _ dependency => '\n' ∉ dependency
  | removeFromTarget .. => True

end ManifestEdit

namespace Manifest

def bare (manifest : Manifest) : Manifest :=
  { manifest with
    dependencies := []
    targets := manifest.targets.map fun target => { target with dependencies := [] } }

theorem bare_atTarget (manifest : Manifest) (name : Text) {change : Target → Target}
    (keeps : ∀ target, { change target with dependencies := [] } =
      { target with dependencies := [] }) :
    (manifest.atTarget name change).bare = manifest.bare := by
  rw [bare, bare, atTarget]
  simp only [List.map_map]
  refine congrArg (fun targets => Manifest.mk _ _ _ targets _) (List.map_congr_left ?_)
  intro target _
  rw [Function.comp_apply]
  split
  · exact keeps target
  · rfl

theorem bare_refer (manifest : Manifest) (names : List Text) (reference : Text) :
    (manifest.refer names reference).bare = manifest.bare := by
  rw [bare, bare, refer]
  simp only [List.map_map]
  rfl

theorem bare_release (manifest : Manifest) (names : List Text) (dependency : Text) :
    (manifest.release names dependency).bare = manifest.bare := by
  rw [bare, bare, release]
  simp only [List.map_map]
  refine congrArg (fun targets => Manifest.mk _ _ _ targets _) (List.map_congr_left ?_)
  intro target _
  rw [Function.comp_apply]
  split <;> rfl

/-- Manifests that agree without dependencies agree in everything else. -/
theorem eq_of_bare {old new : Manifest} (same : new.bare = old.bare) :
    new.name = old.name ∧ new.platforms = old.platforms ∧ new.products = old.products ∧
      new.targets.map (fun target => (target.name, target.kind, target.path)) =
        old.targets.map fun target => (target.name, target.kind, target.path) := by
  refine ⟨(congrArg name same :), (congrArg platforms same :), (congrArg products same :), ?_⟩
  have headers := congrArg (fun manifest : Manifest =>
    manifest.targets.map fun target => (target.name, target.kind, target.path)) same
  simpa [bare, Function.comp_def] using headers

end Manifest

namespace Source

variable {source : Source}

/-- What an edit of dependencies leaves of a source. -/
structure Survives (source new : Source) : Prop where
  tidy : new.Tidy
  bare : (Manifest.ofText new.text).bare = (Manifest.ofText source.text).bare

theorem Tidy.survives_addToTarget (tidy : source.Tidy) {target dependency result : Text}
    (noFeed : '\n' ∉ dependency)
    (added : Edit.addToTarget source.text target dependency = .ok result) :
    ∃ new : Source, result = new.text ∧ source.Survives new := by
  by_cases accepts : source.Accepts target
  · obtain ⟨new, same, referred⟩ := tidy.addToTarget noFeed accepts
    obtain rfl := Except.ok.inj (added.symm.trans same)
    refine ⟨new, rfl, referred.tidy, ?_⟩
    rw [referred.manifest]
    exact Manifest.bare_atTarget _ _ fun _ => rfl
  · have failed : ∃ error, Edit.addToTarget source.text target dependency = .error error :=
      tidy.orderly.addToTarget_error accepts
    obtain ⟨error, failed⟩ := failed
    simp [failed] at added

theorem Tidy.survives_removeFromTarget (tidy : source.Tidy) {target dependency : Text}
    {result : Option Text}
    (removed : Edit.removeFromTarget? source.text target dependency = .ok result) :
    ∃ new : Source, result.getD source.text = new.text ∧ source.Survives new := by
  by_cases has : source.Has target
  · have released : ∃ (new : Source) (result : Option Text),
        Edit.removeFromTarget? source.text target dependency = .ok result ∧
          result.getD source.text = new.text ∧ source.Released new target dependency :=
      tidy.removeFromTarget? has
    obtain ⟨new, other, same, text, released⟩ := released
    obtain rfl := Except.ok.inj (removed.symm.trans same)
    refine ⟨new, text, released.tidy, ?_⟩
    rw [released.manifest]
    exact Manifest.bare_atTarget _ _ fun _ => rfl
  · simp [tidy.removeFromTarget?_missing has] at removed

theorem Tidy.survives_insert (tidy : source.Tidy) {dependency : Dependency}
    {targets : Option (List Text)} {product : Option Text} {result : Text}
    (linear : dependency.Linear)
    (accepted : ∀ version ∈ dependency.version, Requirement.isValid version)
    (noFeed : ∀ name ∈ product, '\n' ∉ name)
    (inserted : Edit.insert source.text dependency targets product = .ok result) :
    ∃ new : Source, result = new.text ∧ source.Survives new := by
  have reference := noFeed_reference linear noFeed
  obtain ⟨piece, declared, written⟩ := Dependency.exists_written linear accepted
  obtain ⟨new, same, -, outcome⟩ := tidy.inserted_of_ok written reference inserted
  refine ⟨new, same, outcome.tidy, ?_⟩
  rw [outcome.manifest, Manifest.bare_refer]
  rfl

theorem Tidy.survives_remove (tidy : source.Tidy) {identifier : Text}
    {targets : Option (List Text)} {dropDeclaration : Bool} {edited : Edited}
    (removed : Edit.remove source.text identifier targets dropDeclaration = .ok edited) :
    ∃ new : Source, edited.text = new.text ∧ source.Survives new := by
  obtain ⟨new, text, result⟩ := tidy.removed_of_ok rfl removed
  refine ⟨new, text, result.tidy, ?_⟩
  rw [result.manifest, ← Manifest.bare_release (Manifest.ofText source.text)
    (Edit.selectTargets targets (Edit.allTargets source.text))
    ((Manifest.ofText source.text).resolveName identifier)]
  rfl

/-- After an edit a tidy source is tidy again and says the same but for dependencies. -/
theorem Tidy.survives_step (tidy : source.Tidy) {edit : ManifestEdit} (linear : edit.Linear) :
    ∃ new : Source, edit.step source.text = new.text ∧ source.Survives new := by
  rw [ManifestEdit.step]
  cases outcome : edit.run source.text with
  | error error => exact ⟨source, rfl, tidy, rfl⟩
  | ok result =>
      change ∃ new : Source, result = new.text ∧ source.Survives new
      cases edit with
      | insert dependency targets product =>
          obtain ⟨dependency_linear, accepted, noFeed⟩ := linear
          exact tidy.survives_insert dependency_linear accepted noFeed outcome
      | remove identifier targets dropDeclaration =>
          rw [ManifestEdit.run] at outcome
          cases removed : Edit.remove source.text identifier targets dropDeclaration with
          | error error => simp [removed, Except.map] at outcome
          | ok edited =>
              rw [removed] at outcome
              obtain rfl := Except.ok.inj outcome
              exact tidy.survives_remove removed
      | addToTarget target dependency => exact tidy.survives_addToTarget linear outcome
      | removeFromTarget target dependency =>
          rw [ManifestEdit.run] at outcome
          cases removed : Edit.removeFromTarget? source.text target dependency with
          | error error => simp [removed, Except.map] at outcome
          | ok found =>
              rw [removed] at outcome
              obtain rfl := Except.ok.inj outcome
              exact tidy.survives_removeFromTarget removed

/-- After any number of edits a tidy source is tidy again and says the same but for dependencies. -/
theorem Tidy.survives_history (tidy : source.Tidy) {history : List ManifestEdit}
    (linear : ∀ edit ∈ history, edit.Linear) {state : Text}
    (member : state ∈ history.scanl ManifestEdit.step source.text) :
    ∃ new : Source, state = new.text ∧ source.Survives new := by
  induction history generalizing source with
  | nil =>
      rw [List.scanl_nil, List.mem_singleton] at member
      exact ⟨source, member, tidy, rfl⟩
  | cons edit history ih =>
      rw [List.scanl_cons, List.mem_cons] at member
      rcases member with rfl | later
      · exact ⟨source, rfl, tidy, rfl⟩
      · obtain ⟨middle, stepped, first⟩ := tidy.survives_step (linear edit (by simp))
        rw [stepped] at later
        obtain ⟨new, same, rest⟩ :=
          ih first.tidy (fun other inside => linear other (.tail _ inside)) later
        exact ⟨new, same, rest.tidy, rest.bare.trans first.bare⟩

end Source

/--
A plain manifest stays plain in every history of edits without line feeds and with
accepted versions, and after each step its name, platforms and products are the ones
at the start, and so are the names, kinds and paths of its targets, in their order.
-/
theorem plain_after_edits {history : List ManifestEdit} (linear : ∀ edit ∈ history, edit.Linear)
    {text : Text} (plain : Plain text) :
    ∀ state ∈ history.scanl ManifestEdit.step text,
      Plain state ∧
        (Manifest.ofText state).name = (Manifest.ofText text).name ∧
        (Manifest.ofText state).platforms = (Manifest.ofText text).platforms ∧
        (Manifest.ofText state).products = (Manifest.ofText text).products ∧
        (Manifest.ofText state).targets.map
          (fun target => (target.name, target.kind, target.path)) =
          (Manifest.ofText text).targets.map fun target =>
            (target.name, target.kind, target.path) := by
  obtain ⟨source, tidy, rfl⟩ := plain.exists_tidy
  intro state member
  obtain ⟨new, rfl, survives⟩ := tidy.survives_history linear member
  exact ⟨survives.tidy.plain, Manifest.eq_of_bare survives.bare⟩

/-- A dependency is inserted, one of its references is doubled, and all are removed. -/
def smallHistory : List ManifestEdit :=
  [.insert smallDependency none (some ['c']), .addToTarget ['t'] ['c'],
    .removeFromTarget ['t'] ['c'], .remove ['b'] none true]

/-- A small manifest keeps its name and its targets all the way. -/
theorem plain_after_smallHistory :
    Plain (smallHistory.foldl ManifestEdit.step smallManifest) ∧
      (Manifest.ofText (smallHistory.foldl ManifestEdit.step smallManifest)).name =
        (Manifest.ofText smallManifest).name ∧
      (Manifest.ofText (smallHistory.foldl ManifestEdit.step smallManifest)).targets.map
        Target.name =
        (Manifest.ofText smallManifest).targets.map Target.name := by
  have dependency : smallDependency.Linear := by
    constructor <;> decide +kernel
  have linear : ∀ edit ∈ smallHistory, edit.Linear := by
    have unversioned : smallDependency.version = none := rfl
    simp [smallHistory, ManifestEdit.Linear, dependency, unversioned]
  have last : smallHistory.foldl ManifestEdit.step smallManifest ∈
      smallHistory.scanl ManifestEdit.step smallManifest := by
    simp [smallHistory]
  obtain ⟨plain, name, -, -, headers⟩ := plain_after_edits linear plain_smallManifest _ last
  have names := congrArg (List.map Prod.fst) headers
  exact ⟨plain, name, by simpa [Function.comp_def] using names⟩

end SwiftWorkspace
