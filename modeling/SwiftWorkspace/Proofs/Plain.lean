import SwiftWorkspace.Proofs.Redirects
import SwiftWorkspace.Proofs.Search

/-!
# Plain manifests

A manifest is plain when its literals are terminated, its arrays lie apart from
each other and from the name of the package, no comment stands in an array of
dependencies, and its targets have different names.
-/

namespace SwiftWorkspace

open Kind (Scans chars)

/-- Whether a text is a manifest whose dependencies can be edited without surprises. -/
structure Plain (text : Text) : Prop where
  terminates : Kind.terminates text
  /-- The arrays of platforms, products, package dependencies and targets are disjoint. -/
  apart : (Source.ofText text).arraySpans.Pairwise Span.Apart
  /-- The name of the package is read from outside of these arrays, if there is one. -/
  named : (Source.ofText text).Named
  /-- No comment lies inside of the array of the package's dependencies. -/
  declarations : ∀ span ∈ (Source.ofText text).dependenciesSpan?,
    Quiet ((Source.ofText text).cellsIn span)
  /-- No comment lies inside of an array of a target's dependencies. -/
  references : ∀ target ∈ (Source.ofText text).targetCalls,
    ∀ span ∈ (Source.ofText text).targetDependencies? target,
      Quiet ((Source.ofText text).cellsIn span)
  distinct : ((Source.ofText text).targetCalls.map TargetCall.name).Nodup

section Check

instance (left right : Span) : Decidable (left.Apart right) := inferInstanceAs (Decidable (_ ∨ _))

instance (inner : List Cell) : Decidable (Quiet inner) :=
  inferInstanceAs (Decidable (∀ cell ∈ inner, cell.kind ≠ .comment))

def Plain.check (text : Text) : Bool :=
  let source := Source.ofText text
  let marks := source.landmarks
  let isQuiet := fun span => decide (Quiet (source.cellsIn span))
  Kind.terminates text && decide (marks.spans.Pairwise Span.Apart) &&
    (marks.name.all fun site => marks.spans.all fun span => !span.holds site.position) &&
    marks.dependencies.all isQuiet &&
    (source.calls.all fun target => (source.targetDependencies? target).all isQuiet) &&
    decide (source.calls.map TargetCall.name).Nodup

theorem Plain.check_iff {text : Text} : Plain.check text = true ↔ Plain text := by
  rw [Plain.check]
  simp only [Source.landmarks_eq, Landmarks.spans, Source.calls_eq, Bool.and_eq_true,
    decide_eq_true_eq]
  constructor
  · rintro ⟨⟨⟨⟨⟨terminates, apart⟩, named⟩, declarations⟩, references⟩, distinct⟩
    refine ⟨terminates, apart, ?_, ?_, ?_, distinct⟩
    · intro site found span member
      have outside := List.all_eq_true.mp ((Option.all_eq_true ..).mp named site found) span member
      simpa using outside
    · intro span found
      simpa using (Option.all_eq_true ..).mp declarations span found
    · intro target member span found
      have quiet := List.all_eq_true.mp references target member
      simpa using (Option.all_eq_true ..).mp quiet span found
  · intro plain
    refine ⟨⟨⟨⟨⟨plain.terminates, plain.apart⟩, ?_⟩, ?_⟩, ?_⟩, plain.distinct⟩
    · refine (Option.all_eq_true ..).mpr fun site found =>
        List.all_eq_true.mpr fun span member => ?_
      simpa using plain.named site found span member
    · refine (Option.all_eq_true ..).mpr fun span found => ?_
      simpa using plain.declarations span found
    · refine List.all_eq_true.mpr fun target member =>
        (Option.all_eq_true ..).mpr fun span found => ?_
      simpa using plain.references target member span found

instance (text : Text) : Decidable (Plain text) := decidable_of_iff _ Plain.check_iff

/-- A small manifest with a target that has no dependencies yet. -/
def smallManifest : Text :=
  "Package(name: \"p\", dependencies: [], targets: [.target(name: \"t\")])".toList

theorem plain_smallManifest : Plain smallManifest := by decide +kernel

end Check

namespace Source

/-- A source is sound exactly when all literals of its text are terminated. -/
theorem sound_ofText_iff {text : Text} : (ofText text).Sound ↔ Kind.terminates text := by
  constructor
  · rintro ⟨final, scans, closes⟩
    have same := scans.closesFrom
    rw [List.append_nil, closes] at same
    have whole : chars (ofText text).cells = text := text_ofText text
    rwa [whole] at same
  · exact sound_ofText

/-- Whether the source of a plain text has what edits need. -/
structure Tidy (source : Source) : Prop where
  orderly : source.Orderly
  named : source.Named
  declarations : ∀ inner ∈ source.outline.dependencies, Quiet inner
  references : ∀ form ∈ source.outline.forms, Quiet form.content

theorem orderly_ofText_iff {text : Text} : (ofText text).Orderly ↔ Kind.terminates text ∧
    (ofText text).arraySpans.Pairwise Span.Apart ∧
      ((ofText text).targetCalls.map TargetCall.name).Nodup := by
  have names : (ofText text).outline.forms.map TargetForm.name =
      (ofText text).targetCalls.map TargetCall.name := by
    rw [forms_outline, List.map_map]
    rfl
  constructor
  · intro orderly
    exact ⟨sound_ofText_iff.mp orderly.sound, orderly.apart, names ▸ orderly.distinct⟩
  · rintro ⟨terminates, apart, distinct⟩
    exact ⟨sound_ofText terminates, apart, names ▸ distinct⟩

section Arrays

variable {source : Source} {holds : List Cell → Prop}

/-- What holds of the package's dependencies is known from the outline. -/
theorem forall_declarations : (∀ inner ∈ source.outline.dependencies, holds inner) ↔
    ∀ span ∈ source.dependenciesSpan?, holds (source.cellsIn span) := by
  have declared : source.outline.dependencies = source.dependenciesSpan?.map source.cellsIn := rfl
  simp [declared]

theorem forall_references (empty : holds []) : (∀ form ∈ source.outline.forms, holds form.content) ↔
    ∀ target ∈ source.targetCalls, ∀ span ∈ source.targetDependencies? target,
      holds (source.cellsIn span) := by
  rw [forms_outline, List.forall_mem_map]
  refine forall₂_congr fun target _ => ?_
  rw [TargetForm.content, dependencies_formOf]
  cases source.targetDependencies? target with
  | none => simpa using empty
  | some span => simp

end Arrays

theorem tidy_ofText_iff {text : Text} : (ofText text).Tidy ↔ Plain text := by
  have empty : Quiet [] := by simp [Quiet]
  constructor
  · intro tidy
    obtain ⟨terminates, apart, distinct⟩ := orderly_ofText_iff.mp tidy.orderly
    exact ⟨terminates, apart, tidy.named, forall_declarations.mp tidy.declarations,
      (forall_references empty).mp tidy.references, distinct⟩
  · intro plain
    exact ⟨orderly_ofText_iff.mpr ⟨plain.terminates, plain.apart, plain.distinct⟩, plain.named,
      forall_declarations.mpr plain.declarations, (forall_references empty).mpr plain.references⟩

theorem Tidy.plain {source : Source} (tidy : source.Tidy) : Plain source.text := by
  rw [← tidy_ofText_iff, tidy.orderly.sound.ofText_text]
  exact tidy

theorem Tidy.ofText_text {source : Source} (tidy : source.Tidy) : ofText source.text = source :=
  tidy.orderly.sound.ofText_text

end Source

/--
Whether elements can be put into the arrays of dependencies of a text: unlike in a plain
one, there may be comments behind elements that do not go over a line feed, and the name of
the package may be read from anywhere.
-/
structure Extensible (text : Text) : Prop where
  terminates : Kind.terminates text
  /-- The arrays of platforms, products, package dependencies and targets are disjoint. -/
  apart : (Source.ofText text).arraySpans.Pairwise Span.Apart
  declarations : ∀ span ∈ (Source.ofText text).dependenciesSpan?,
    Receptive ((Source.ofText text).cellsIn span)
  references : ∀ target ∈ (Source.ofText text).targetCalls,
    ∀ span ∈ (Source.ofText text).targetDependencies? target,
      Receptive ((Source.ofText text).cellsIn span)
  distinct : ((Source.ofText text).targetCalls.map TargetCall.name).Nodup

theorem Plain.extensible {text : Text} (plain : Plain text) : Extensible text :=
  ⟨plain.terminates, plain.apart, fun span found => (plain.declarations span found).receptive,
    fun target member span found => (plain.references target member span found).receptive,
      plain.distinct⟩

namespace Source

/-- Whether the source of an extensible text has room for more elements. -/
structure Roomy (source : Source) : Prop where
  orderly : source.Orderly
  declarations : ∀ inner ∈ source.outline.dependencies, Receptive inner
  references : ∀ form ∈ source.outline.forms, Receptive form.content

theorem roomy_ofText_iff {text : Text} : (ofText text).Roomy ↔ Extensible text := by
  have empty : Receptive [] := Quiet.receptive (by simp [Quiet])
  constructor
  · intro roomy
    obtain ⟨terminates, apart, distinct⟩ := orderly_ofText_iff.mp roomy.orderly
    exact ⟨terminates, apart, forall_declarations.mp roomy.declarations,
      (forall_references empty).mp roomy.references, distinct⟩
  · intro extensible
    exact ⟨orderly_ofText_iff.mpr ⟨extensible.terminates, extensible.apart, extensible.distinct⟩,
      forall_declarations.mpr extensible.declarations,
      (forall_references empty).mpr extensible.references⟩

theorem Tidy.roomy {source : Source} (tidy : source.Tidy) : source.Roomy :=
  ⟨tidy.orderly, fun inner found => (tidy.declarations inner found).receptive,
    fun form member => (tidy.references form member).receptive⟩

end Source

theorem Plain.exists_tidy {text : Text} (plain : Plain text) :
    ∃ source : Source, source.Tidy ∧ text = source.text :=
  ⟨Source.ofText text, Source.tidy_ofText_iff.mpr plain, (Source.text_ofText text).symm⟩

namespace Source

theorem Tidy.manifest {source : Source} (tidy : source.Tidy) :
    Manifest.ofText source.text = source.outline.manifest source.packageName := by
  rw [Manifest.ofText, tidy.ofText_text, manifest_outline]

section Follows

variable {source new : Source} {name : Text} {inner : List Cell}

/-- A source with other package dependencies without comments is tidy again. -/
theorem Tidy.of_declarations (tidy : source.Tidy) (follows : source.Follows new)
    (outline : new.outline = { source.outline with dependencies := some inner })
    (quiet : Quiet inner) : new.Tidy := by
  refine ⟨follows.orderly, (follows.named tidy.named).1, ?_, ?_⟩
  · rw [outline]
    rintro _ ⟨⟩
    exact quiet
  · rw [outline]
    exact tidy.references

/-- What holds of the dependencies of all targets does so when those of one are others. -/
theorem Redirects.forall_content {holds : List Cell → Prop}
    (redirects : source.Redirects new name inner)
    (here : holds inner) (others : ∀ form ∈ source.outline.forms, holds form.content) :
    ∀ form ∈ new.outline.forms, holds form.content := by
  intro form member
  rw [redirects.forms] at member
  obtain ⟨old, inside, rfl⟩ := List.mem_map.mp member
  split
  · exact here
  · exact others old inside

/-- A source with other dependencies of a target, without comments, is tidy again. -/
theorem Tidy.of_redirects (tidy : source.Tidy) (redirects : source.Redirects new name inner)
    (quiet : Quiet inner) : new.Tidy := by
  obtain ⟨targets, outline⟩ := redirects.outline
  refine ⟨redirects.follows.orderly, (redirects.follows.named tidy.named).1, ?_,
    redirects.forall_content quiet tidy.references⟩
  rw [outline]
  exact tidy.declarations

/-- A source with other receptive package dependencies is roomy again. -/
theorem Roomy.of_declarations (roomy : source.Roomy) (follows : source.Follows new)
    (outline : new.outline = { source.outline with dependencies := some inner })
    (receptive : Receptive inner) : new.Roomy := by
  refine ⟨follows.orderly, ?_, ?_⟩
  · rw [outline]
    rintro _ ⟨⟩
    exact receptive
  · rw [outline]
    exact roomy.references

/-- A source with other receptive dependencies of a target is roomy again. -/
theorem Roomy.of_redirects (roomy : source.Roomy)
    (redirects : source.Redirects new name inner) (receptive : Receptive inner) : new.Roomy := by
  obtain ⟨targets, outline⟩ := redirects.outline
  refine ⟨redirects.follows.orderly, ?_, redirects.forall_content receptive roomy.references⟩
  rw [outline]
  exact roomy.declarations

end Follows

end Source

end SwiftWorkspace
