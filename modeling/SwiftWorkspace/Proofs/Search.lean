import SwiftWorkspace.Proofs.Locate

/-!
# Finding arrays in one pass

The site that counts for a label is the least good one.  It is found here in one
pass over the sites, without sorting them, so that the places of arrays in a given
text can be computed by evaluation.
-/

namespace SwiftWorkspace

def bestSite? (ok : LabelSite → Bool) : List LabelSite → Option LabelSite
  | [] => none
  | site :: sites =>
      match bestSite? ok sites with
      | none => if ok site then some site else none
      | some best => if ok site && site.le best then some site else some best

theorem bestSite?_eq (ok : LabelSite → Bool) (sites : List LabelSite) :
    bestSite? ok sites = leastSite? ok sites := by
  induction sites with
  | nil => exact (leastSite?_eq_none_iff.mpr (by simp)).symm
  | cons site sites ih =>
      rw [bestSite?, ih]
      cases best : leastSite? ok sites with
      | none =>
          have others := leastSite?_eq_none_iff.mp best
          cases here : ok site with
          | false =>
              refine (leastSite?_eq_none_iff.mpr ?_).symm
              simpa [here] using others
          | true =>
              refine (leastSite?_eq_some_iff.mpr ⟨.head _, here, ?_⟩).symm
              intro other member good
              rcases List.mem_cons.mp member with rfl | later
              · exact LabelSite.le_refl _
              · simp [others other later] at good
      | some found =>
          obtain ⟨member, good, least⟩ := leastSite?_eq_some_iff.mp best
          simp only
          split
          case isTrue first =>
              obtain ⟨here, le⟩ := Bool.and_eq_true_iff.mp first
              refine (leastSite?_eq_some_iff.mpr ⟨.head _, here, ?_⟩).symm
              intro other inside other_good
              rcases List.mem_cons.mp inside with rfl | later
              · exact LabelSite.le_refl _
              · exact LabelSite.le_trans _ _ _ le (least other later other_good)
          case isFalse notFirst =>
              refine (leastSite?_eq_some_iff.mpr ⟨.tail _ member, good, ?_⟩).symm
              intro other inside other_good
              rcases List.mem_cons.mp inside with rfl | later
              · have total := LabelSite.le_total other found
                rw [other_good, Bool.true_and, Bool.not_eq_true] at notFirst
                simpa [notFirst] using total
              · exact least other later other_good

namespace Source

variable (source : Source)

/-- The inside of a label's array, found in one pass. -/
def locate? (label : Text) (excluded : List Span) : Option Span :=
  (bestSite? (source.arraysAt excluded) (source.labelSites label source.whole)).bind fun site =>
    source.arrayBehind? site.position source.length

theorem labeledArray?_eq_locate (label : Text) (excluded : List Span) :
    source.labeledArray? label excluded = source.locate? label excluded := by
  rw [labeledArray?_eq, locate?, bestSite?_eq, arraySite?]

theorem nameSite?_eq : source.nameSite? =
    bestSite? (fun site => (source.nameBehind? site.position).isSome)
      (source.labelSites Field.name.label source.whole) :=
  (bestSite?_eq _ _).symm

end Source

/-- The insides of the arrays of a manifest, by field, and the site of its name. -/
structure Landmarks where
  platforms : Option Span
  products : Option Span
  dependencies : Option Span
  targets : Option Span
  name : Option LabelSite

/-- The insides of all arrays. -/
def Landmarks.spans (marks : Landmarks) : List Span :=
  marks.platforms.toList ++
    (marks.products.toList ++ (marks.dependencies.toList ++ marks.targets.toList))

namespace Source

def landmarks (source : Source) : Landmarks :=
  let targets := source.locate? Field.targets.label []
  let products := source.locate? Field.products.label []
  { platforms := source.locate? Field.platforms.label []
    products
    dependencies := source.locate? Field.dependencies.label (targets.toList ++ products.toList)
    targets
    name := bestSite? (fun site => (source.nameBehind? site.position).isSome)
      (source.labelSites Field.name.label source.whole) }

theorem landmarks_eq (source : Source) : source.landmarks =
    ⟨source.platformsSpan?, source.productsSpan?, source.dependenciesSpan?, source.targetsSpan?,
      source.nameSite?⟩ := by
  rw [landmarks, nameSite?_eq]
  simp only [platformsSpan?, productsSpan?, dependenciesSpan?, targetsSpan?,
    labeledArray?_eq_locate]

theorem dependencies_landmarks (source : Source) :
    source.landmarks.dependencies = source.dependenciesSpan? := by
  rw [landmarks_eq]

def calls (source : Source) : List TargetCall :=
  (source.landmarks.targets.map fun span =>
    (source.elements span).filterMap source.targetCallOf?).getD []

theorem calls_eq (source : Source) : source.calls = source.targetCalls := by
  rw [calls, landmarks_eq, targetCalls]
  cases source.targetsSpan? <;> rfl

def declarations (source : Source) : List Dependency :=
  (source.landmarks.dependencies.map fun span =>
    (source.elements span).filterMap source.dependencyIn?).getD []

theorem declarations_eq (source : Source) : source.declarations = source.dependencies := by
  rw [declarations, landmarks_eq, dependencies]
  cases source.dependenciesSpan? <;> rfl

end Source

end SwiftWorkspace
