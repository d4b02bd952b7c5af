import Mathlib.Algebra.Order.BigOperators.Group.List
import Mathlib.Algebra.Order.Group.Nat
import SwiftWorkspace.Proofs.Deletion
import SwiftWorkspace.Proofs.Separators

/-!
# Unions of cuts

The cuts of a deletion come in no order, and they may overlap, touch or lie in one another.
Merged they are in order, and a position that stays lies between any two of them.  So they can
be cut from the last to the first, and what goes is what one cut or another covers.
-/

namespace SwiftWorkspace

theorem uncovered_eq_filter {α : Type} (covered : Nat → Bool) (position : Nat) (values : List α) :
    uncovered covered position values =
      ((values.zipIdx position).filter fun entry => !covered entry.2).map Prod.fst := by
  induction values generalizing position with
  | nil => rfl
  | cons value values ih =>
      rw [uncovered, List.zipIdx_cons, List.filter_cons, ih]
      cases covered position <;> rfl

namespace Span

variable {spans : List Span}

theorem Separate.gaps (separate : Separate spans)
    (ordered : ∀ span ∈ spans, span.start ≤ span.stop) : spans.Pairwise fun left right =>
      ∃ position, left.stop ≤ position ∧
        position < right.start ∧ covers spans position = false := by
  induction spans with
  | nil => exact .nil
  | cons span spans ih =>
      obtain ⟨later, separate⟩ := List.pairwise_cons.mp separate
      have inside (other : Span) (member : other ∈ spans) := ordered other (.tail _ member)
      constructor
      · intro right member
        refine ⟨span.stop, Nat.le_refl _, later right member, ?_⟩
        apply covers_eq_false_iff.mpr
        intro other found
        rcases List.mem_cons.mp found with rfl | behind
        · exact .inr (Nat.le_refl _)
        · exact .inl (later other behind)
      · apply (ih separate inside).imp_of_mem
        rintro left right member - ⟨position, behind, before, stays⟩
        have := later left member
        have := inside left member
        refine ⟨position, behind, before, ?_⟩
        rw [covers_cons, stays, Bool.or_false, ← Bool.not_eq_true, holds_iff]
        omega

/--
Whether spans are in order, with a position that stays between any two, and cover what others
cover.
-/
structure Unites (spans merged : List Span) : Prop where
  ordered : ∀ span ∈ merged, span.start ≤ span.stop
  increasing : merged.Pairwise fun left right => left.start < right.start ∧ left.stop < right.stop
  apart : merged.Pairwise fun left right =>
    ∃ position, left.stop ≤ position ∧ position < right.start ∧ covers spans position = false
  same : ∀ position, covers merged position = covers spans position

/-- Merging unites spans, however they lie. -/
theorem unites_merge (ordered : ∀ span ∈ spans, span.start ≤ span.stop) :
    Unites spans (merge spans) := by
  have bounds : ∀ span ∈ spans,
      0 ≤ span.start ∧ span.start ≤ span.stop ∧ span.stop ≤ (spans.map stop).sum := by
    intro span member
    exact ⟨Nat.zero_le _, ordered span member, List.le_sum_of_mem (List.mem_map_of_mem member)⟩
  obtain ⟨same, separate, merged⟩ := merge_spec bounds
  have inside (span : Span) (member : span ∈ merge spans) : span.start ≤ span.stop :=
    (merged span member).2.1
  refine ⟨inside, ?_, ?_, same⟩
  · apply separate.imp_of_mem
    intro left right left_member right_member before
    have := inside left left_member
    have := inside right right_member
    omega
  · apply (separate.gaps inside).imp
    rintro left right ⟨position, behind, before, stays⟩
    exact ⟨position, behind, before, (same position).symm.trans stays⟩

/--
The characters at the positions that no span covers; the first one of the text stands at
`start`.
-/
def outside (spans : List Span) (start : Nat) (text : Text) : Text :=
  ((text.zipIdx start).filter fun entry => !covers spans entry.2).map Prod.fst

theorem cutSpans_eq_outside {start : Nat} {block : Text}
    (ordered : ∀ span ∈ spans, span.start ≤ span.stop)
    (inside : ∀ span ∈ spans, start ≤ span.start ∧ span.stop ≤ start + block.length) :
    block.cutSpans ((merge spans).map (·.relativeTo start)) = outside spans start block := by
  have bounds : ∀ span ∈ spans,
      start ≤ span.start ∧ span.start ≤ span.stop ∧ span.stop ≤ start + block.length := by
    intro span member
    exact ⟨(inside span member).1, ordered span member, (inside span member).2⟩
  rw [Text.cutSpans_merge bounds, uncovered_eq_filter]
  rfl

end Span

namespace Source

variable {source : Source} {array : Span} {goes : Span → Bool}

theorem inOrder_elements (source : Source) (array : Span) :
    InOrder array.stop (source.elements array) ∧ ∀ element ∈ source.elements array, array.start ≤
      element.start := by
  have shared := shared_elementsFrom (pending_none _) (source.tells_cellsIn array)
  have size : (source.cellsIn array).length ≤ array.size := by
    rw [cellsIn]
    exact List.length_take_le _ _
  rw [Span.size] at size
  refine ⟨⟨?_, ?_⟩, fun element member => (shared.inside element member).1⟩
  · apply shared.parted.imp
    rintro first second ⟨position, behind, before, -⟩
    omega
  · intro element member
    have := shared.inside element member
    omega

theorem cutsFrom_inside (source : Source) (array : Span) (goes : Span → Bool) :
    ∀ cut ∈ source.cutsFrom array goes none none (source.elements array),
      array.start ≤ cut.start ∧ cut.start ≤ cut.stop ∧ cut.stop ≤ array.stop := by
  obtain ⟨inOrder, above⟩ := source.inOrder_elements array
  have passing : Passing array.stop none none (source.elements array) := ⟨inOrder, by simp, by simp⟩
  exact cutsFrom_bounds array.start passing (by simp) above

theorem length_textIn (ordered : array.start ≤ array.stop) (within : array.stop ≤ source.length) :
    array.start + (source.textIn array).length = array.stop := by
  rw [length] at within
  rw [textIn, List.length_map, cellsIn, List.length_take, List.length_drop, Span.size]
  omega

theorem deleteElements_eq (ordered : array.start ≤ array.stop)
    (within : array.stop ≤ source.length) {left : Text}
    (leaves : uncovered (Span.covers (source.cutsFrom array goes none none (source.elements array)))
      array.start
      (source.textIn array) = left) :
    source.deleteElements array goes =
      source.text.replaceSpan array (if (source.elements array).all goes && left.allBlank then []
        else left) := by
  have bounds : ∀ cut ∈ source.cutsFrom array goes none none (source.elements array),
      array.start ≤ cut.start ∧ cut.start ≤ cut.stop ∧
        cut.stop ≤ array.start + (source.textIn array).length := by
    rw [length_textIn ordered within]
    exact source.cutsFrom_inside array goes
  rw [deleteElements, Text.cutSpans_merge bounds, leaves]

end Source

/--
A deletion cuts the union of its spans.  However spans lie, those that they are merged into are
in order, have a position that stays between any two, and cover the same positions.  Out of
every text that the spans lie in, these cut the characters at the positions that are covered,
and nothing else.  The cuts of a deletion from an array of a text lie in the array, so that all
other characters stay, and none of the array stay where all elements go and blanks would be left.
-/
theorem deletions_cut_unions :
    (∀ spans : List Span, (∀ span ∈ spans, span.start ≤ span.stop) →
      Span.Unites spans (Span.merge spans)) ∧
      (∀ (spans : List Span) (block : Text) (start : Nat),
        (∀ span ∈ spans, span.start ≤ span.stop) →
        (∀ span ∈ spans, start ≤ span.start ∧ span.stop ≤ start + block.length) →
          block.cutSpans ((Span.merge spans).map (·.relativeTo start)) =
            Span.outside spans start block) ∧
      ∀ (source : Source) (array : Span) (goes : Span → Bool), array.start ≤ array.stop →
        array.stop ≤ source.length →
          ∃ cuts, cuts = source.cutsFrom array goes none none (source.elements array) ∧
            (∀ cut ∈ cuts, array.start ≤ cut.start ∧ cut.start ≤ cut.stop ∧ cut.stop ≤ array.stop) ∧
            source.deleteElements array goes =
              source.text.take array.start ++
                (if (source.elements array).all goes &&
                    (Span.outside cuts array.start (source.textIn array)).allBlank then []
                  else Span.outside cuts array.start (source.textIn array)) ++
                source.text.drop array.stop := by
  refine ⟨fun spans => Span.unites_merge, fun spans block start => Span.cutSpans_eq_outside, ?_⟩
  intro source array goes ordered within
  refine ⟨_, rfl, source.cutsFrom_inside array goes, ?_⟩
  exact Source.deleteElements_eq ordered within (uncovered_eq_filter ..)

/-- Spans that overlap, touch, lie in one another and are empty, in no order. -/
def tangledSpans : List Span := [⟨16, 18⟩, ⟨11, 13⟩, ⟨19, 19⟩, ⟨12, 14⟩, ⟨14, 15⟩, ⟨11, 12⟩]

theorem deletions_cut_unions_tangled :
    Span.Unites tangledSpans (Span.merge tangledSpans) ∧
      Text.cutSpans "abcdefghij".toList ((Span.merge tangledSpans).map (·.relativeTo 10)) =
        "afij".toList := by
  obtain ⟨unites, cuts, -⟩ := deletions_cut_unions
  have ordered : ∀ span ∈ tangledSpans, span.start ≤ span.stop := by decide
  exact ⟨unites tangledSpans ordered,
    (cuts tangledSpans "abcdefghij".toList 10 ordered (by decide)).trans (by decide)⟩

end SwiftWorkspace
