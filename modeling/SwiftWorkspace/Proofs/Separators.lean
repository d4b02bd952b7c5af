import Mathlib.Logic.ExistsUnique
import SwiftWorkspace.Proofs.Cuts
import SwiftWorkspace.Proofs.Rows

/-!
# Elements between separators

The elements of a span share out what is significant in it: whatever the text, and whether
its brackets pair up or not, a significant position of the span is a separator or lies in
one element, no element reaches over a separator, and a separator stands between any two.
-/

namespace SwiftWorkspace

structure Shared (separates significant : Nat → Bool) (start stop : Nat) (parts : List Span) :
    Prop where
  inside : ∀ part ∈ parts, start ≤ part.start ∧ part.start < part.stop ∧ part.stop ≤ stop
  ends : ∀ part ∈ parts, significant part.start ∧ significant (part.stop - 1)
  unbroken : ∀ part ∈ parts, ∀ position, part.holds position → separates position = false
  parted : parts.Pairwise fun first second =>
    ∃ position, first.stop ≤ position ∧ position < second.start ∧ separates position
  covered : ∀ position, start ≤ position → position < stop → significant position →
    separates position ∨ ∃ part ∈ parts, part.holds position

/-- What is known of the element found so far, if nothing since `start` separates elements. -/
structure Pending (separates significant : Nat → Bool) (start position : Nat)
    (current : Option Span) : Prop where
  ordered : start ≤ position
  inside : ∀ span ∈ current, start ≤ span.start ∧ span.start < span.stop ∧ span.stop ≤ position
  ends : ∀ span ∈ current, significant span.start ∧ significant (span.stop - 1)
  unbroken : ∀ other, start ≤ other → other < position → separates other = false
  covered : ∀ other, start ≤ other → other < position → significant other →
    ∃ span ∈ current, span.holds other

theorem Span.eq_of_holds {spans : List Span}
    (ordered : spans.Pairwise fun first second => first.stop ≤ second.start) {left right : Span}
    (left_member : left ∈ spans) (right_member : right ∈ spans) {position : Nat}
    (inLeft : left.holds position) (inRight : right.holds position) : left = right := by
  rw [Span.holds_iff] at inLeft inRight
  induction spans with
  | nil => simp at left_member
  | cons span spans ih =>
      obtain ⟨first, rest⟩ := List.pairwise_cons.mp ordered
      rcases List.mem_cons.mp left_member with rfl | left_inside <;>
        rcases List.mem_cons.mp right_member with rfl | right_inside
      · rfl
      · have := first right right_inside
        omega
      · have := first left left_inside
        omega
      · exact ih rest left_inside right_inside

section

variable {separates significant : Nat → Bool} {start position stop : Nat} {current : Option Span}

theorem pending_none (start : Nat) : Pending separates significant start start none :=
  ⟨Nat.le_refl _, by simp, by simp, by omega, by omega⟩

namespace Pending

/-- A significant position that does not separate elements extends the one found so far. -/
theorem extend (pending : Pending separates significant start position current)
    (noSeparator : separates position = false) (solid : significant position) :
    Pending separates significant start (position + 1) (some (Span.extend? current position)) := by
  have ordered := pending.ordered
  have unbroken : ∀ other, start ≤ other → other < position + 1 → separates other = false := by
    intro other behind before
    rcases Nat.lt_succ_iff_lt_or_eq.mp before with before | rfl
    · exact pending.unbroken other behind before
    · exact noSeparator
  cases current with
  | none =>
      refine ⟨by omega, ?_, ?_, unbroken, fun other behind before holds => ?_⟩
      · simp [Span.extend?, ordered]
      · simp [Span.extend?, solid]
      · rcases Nat.lt_succ_iff_lt_or_eq.mp before with before | rfl
        · simpa using pending.covered other behind before holds
        · simp [Span.extend?, Span.holds_iff]
  | some span =>
      obtain ⟨first, filled, last⟩ := pending.inside span rfl
      refine ⟨by omega, ?_, ?_, unbroken, fun other behind before holds => ?_⟩
      · simp only [Span.extend?, Option.mem_some_iff, forall_eq']
        omega
      · simpa [Span.extend?, solid] using (pending.ends span rfl).1
      · rcases Nat.lt_succ_iff_lt_or_eq.mp before with before | rfl
        · obtain ⟨found, same, held⟩ := pending.covered other behind before holds
          obtain rfl : span = found := Option.mem_some_iff.mp same
          refine ⟨_, rfl, Span.holds_iff.mpr ?_⟩
          simp only [Span.extend?]
          exact ⟨(Span.holds_iff.mp held).1, by omega⟩
        · refine ⟨_, rfl, Span.holds_iff.mpr ?_⟩
          simp only [Span.extend?]
          omega

/-- What is not significant and does not separate elements leaves the one found so far alone. -/
theorem pass (pending : Pending separates significant start position current)
    (noSeparator : separates position = false) (empty : significant position = false) :
    Pending separates significant start (position + 1) current := by
  have ordered := pending.ordered
  refine ⟨by omega, fun span found => ?_, pending.ends, fun other behind before => ?_,
    fun other behind before holds => ?_⟩
  · have := pending.inside span found
    omega
  · rcases Nat.lt_succ_iff_lt_or_eq.mp before with before | rfl
    · exact pending.unbroken other behind before
    · exact noSeparator
  · rcases Nat.lt_succ_iff_lt_or_eq.mp before with before | rfl
    · exact pending.covered other behind before holds
    · simp [empty] at holds

/-- The element found so far is complete where nothing more belongs to it. -/
theorem shared (pending : Pending separates significant start position current) :
    Shared separates significant start position current.toList := by
  refine ⟨fun part member => ?_, fun part member => ?_, fun part member other held => ?_, ?_,
    fun other behind before holds => ?_⟩
  · exact pending.inside part (Option.mem_toList.mp member)
  · exact pending.ends part (Option.mem_toList.mp member)
  · obtain ⟨first, -, last⟩ := pending.inside part (Option.mem_toList.mp member)
    obtain ⟨behind, before⟩ := Span.holds_iff.mp held
    exact pending.unbroken other (by omega) (by omega)
  · cases current <;> simp
  · obtain ⟨span, found, held⟩ := pending.covered other behind before holds
    exact .inr ⟨span, Option.mem_toList.mpr found, held⟩

end Pending

/-- Parts on both sides of a separator are parts of the whole. -/
theorem Shared.append {front back : List Span}
    (before : Shared separates significant start position front)
    (behind : Shared separates significant (position + 1) stop back) (ordered : start ≤ position)
    (within : position < stop) (separator : separates position) :
    Shared separates significant start stop (front ++ back) := by
  refine ⟨fun part member => ?_, fun part member => ?_, fun part member => ?_, ?_,
    fun other low high holds => ?_⟩
  · rcases List.mem_append.mp member with member | member
    · have := before.inside part member
      omega
    · have := behind.inside part member
      omega
  · exact (List.mem_append.mp member).elim (before.ends part) (behind.ends part)
  · exact (List.mem_append.mp member).elim (before.unbroken part) (behind.unbroken part)
  · refine List.pairwise_append.mpr
      ⟨before.parted, behind.parted, fun first inFront second inBack => ?_⟩
    have := before.inside first inFront
    have := behind.inside second inBack
    exact ⟨position, by omega, by omega, separator⟩
  · rcases Nat.lt_trichotomy other position with early | rfl | late
    · refine (before.covered other low early holds).imp_right fun ⟨part, member, held⟩ => ?_
      exact ⟨part, List.mem_append_left _ member, held⟩
    · exact .inl separator
    · refine (behind.covered other late high holds).imp_right fun ⟨part, member, held⟩ => ?_
      exact ⟨part, List.mem_append_right _ member, held⟩

end

namespace Source

def Tells (separates significant : Nat → Bool) (depth position : Nat) (cells : List Cell) : Prop :=
  ∀ offset cell, cells[offset]? = some cell →
    separates (position + offset) = cell.separates (Cell.depthOver depth (cells.take offset)) ∧
      significant (position + offset) = cell.isSignificant

theorem Tells.head {separates significant : Nat → Bool} {depth position : Nat} {cell : Cell}
    {cells : List Cell} (tells : Tells separates significant depth position (cell :: cells)) :
    separates position = cell.separates depth ∧ significant position = cell.isSignificant := by
  simpa using tells 0 cell rfl

theorem Tells.tail {separates significant : Nat → Bool} {depth position : Nat} {cell : Cell}
    {cells : List Cell} (tells : Tells separates significant depth position (cell :: cells)) :
    Tells separates significant (cell.depthAfter depth) (position + 1) cells := by
  intro offset other found
  have behind := tells (offset + 1) other (by simpa using found)
  rwa [List.take_succ_cons, Cell.depthOver_cons, ← Nat.add_assoc, Nat.add_right_comm] at behind

/--
The elements among some cells share out what is significant from the start of the first one on.
-/
theorem shared_elementsFrom {separates significant : Nat → Bool} {start depth position : Nat}
    {current : Option Span} {cells : List Cell}
    (pending : Pending separates significant start position current)
    (tells : Tells separates significant depth position cells) :
    Shared separates significant start (position + cells.length)
      (elementsFrom depth position current cells) := by
  induction cells generalizing start depth position current with
  | nil => exact pending.shared
  | cons cell cells ih =>
      obtain ⟨separator, solid⟩ := tells.head
      have place : position + (cell :: cells).length = position + 1 + cells.length := by
        rw [List.length_cons]
        omega
      rw [elementsFrom, place]
      split
      · rename_i comma
        -- A comma changes no depth, so that the count goes on as it was.
        have level : cell.depthAfter depth = depth := by
          have padding : cell.isPadding := by
            simp only [Cell.separates, Bool.and_eq_true] at comma
            simp [Cell.isPadding, Cell.isComma, comma]
          obtain ⟨noOpening, noClosing⟩ := Cell.noBrackets_of_isPadding padding
          exact Cell.depthAfter_plain noOpening noClosing
        exact pending.shared.append (ih (pending_none _) (level ▸ tells.tail)) pending.ordered
          (by omega) (separator.trans comma)
      · rename_i noComma
        have inElement := separator.trans (Bool.not_eq_true _ ▸ noComma)
        split
        · rename_i found
          exact ih (pending.extend inElement (solid.trans found)) tells.tail
        · rename_i missing
          exact ih (pending.pass inElement (solid.trans (Bool.not_eq_true _ ▸ missing))) tells.tail

/-- Whether the position holds a character of a literal or code other than a blank. -/
def isSignificantAt (source : Source) (position : Nat) : Bool :=
  (source.at? position).any Cell.isSignificant

/-- Whether the position holds a comma in code that no bracket encloses, counted from `start` on. -/
def separatesAt (source : Source) (start position : Nat) : Bool :=
  (source.at? position).any (·.separates (Cell.depthOver 0 (source.cellsIn ⟨start, position⟩)))

structure Divides (source : Source) (span : Span) (elements : List Span) : Prop where
  filled : ∀ element ∈ elements, element.start < element.stop
  inside : ∀ element ∈ elements, span.start ≤ element.start ∧ element.stop ≤ span.stop
  ordered : elements.Pairwise fun first second => first.stop ≤ second.start
  first : ∀ element ∈ elements, source.isSignificantAt element.start
  last : ∀ element ∈ elements, source.isSignificantAt (element.stop - 1)
  unbroken : ∀ element ∈ elements, ∀ position, element.holds position →
    source.separatesAt span.start position = false
  parted : elements.Pairwise fun first second =>
    ∃ position, first.stop ≤ position ∧ position < second.start ∧
      source.separatesAt span.start position
  covered : ∀ position, span.holds position → source.isSignificantAt position →
    source.separatesAt span.start position ∨ ∃! element, element ∈ elements ∧ element.holds position

theorem tells_cellsIn (source : Source) (span : Span) :
    Tells (source.separatesAt span.start) source.isSignificantAt 0 span.start
      (source.cellsIn span) := by
  intro offset cell found
  have inside : offset < span.size := by
    have := (List.getElem?_eq_some_iff.mp found).1
    simp only [cellsIn, List.length_take] at this
    omega
  have here : source.at? (span.start + offset) = some cell := by
    rw [cellsIn, List.getElem?_take_of_lt inside, List.getElem?_drop] at found
    exact found
  have before : (source.cellsIn span).take offset =
      source.cellsIn ⟨span.start, span.start + offset⟩ := by
    simp only [cellsIn, Span.size, List.take_take]
    congr 1
    simp only [Span.size] at inside
    omega
  simp [separatesAt, isSignificantAt, here, before]

end Source

/--
The elements of a span lose, double and break nothing: in every text they are spans that are not
empty, in the order of the text, apart from each other and inside of the span; each begins and
ends with a character that is significant and holds no separator; between two of them there is a
separator; and every significant character of the span lies in exactly one of them or is a
separator.
-/
theorem elements_divide (text : Text) (span : Span) :
    (Source.ofText text).Divides span ((Source.ofText text).elements span) := by
  generalize Source.ofText text = source
  have shared := Source.shared_elementsFrom (pending_none _) (source.tells_cellsIn span)
  have size : (source.cellsIn span).length ≤ span.size := by
    simp only [Source.cellsIn, List.length_take]
    omega
  have ordered : (source.elements span).Pairwise fun first second => first.stop ≤ second.start := by
    refine shared.parted.imp fun separated => ?_
    obtain ⟨position, behind, before, -⟩ := separated
    omega
  refine ⟨fun element member => (shared.inside element member).2.1,
    fun element member => ?_, ordered,
    fun element member => (shared.ends element member).1,
      fun element member => (shared.ends element member).2,
    shared.unbroken, shared.parted, fun position held holds => ?_⟩
  · have := shared.inside element member
    simp only [Span.size] at size
    omega
  · obtain ⟨behind, before⟩ := Span.holds_iff.mp held
    have within : position < span.start + (source.cellsIn span).length := by
      obtain ⟨cell, found, -⟩ := (Option.any_eq_true _ _).mp holds
      have := (List.getElem?_eq_some_iff.mp found).1
      simp only [Source.cellsIn, Span.size, List.length_take, List.length_drop]
      omega
    refine (shared.covered position behind within holds).imp_right fun covered => ?_
    obtain ⟨element, member, inElement⟩ := covered
    refine ⟨element, ⟨member, inElement⟩, fun other there => ?_⟩
    exact Span.eq_of_holds ordered there.1 member there.2 inElement

end SwiftWorkspace
