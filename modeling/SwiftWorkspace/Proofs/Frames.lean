import SwiftWorkspace.Proofs.Hits
import SwiftWorkspace.Manifest.Layout

/-!
# The inside of a pair of brackets

A frame is a source with a gap between two brackets.  When the gap is filled
with other balanced cells, every array outside of it is still found, and only
moves along.
-/

namespace SwiftWorkspace

def Span.shift (offset : Nat) (span : Span) : Span := ⟨offset + span.start, offset + span.stop⟩

namespace Source

theorem closingFrom_shift (offset : Nat) (pending : List Bracket) (position : Nat)
    (cells : List Cell) :
    closingFrom pending (offset + position) cells =
      (closingFrom pending position cells).map (offset + ·) := by
  induction cells generalizing pending position with
  | nil => rfl
  | cons cell cells ih =>
      have step (pending : List Bracket) := ih pending (position + 1)
      rw [← Nat.add_assoc] at step
      rw [closingFrom, closingFrom]
      cases cell.opens? with
      | some shape => exact step _
      | none =>
          cases cell.closes? with
          | none => exact step _
          | some shape =>
              cases pending with
              | nil => rfl
              | cons innermost outer =>
                  simp only [step]
                  split
                  · rfl
                  · split <;> rfl

theorem closingFrom_le {pending : List Bracket} {position found : Nat} {cells : List Cell}
    (search : closingFrom pending position cells = some found) :
    position ≤ found ∧ found < position + cells.length := by
  fun_induction closingFrom pending position cells with
  | case1 => cases search
  | case2 pending position cell cells shape opens ih =>
      have := ih search
      simp only [List.length_cons]
      omega
  | case3 => cases search
  | case4 => cases search
  | case5 =>
      obtain rfl := Option.some.inj search
      simp
  | case6 position cell cells opens shape closes innermost outer same more ih =>
      have := ih search
      simp only [List.length_cons]
      omega
  | case7 pending position cell cells opens closes ih =>
      have := ih search
      simp only [List.length_cons]
      omega

theorem closing?_lt {source : Source} {position closing : Nat}
    (found : source.closing? position = some closing) :
    position < closing ∧ closing < source.length := by
  obtain ⟨before, opening, inner, closer, behind, whole, rfl, -, -, rfl⟩ :=
    closing?_eq_some_iff.mp found
  simp only [length, whole, List.length_append, List.length_cons]
  omega

theorem insideBefore?_length (source : Source) (position : Nat) :
    source.insideBefore? position source.length =
      (source.closing? position).map fun closing => ⟨position + 1, closing⟩ := by
  rw [insideBefore?]
  cases found : source.closing? position with
  | none => rfl
  | some closing => simp [(closing?_lt found).2]

def arrayIn? (cells : List Cell) : Option Span :=
  (⟨cells⟩ : Source).arrayBehind? 0 cells.length

theorem arrayIn?_append {trivia rest : List Cell} {cell : Cell}
    (inside : ∀ other ∈ trivia, other.isTrivia) (boundary : cell.isTrivia = false) :
    arrayIn? (trivia ++ cell :: rest) =
      if cell.isCodeChar '[' then
        ((⟨trivia ++ cell :: rest⟩ : Source).closing? trivia.length).map fun closing =>
          ⟨trivia.length + 1, closing⟩
      else none := by
  have stands := shows_alone (trivia ++ cell :: rest)
  have skipped : (⟨trivia ++ cell :: rest⟩ : Source).skipTrivia 0
      (⟨trivia ++ cell :: rest⟩ : Source).length = trivia.length := by
    rw [stands.skipTrivia inside boundary, Nat.zero_add]
    simp [length]
  have code := stands.right
  rw [Nat.zero_add] at code
  have ahead : trivia.length < (⟨trivia ++ cell :: rest⟩ : Source).length := by
    simp [length]
  change (⟨trivia ++ cell :: rest⟩ : Source).arrayBehind? 0
    (⟨trivia ++ cell :: rest⟩ : Source).length = _
  rw [arrayBehind?, skipped, code.hasCodeAt, decide_eq_true ahead, Bool.true_and,
    insideBefore?_length]

theorem at?_drop (source : Source) (position offset : Nat) :
    source.at? (position + offset) = (⟨source.cells.drop position⟩ : Source).at? offset := by
  simp [at?]

theorem hasCodeAt_drop (source : Source) (position offset : Nat) (char : Char) :
    source.hasCodeAt (position + offset) char =
      (⟨source.cells.drop position⟩ : Source).hasCodeAt offset char := by
  rw [hasCodeAt, at?_drop, hasCodeAt]

theorem closing?_drop (source : Source) (position offset : Nat) :
    source.closing? (position + offset) =
      ((⟨source.cells.drop position⟩ : Source).closing? offset).map (position + ·) := by
  simp only [closing?, at?_drop, ← List.drop_drop, closingFrom_shift]
  split
  · split <;> rfl
  · rfl

theorem arrayBehind?_eq {source : Source} {position : Nat} (within : position ≤ source.length) :
    source.arrayBehind? position source.length =
      (arrayIn? (source.cells.drop position)).map (Span.shift position) := by
  have size : (source.cells.drop position).length = source.length - position := by simp [length]
  have skipped : source.skipTrivia position source.length =
      position + (⟨source.cells.drop position⟩ : Source).skipTrivia 0
        (source.length - position) := by
    simp [skipTrivia]
  have bracketed (offset : Nat) : source.insideBefore? (position + offset) source.length =
      ((⟨source.cells.drop position⟩ : Source).insideBefore? offset
        (source.length - position)).map (Span.shift position) := by
    simp only [insideBefore?, closing?_drop]
    cases (⟨source.cells.drop position⟩ : Source).closing? offset with
    | none => rfl
    | some closing =>
        have same : position + closing < source.length ↔ closing < source.length - position := by
          omega
        simp only [Option.map_some, same]
        split <;> rfl
  have before (offset : Nat) : decide (position + offset < source.length) =
      decide (offset < source.length - position) := by
    simp only [decide_eq_decide]
    omega
  rw [arrayIn?, size, arrayBehind?, arrayBehind?, skipped, bracketed, hasCodeAt_drop, before]
  split <;> rfl

end Source

structure Frame where
  front : List Cell
  opening : Cell
  closing : Cell
  back : List Cell
  pairs : Pairs opening closing

namespace Frame

def fill (frame : Frame) (inner : List Cell) : Source :=
  ⟨frame.front ++ frame.opening :: (inner ++ frame.closing :: frame.back)⟩

def span (frame : Frame) (inner : List Cell) : Span :=
  ⟨frame.front.length + 1, frame.front.length + 1 + inner.length⟩

def move (frame : Frame) (old new : List Cell) (position : Nat) : Nat :=
  if position < frame.front.length + 1 then position
  else frame.front.length + 1 + new.length + (position - (frame.front.length + 1 + old.length))

def moveSpan (frame : Frame) (old new : List Cell) (span : Span) : Span :=
  ⟨frame.move old new (span.start - 1) + 1, frame.move old new span.stop⟩

variable (frame : Frame) {old new : List Cell}

theorem shows_fill (inner : List Cell) :
    (frame.fill inner).Shows (frame.front.length + 1) inner :=
  ⟨frame.closing :: frame.back, by
    rw [fill, List.drop_append, List.drop_of_length_le (by omega)]
    simp⟩

theorem length_fill (inner : List Cell) :
    (frame.fill inner).length = frame.front.length + 1 + inner.length + 1 + frame.back.length := by
  simp [fill, Source.length]
  omega

theorem closingFrom_fill (old_balanced : Balanced old) (new_balanced : Balanced new)
    (pending : List Bracket) (position : Nat) (front : List Cell) :
    Source.closingFrom pending position
        (front ++ frame.opening :: (new ++ frame.closing :: frame.back)) =
      (Source.closingFrom pending position
        (front ++ frame.opening :: (old ++ frame.closing :: frame.back))).map fun found =>
          if found < position + front.length + 1 then found
          else position + front.length + 1 + new.length +
            (found - (position + front.length + 1 + old.length)) := by
  obtain ⟨shape, opens, -⟩ := frame.pairs
  induction front generalizing pending position with
  | nil =>
      have inside {inner : List Cell} (balanced : Balanced inner) :
          Source.closingFrom pending position
              (frame.opening :: (inner ++ frame.closing :: frame.back)) =
            (Source.closingFrom (shape :: pending) (position + 1)
              (frame.closing :: frame.back)).map (inner.length + ·) := by
        rw [Source.closingFrom, opens]
        simp only
        rw [Source.closingFrom_append balanced, Nat.add_comm, Source.closingFrom_shift]
      rw [List.nil_append, List.nil_append, inside old_balanced, inside new_balanced,
        Option.map_map]
      refine Option.map_congr fun found search => ?_
      have := (Source.closingFrom_le search).1
      have later : ¬old.length + found < position + 1 := by omega
      simp only [List.length_nil, Nat.add_zero, Function.comp_apply, later, if_false]
      omega
  | cons cell front ih =>
      have step (pending : List Bracket) := ih pending (position + 1)
      have size : position + (cell :: front).length + 1 = position + 1 + front.length + 1 := by
        rw [List.length_cons]
        omega
      rw [size, List.cons_append, List.cons_append, Source.closingFrom, Source.closingFrom]
      cases cell.opens? with
      | some other => exact step _
      | none =>
          cases cell.closes? with
          | none => exact step _
          | some other =>
              cases pending with
              | nil => rfl
              | cons innermost outer =>
                  simp only [step]
                  split
                  · rfl
                  · split
                    · have early : position < position + 1 + front.length + 1 := by omega
                      rw [Option.map_some, if_pos early]
                    · rfl

/-- The bracket that closes one in front of the gap or at its start moves along. -/
theorem closing?_fill (old_balanced : Balanced old) (new_balanced : Balanced new) {position : Nat}
    (within : position ≤ frame.front.length) :
    (frame.fill new).closing? position =
      ((frame.fill old).closing? position).map (frame.move old new) := by
  have same (inner : List Cell) : (frame.fill inner).at? position =
      (frame.front ++ [frame.opening])[position]? := by
    have split : (frame.fill inner).cells =
        (frame.front ++ [frame.opening]) ++ (inner ++ frame.closing :: frame.back) := by
      simp [fill]
    rw [Source.at?, split, List.getElem?_append_left]
    simp
    omega
  have dropped (inner : List Cell) : (frame.fill inner).cells.drop position =
      frame.front.drop position ++ frame.opening :: (inner ++ frame.closing :: frame.back) := by
    rw [fill, List.drop_append_of_le_length within]
  have found := frame.closingFrom_fill old_balanced new_balanced [] position
    (frame.front.drop position)
  have place : position + (frame.front.drop position).length = frame.front.length := by
    rw [List.length_drop]
    omega
  rw [place] at found
  simp only [Source.closing?, same, dropped, found]
  split
  · split <;> rfl
  · rfl

theorem exists_first (frame : Frame) :
    ∃ trivia cell rest, frame.front ++ [frame.opening] = trivia ++ cell :: rest ∧
      (∀ other ∈ trivia, other.isTrivia) ∧ cell.isTrivia = false := by
  induction frame.front with
  | nil => exact ⟨[], frame.opening, [], rfl, by simp, frame.pairs.isTrivia_opening⟩
  | cons cell front ih =>
      cases trivial : cell.isTrivia with
      | false => exact ⟨[], cell, front ++ [frame.opening], rfl, by simp, trivial⟩
      | true =>
          obtain ⟨trivia, first, rest, split, inside, boundary⟩ := ih
          exact ⟨cell :: trivia, first, rest, by simp [split], by simpa [trivial] using inside,
            boundary⟩

/-- An array that begins in front of the gap, or around it, moves along. -/
theorem arrayIn?_fill (old_balanced : Balanced old) (new_balanced : Balanced new) :
    Source.arrayIn? (frame.fill new).cells =
      (Source.arrayIn? (frame.fill old).cells).map (frame.moveSpan old new) := by
  obtain ⟨trivia, cell, rest, split, inside, boundary⟩ := frame.exists_first
  have size := congrArg List.length split
  simp only [List.length_append, List.length_cons, List.length_nil] at size
  have array (inner : List Cell) : Source.arrayIn? (frame.fill inner).cells =
      if cell.isCodeChar '[' then
        ((frame.fill inner).closing? trivia.length).map fun closing => ⟨trivia.length + 1, closing⟩
      else none := by
    have whole : (frame.fill inner).cells =
        trivia ++ cell :: (rest ++ (inner ++ frame.closing :: frame.back)) := by
      have := congrArg (· ++ (inner ++ frame.closing :: frame.back)) split
      simpa [fill] using this
    have same : frame.fill inner =
        ⟨trivia ++ cell :: (rest ++ (inner ++ frame.closing :: frame.back))⟩ :=
      congrArg Source.mk whole
    rw [whole, Source.arrayIn?_append inside boundary, ← same]
  rw [array, array, frame.closing?_fill old_balanced new_balanced (by omega)]
  split
  · rw [Option.map_map, Option.map_map]
    refine congrArg (Option.map · _) (funext fun closing => ?_)
    have stays : trivia.length < frame.front.length + 1 := by omega
    simp [moveSpan, move, stays]
  · rfl

end Frame

end SwiftWorkspace
