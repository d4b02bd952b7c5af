import SwiftWorkspace.Proofs.BracketWords
import SwiftWorkspace.Proofs.Frames

/-!
# Pairs of brackets around a position

The depth of a position is counted without regard to shapes, and it never falls below zero.
Where the brackets pair up it is the number of pairs that the search for closing brackets
finds around the position.
-/

namespace SwiftWorkspace

namespace Source

def depthAt (source : Source) (position : Nat) : Nat :=
  Cell.depthOver 0 (source.cells.take position)

def pairsOver (source : Source) (position : Nat) : Nat :=
  (List.range position).countP fun opening => (source.closing? opening).any (position ≤ ·)

/-- The number of pairs of brackets that have the position between them. -/
def pairsAround (source : Source) (position : Nat) : Nat :=
  (List.range position).countP fun opening => (source.closing? opening).any (position < ·)

variable {position : Nat}

/-- Among balanced cells a bracket is closed as if nothing stood behind them. -/
theorem closing?_append {inner : List Cell} (balanced : Balanced inner) (more : List Cell)
    (within : position < inner.length) :
    (⟨inner ++ more⟩ : Source).closing? position = (⟨inner⟩ : Source).closing? position := by
  have cut := List.drop_eq_getElem_cons within
  have longer : (inner ++ more).drop position =
      inner[position] :: (inner.drop (position + 1) ++ more) := by
    rw [List.drop_append_of_le_length (Nat.le_of_lt within), cut, List.cons_append]
  cases opens : inner[position].opens? with
  | none =>
      have here (cells : List Cell) (found : cells[position]? = some inner[position]) :
          (⟨cells⟩ : Source).closing? position = none := by
        simp [closing?, at?, found, opens]
      rw [here _ (by rw [List.getElem?_append_left within, List.getElem?_eq_getElem within]),
        here _ (List.getElem?_eq_getElem within)]
  | some shape =>
      have parts : inner = inner.take position ++ inner[position] :: inner.drop (position + 1) := by
        rw [← cut, List.take_append_drop]
      obtain ⟨between, closing, rest, split, pairs, inside⟩ := balanced.exists_closing parts opens
      rw [split] at cut longer
      have short : (⟨inner⟩ : Source).cells.drop position =
          inner[position] :: (between ++ closing :: rest) := cut
      have long : (⟨inner ++ more⟩ : Source).cells.drop position =
          inner[position] :: (between ++ closing :: (rest ++ more)) := by
        simpa using longer
      rw [closing?_of_drop short pairs inside, closing?_of_drop long pairs inside]

/-- A cell in front adds one to the count if it opens a bracket that reaches that far. -/
theorem pairsOver_cons (cell : Cell) (cells : List Cell) :
    (⟨cell :: cells⟩ : Source).pairsOver (position + 1) =
      (if ((⟨cell :: cells⟩ : Source).closing? 0).any (position + 1 ≤ ·) then 1 else 0) +
        (⟨cells⟩ : Source).pairsOver position := by
  have behind (opening : Nat) : (⟨cell :: cells⟩ : Source).closing? (opening + 1) =
      ((⟨cells⟩ : Source).closing? opening).map (1 + ·) := by
    rw [Nat.add_comm]
    exact closing?_drop ⟨cell :: cells⟩ 1 opening
  have same :
      (fun opening => ((⟨cell :: cells⟩ : Source).closing? opening).any (position + 1 ≤ ·))
        ∘ Nat.succ =
        fun opening => ((⟨cells⟩ : Source).closing? opening).any (position ≤ ·) := by
    funext opening
    simp only [Function.comp_apply, Nat.succ_eq_add_one, behind, Option.any_map]
    congr 1
    funext closing
    simp only [decide_eq_decide]
    omega
  rw [pairsOver, List.range_succ_eq_map, List.countP_cons, List.countP_map, same,
    Nat.add_comm, pairsOver]

/-- At a position among balanced cells nothing behind them counts. -/
theorem pairsOver_append_left {inner : List Cell} (balanced : Balanced inner) (more : List Cell)
    (within : position ≤ inner.length) :
    (⟨inner ++ more⟩ : Source).pairsOver position = (⟨inner⟩ : Source).pairsOver position := by
  refine List.countP_congr fun opening member => ?_
  rw [closing?_append balanced more (by have := List.mem_range.mp member; omega)]

/-- Behind balanced cells none of their brackets counts. -/
theorem pairsOver_append_right {inner : List Cell} (balanced : Balanced inner) (more : List Cell) :
    (⟨inner ++ more⟩ : Source).pairsOver (inner.length + position) =
      (⟨more⟩ : Source).pairsOver position := by
  have closed : (List.range inner.length).countP
      (fun opening => ((⟨inner ++ more⟩ : Source).closing? opening).any
        (inner.length + position ≤ ·)) = 0 := by
    refine List.countP_eq_zero.mpr fun opening member => ?_
    rw [closing?_append balanced more (List.mem_range.mp member)]
    cases found : (⟨inner⟩ : Source).closing? opening with
    | none => simp
    | some closing =>
        have := (closing?_lt found).2
        simp only [length] at this
        simp only [Option.any_some, decide_eq_true_eq]
        omega
  have behind (opening : Nat) : (⟨inner ++ more⟩ : Source).closing? (inner.length + opening) =
      ((⟨more⟩ : Source).closing? opening).map (inner.length + ·) := by
    rw [closing?_drop, List.drop_left]
  rw [pairsOver, List.range_add, List.countP_append, closed, Nat.zero_add, List.countP_map]
  refine List.countP_congr fun opening _ => ?_
  simp only [Function.comp_apply, behind, Option.any_map]
  cases (⟨more⟩ : Source).closing? opening <;> simp

/-- Among balanced cells the depth grows by one with each bracket that is still open. -/
theorem depthOver_take {cells : List Cell} (balanced : Balanced cells) (depth : Nat)
    (within : position ≤ cells.length) :
    Cell.depthOver depth (cells.take position) = depth + (⟨cells⟩ : Source).pairsOver position := by
  induction balanced generalizing depth position with
  | nil =>
      obtain rfl : position = 0 := by simpa using within
      rfl
  | @plain cell rest noOpening noClosing balanced ih =>
      cases position with
      | zero => rfl
      | succ position =>
          have noPair : (⟨cell :: rest⟩ : Source).closing? 0 = none := by
            simp [closing?, at?, noOpening]
          rw [List.take_succ_cons, Cell.depthOver_cons, Cell.depthAfter_plain noOpening noClosing,
            ih depth (by simpa using within), pairsOver_cons, noPair]
          simp
  | @pair opening closing inner rest pairs inside balanced inside_ih ih =>
      have closes : (⟨opening :: (inner ++ closing :: rest)⟩ : Source).closing? 0 =
          some (1 + inner.length) := by
        have whole : (⟨opening :: (inner ++ closing :: rest)⟩ : Source).cells.drop 0 =
            opening :: (inner ++ closing :: rest) := rfl
        simpa using closing?_of_drop whole pairs inside
      cases position with
      | zero => rfl
      | succ position =>
          rw [List.take_succ_cons, Cell.depthOver_cons, pairs.depthAfter_opening,
            pairsOver_cons, closes]
          by_cases early : position ≤ inner.length
          · rw [List.take_append_of_le_length early, inside_ih _ early,
              pairsOver_append_left inside _ early, if_pos (by simp; omega)]
            omega
          · obtain ⟨past, rfl⟩ : ∃ past, position = inner.length + (past + 1) :=
              ⟨position - inner.length - 1, by omega⟩
            have noPair : (⟨closing :: rest⟩ : Source).closing? 0 = none := by
              obtain ⟨_, -, shaped⟩ := pairs
              simp [closing?, at?, Cell.opens_of_closes shaped]
            simp only [List.length_cons, List.length_append] at within
            rw [List.take_length_add_append, List.take_succ_cons, Cell.depthOver_append,
              inside.depthOver,
              Cell.depthOver_cons, pairs.depthAfter_closing, ih _ (by omega),
                pairsOver_append_right inside,
              pairsOver_cons, noPair, if_neg (by simp; omega)]
            simp

theorem at?_of_closing? {source : Source} {closing : Nat}
    (found : source.closing? position = some closing) :
    ∃ cell, source.at? closing = some cell ∧ cell.closes?.isSome := by
  obtain ⟨before, opening, inner, cell, behind, whole, rfl, ⟨shape, -, closes⟩, -, rfl⟩ :=
    closing?_eq_some_iff.mp found
  refine ⟨cell, ?_, by simp [closes]⟩
  have stands : source.cells.drop (before.length + 1 + inner.length) = cell :: behind := by
    have split : source.cells = (before ++ opening :: inner) ++ cell :: behind := by simp [whole]
    have size : before.length + 1 + inner.length = (before ++ opening :: inner).length := by
      simp only [List.length_append, List.length_cons]
      omega
    rw [split, size, List.drop_left]
  rw [at?, ← List.head?_drop, stands]
  rfl

theorem depthAt_eq_pairsAround {source : Source}
    (nested : WellNested (brackets source.cells)) {cell : Cell}
    (here : source.at? position = some cell) (noClosing : cell.closes? = none) :
    source.depthAt position = source.pairsAround position := by
  have within := (List.getElem?_eq_some_iff.mp here).1
  rw [depthAt, depthOver_take (balanced_iff_wellNested.mpr nested) 0 (Nat.le_of_lt within),
    Nat.zero_add]
  refine List.countP_congr fun opening _ => ?_
  cases found : source.closing? opening with
  | none => simp
  | some closing =>
      have apart : position ≠ closing := by
        rintro rfl
        obtain ⟨other, there, closes⟩ := at?_of_closing? found
        obtain rfl := Option.some.inj (here.symm.trans there)
        simp [noClosing] at closes
      simp only [Option.any_some, decide_eq_true_eq]
      omega

end Source

end SwiftWorkspace
