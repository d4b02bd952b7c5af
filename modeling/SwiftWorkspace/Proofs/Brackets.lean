import SwiftWorkspace.Source.Bracket

/-!
# Balanced brackets

Between an opening bracket and the one that closes it the brackets pair up.
Cells whose brackets pair up neither close a bracket that is open before them
nor leave one open behind them.
-/

namespace SwiftWorkspace

def Pairs (opening closing : Cell) : Prop :=
  ∃ shape, opening.opens? = some shape ∧ closing.closes? = some shape

/-- Cells whose brackets pair up. -/
inductive Balanced : List Cell → Prop where
  | nil : Balanced []
  | plain {cell : Cell} {rest : List Cell} (noOpening : cell.opens? = none)
      (noClosing : cell.closes? = none) (balanced : Balanced rest) : Balanced (cell :: rest)
  | pair {opening closing : Cell} {inner rest : List Cell} (pairs : Pairs opening closing)
      (inside : Balanced inner) (balanced : Balanced rest) :
      Balanced (opening :: (inner ++ closing :: rest))

namespace Cell

theorem isCode_of_opens {cell : Cell} {shape : Bracket} (opens : cell.opens? = some shape) :
    cell.kind = .code := by
  simp only [opens?, isCode, decide_eq_true_eq] at opens
  split at opens <;> simp_all

theorem isCode_of_closes {cell : Cell} {shape : Bracket} (closes : cell.closes? = some shape) :
    cell.kind = .code := by
  simp only [closes?, isCode, decide_eq_true_eq] at closes
  split at closes <;> simp_all

theorem closes_of_opens {cell : Cell} {shape : Bracket} (opens : cell.opens? = some shape) :
    cell.closes? = none := by
  have code := isCode_of_opens opens
  simp only [opens?, closes?, isCode, code, decide_true, if_true] at opens ⊢
  unfold Bracket.opened? at opens
  split at opens <;> simp_all [Bracket.closed?]

theorem opens_of_closes {cell : Cell} {shape : Bracket} (closes : cell.closes? = some shape) :
    cell.opens? = none := by
  cases opens : cell.opens? with
  | none => rfl
  | some other => simp [closes_of_opens opens] at closes

def depthOver (depth : Nat) (cells : List Cell) : Nat :=
  cells.foldl (fun depth cell => cell.depthAfter depth) depth

@[simp] theorem depthOver_nil (depth : Nat) : depthOver depth [] = depth := rfl

@[simp] theorem depthOver_cons (depth : Nat) (cell : Cell) (cells : List Cell) :
    depthOver depth (cell :: cells) = depthOver (cell.depthAfter depth) cells := rfl

@[simp] theorem depthOver_append (depth : Nat) (first last : List Cell) :
    depthOver depth (first ++ last) = depthOver (depthOver depth first) last :=
  List.foldl_append

theorem depthAfter_plain {cell : Cell} {depth : Nat} (noOpening : cell.opens? = none)
    (noClosing : cell.closes? = none) : cell.depthAfter depth = depth := by
  simp [depthAfter, noOpening, noClosing]

theorem depthAfter_opens {cell : Cell} {shape : Bracket} {depth : Nat}
    (opens : cell.opens? = some shape) : cell.depthAfter depth = depth + 1 := by
  simp [depthAfter, opens]

theorem depthAfter_closes {cell : Cell} {shape : Bracket} {depth : Nat}
    (closes : cell.closes? = some shape) : cell.depthAfter depth = depth - 1 := by
  simp [depthAfter, closes, opens_of_closes closes]

end Cell

namespace Pairs

variable {opening closing : Cell}

theorem opening_code (pairs : Pairs opening closing) : opening.kind = .code := by
  obtain ⟨shape, opens, -⟩ := pairs
  exact Cell.isCode_of_opens opens

theorem closing_code (pairs : Pairs opening closing) : closing.kind = .code := by
  obtain ⟨shape, -, closes⟩ := pairs
  exact Cell.isCode_of_closes closes

theorem depthAfter_opening (pairs : Pairs opening closing) (depth : Nat) :
    opening.depthAfter depth = depth + 1 := by
  obtain ⟨shape, opens, -⟩ := pairs
  exact Cell.depthAfter_opens opens

theorem depthAfter_closing (pairs : Pairs opening closing) (depth : Nat) :
    closing.depthAfter (depth + 1) = depth := by
  obtain ⟨shape, -, closes⟩ := pairs
  exact Cell.depthAfter_closes closes

end Pairs

namespace Balanced

variable {first last cells inner : List Cell} {opening closing cell : Cell}

theorem of_noBrackets (noBrackets : ∀ cell ∈ cells, cell.opens? = none ∧ cell.closes? = none) :
    Balanced cells := by
  induction cells with
  | nil => exact .nil
  | cons cell cells ih =>
      obtain ⟨noOpening, noClosing⟩ := noBrackets cell (by simp)
      exact .plain noOpening noClosing (ih fun other member => noBrackets other (by simp [member]))

theorem append (front : Balanced first) (back : Balanced last) : Balanced (first ++ last) := by
  induction front with
  | nil => exact back
  | plain noOpening noClosing balanced ih => exact .plain noOpening noClosing ih
  | pair pairs inside balanced inside_ih ih => simpa using .pair pairs inside ih

theorem enclose (pairs : Pairs opening closing) (inside : Balanced inner) :
    Balanced (opening :: (inner ++ [closing])) := .pair pairs inside .nil

theorem depthOver (balanced : Balanced cells) (depth : Nat) :
    Cell.depthOver depth cells = depth := by
  induction balanced generalizing depth with
  | nil => rfl
  | plain noOpening noClosing balanced ih =>
      simp [Cell.depthAfter_plain noOpening noClosing, ih]
  | pair pairs inside balanced inside_ih ih =>
      simp [pairs.depthAfter_opening, inside_ih, pairs.depthAfter_closing, ih]

end Balanced

namespace Source

theorem closingFrom_append {cells : List Cell} (balanced : Balanced cells) (innermost : Bracket)
    (outer : List Bracket) (position : Nat) (rest : List Cell) :
    closingFrom (innermost :: outer) position (cells ++ rest) =
      closingFrom (innermost :: outer) (position + cells.length) rest := by
  induction balanced generalizing innermost outer position rest with
  | nil => rfl
  | plain noOpening noClosing balanced ih =>
      simp only [List.cons_append, closingFrom, noOpening, noClosing, ih, List.length_cons]
      congr 1
      omega
  | @pair opening closing inner tail pairs inside balanced inside_ih ih =>
      obtain ⟨shape, opens, closes⟩ := pairs
      simp only [List.cons_append, List.append_assoc, closingFrom, opens, inside_ih,
        Cell.opens_of_closes closes, closes, ne_eq, not_true_eq_false, if_false,
        List.isEmpty_cons, Bool.false_eq_true, ih, List.length_cons, List.length_append]
      congr 1
      omega

/-- The search that begins at an opening bracket finds the bracket that pairs with it. -/
theorem closingFrom_pair {opening closing : Cell} {inner : List Cell}
    (pairs : Pairs opening closing) (inside : Balanced inner) (position : Nat) (rest : List Cell) :
    closingFrom [] position (opening :: (inner ++ closing :: rest)) =
      some (position + 1 + inner.length) := by
  obtain ⟨shape, opens, closes⟩ := pairs
  simp [closingFrom, opens, closingFrom_append inside, closes, Cell.opens_of_closes closes]

theorem closingFrom_eq_some {innermost : Bracket} {outer : List Bracket} {position found : Nat}
    {cells : List Cell} (search : closingFrom (innermost :: outer) position cells = some found) :
    ∃ inner closing rest, cells = inner ++ closing :: rest ∧ Balanced inner ∧
      closing.closes? = some innermost ∧
      ((outer = [] ∧ found = position + inner.length) ∨
        closingFrom outer (position + inner.length + 1) rest = some found ∧ outer ≠ []) := by
  generalize size : cells.length = length
  induction length using Nat.strongRecOn generalizing innermost outer position cells with
  | ind length ih =>
      cases cells with
      | nil => simp [closingFrom] at search
      | cons cell cells =>
          simp only [List.length_cons] at size
          rw [closingFrom] at search
          cases opens : cell.opens? with
          | some shape =>
              simp only [opens] at search
              obtain ⟨inner, closing, rest, rfl, inside, closes, more⟩ :=
                ih _ (by omega) search rfl
              obtain ⟨impossible, -⟩ | ⟨search, -⟩ := more
              · simp at impossible
              · simp only [List.length_append, List.length_cons] at size
                obtain ⟨inner', closing', rest', rfl, inside', closes', more⟩ :=
                  ih _ (by omega) search rfl
                refine ⟨cell :: (inner ++ closing :: inner'), closing', rest', by simp,
                  .pair ⟨shape, opens, closes⟩ inside inside', closes', ?_⟩
                have place : position + 1 + inner.length + 1 + inner'.length =
                    position + (cell :: (inner ++ closing :: inner')).length := by
                  simp only [List.length_cons, List.length_append]
                  omega
                rwa [place] at more
          | none =>
              cases closes : cell.closes? with
              | some shape =>
                  simp only [opens, closes] at search
                  split at search
                  · cases search
                  · rename_i same
                    obtain rfl : innermost = shape := by simpa using same
                    refine ⟨[], cell, cells, rfl, .nil, closes, ?_⟩
                    split at search
                    · simp_all
                    · simp_all
              | none =>
                  simp only [opens, closes] at search
                  obtain ⟨inner, closing, rest, rfl, inside, found, more⟩ :=
                    ih _ (by omega) search rfl
                  refine ⟨cell :: inner, closing, rest, rfl, .plain opens closes inside, found, ?_⟩
                  have place : position + 1 + inner.length = position + (cell :: inner).length := by
                    simp only [List.length_cons]
                    omega
                  rwa [place] at more

theorem closing?_eq_some_iff {source : Source} {position found : Nat} :
    source.closing? position = some found ↔
      ∃ before opening inner closing behind,
        source.cells = before ++ opening :: (inner ++ closing :: behind) ∧
          before.length = position ∧ Pairs opening closing ∧ Balanced inner ∧
          found = position + 1 + inner.length := by
  constructor
  · intro search
    simp only [closing?, at?] at search
    cases reads : source.cells[position]? with
    | none => simp [reads] at search
    | some opening =>
        obtain ⟨within, rfl⟩ := List.getElem?_eq_some_iff.mp reads
        have whole := List.drop_eq_getElem_cons within
        generalize source.cells[position] = opening at *
        cases opens : opening.opens? with
        | none => simp [reads, opens] at search
        | some shape =>
            simp only [reads, opens, Option.isSome_some, if_true, whole, closingFrom] at search
            obtain ⟨inner, closing, behind, split, inside, closes, ⟨-, rfl⟩ | ⟨-, impossible⟩⟩ :=
              closingFrom_eq_some search
            · refine ⟨source.cells.take position, opening, inner, closing, behind, ?_,
                by simp; omega, ⟨shape, opens, closes⟩, inside, rfl⟩
              rw [← split, ← whole, List.take_append_drop]
            · exact absurd rfl impossible
  · rintro ⟨before, opening, inner, closing, behind, whole, rfl, pairs, inside, rfl⟩
    have opens : opening.opens?.isSome := by
      obtain ⟨shape, opens, -⟩ := pairs
      simp [opens]
    simp [closing?, at?, whole, opens, closingFrom_pair pairs inside]

end Source

/-- The bracket that closes one among balanced cells is known from them. -/
theorem Pairs.inside_unique {opening closing opening' closing' : Cell}
    {inner inner' rest rest' : List Cell} (pairs : Pairs opening closing) (inside : Balanced inner)
    (pairs' : Pairs opening' closing') (inside' : Balanced inner')
    (same : opening :: (inner ++ closing :: rest) = opening' :: (inner' ++ closing' :: rest')) :
    inner = inner' ∧ rest = rest' := by
  have here := Source.closingFrom_pair pairs inside 0 rest
  have there := Source.closingFrom_pair pairs' inside' 0 rest'
  rw [← same] at there
  have size : inner.length = inner'.length := by
    have := Option.some.inj (here.symm.trans there)
    omega
  obtain ⟨rfl, tails⟩ := List.append_inj (List.cons.inj same).2 size
  exact ⟨rfl, (List.cons.inj tails).2⟩

namespace Balanced

/-- The brackets of a rest pair up when those of the whole and of the cells before it do. -/
theorem of_append {first last : List Cell} (whole : Balanced (first ++ last))
    (front : Balanced first) : Balanced last := by
  induction front with
  | nil => exact whole
  | plain noOpening noClosing balanced ih =>
      generalize same : _ ++ last = cells at whole
      cases whole with
      | nil => cases same
      | plain _ _ balanced => cases same; exact ih balanced
      | pair pairs _ _ =>
          obtain ⟨shape, opens, -⟩ := pairs
          obtain rfl := (List.cons.inj same).1
          simp [opens] at noOpening
  | @pair opening closing inner rest pairs inside balanced inside_ih ih =>
      generalize same : _ ++ last = cells at whole
      cases whole with
      | nil => cases same
      | plain noOpening _ _ =>
          obtain ⟨shape, opens, -⟩ := pairs
          cases same
          simp [opens] at noOpening
      | @pair opening' closing' inner' rest' pairs' inside' balanced' =>
          have parts : opening :: (inner ++ closing :: (rest ++ last)) =
              opening' :: (inner' ++ closing' :: rest') := by simpa using same
          obtain ⟨-, rfl⟩ := pairs.inside_unique inside pairs' inside' parts
          exact ih balanced'

theorem exists_closing {cells front rest : List Cell} {opening : Cell} {shape : Bracket}
    (balanced : Balanced cells) (whole : cells = front ++ opening :: rest)
    (opens : opening.opens? = some shape) :
    ∃ inner closing tail, rest = inner ++ closing :: tail ∧ Pairs opening closing ∧
      Balanced inner := by
  induction balanced generalizing front rest with
  | nil => simp at whole
  | @plain cell cells noOpening noClosing balanced ih =>
      cases front with
      | nil =>
          obtain rfl : cell = opening := by simpa using (List.cons.inj whole).1
          simp [opens] at noOpening
      | cons first front => exact ih (List.cons.inj whole).2
  | @pair first closing inner tail pairs inside balanced inside_ih ih =>
      have noOpening : closing.opens? = none := by
        obtain ⟨_, -, closes⟩ := pairs
        exact Cell.opens_of_closes closes
      cases front with
      | nil =>
          obtain ⟨rfl, rfl⟩ := List.cons.inj whole
          exact ⟨inner, closing, tail, rfl, pairs, inside⟩
      | cons other front =>
          obtain ⟨-, parts⟩ := List.cons.inj whole
          rcases List.append_eq_append_iff.mp parts with ⟨middle, rfl, same⟩ | ⟨middle, rfl, same⟩
          · cases middle with
            | nil =>
                obtain rfl : closing = opening := by simpa using (List.cons.inj same).1
                simp [opens] at noOpening
            | cons next middle => exact ih (List.cons.inj same).2
          · cases middle with
            | nil =>
                obtain rfl : opening = closing := by simpa using (List.cons.inj same).1
                simp [opens] at noOpening
            | cons next middle =>
                obtain ⟨rfl, rfl⟩ : opening = next ∧ rest = middle ++ closing :: tail := by
                  simpa using same
                obtain ⟨inner, closer, more, rfl, paired, balanced⟩ := inside_ih rfl
                exact ⟨inner, closer, more ++ closing :: tail, by simp, paired, balanced⟩

end Balanced

end SwiftWorkspace
