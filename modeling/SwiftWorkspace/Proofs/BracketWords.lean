import SwiftWorkspace.Proofs.Brackets

/-!
# Words of brackets

The brackets in some cells make up a word, and the cells are balanced exactly if this word
is well nested.  From an opening bracket on, the brackets are well nested for the first
time where that bracket is closed: the search for a closing bracket recognises this
language, whatever stands between the brackets and behind them.
-/

namespace SwiftWorkspace

inductive BracketMark where
  | opening (shape : Bracket)
  | closing (shape : Bracket)
  deriving DecidableEq, Repr

/-- Words in which each bracket pairs up with one of its own shape, and no two pairs cross. -/
inductive WellNested : List BracketMark → Prop where
  | nil : WellNested []
  | pair {inner rest : List BracketMark} (shape : Bracket) (inside : WellNested inner)
      (behind : WellNested rest) : WellNested (.opening shape :: (inner ++ .closing shape :: rest))

def Cell.bracket? (cell : Cell) : Option BracketMark :=
  match cell.opens?, cell.closes? with
  | some shape, _ => some (.opening shape)
  | none, some shape => some (.closing shape)
  | none, none => none

def brackets (cells : List Cell) : List BracketMark := cells.filterMap Cell.bracket?

namespace Cell

variable {cell : Cell} {shape : Bracket}

theorem bracket?_eq_opening_iff :
    cell.bracket? = some (.opening shape) ↔ cell.opens? = some shape := by
  unfold bracket?
  split <;> simp_all

theorem bracket?_eq_closing_iff :
    cell.bracket? = some (.closing shape) ↔ cell.closes? = some shape := by
  unfold bracket?
  split
  · rename_i opens
    simp [closes_of_opens opens]
  · simp_all
  · simp_all

theorem bracket?_eq_none_iff : cell.bracket? = none ↔ cell.opens? = none ∧ cell.closes? = none := by
  unfold bracket?
  split <;> simp_all

end Cell

theorem Pairs.opens {opening closing : Cell} (pairs : Pairs opening closing) :
    opening.opens?.isSome := by
  obtain ⟨shape, opens, -⟩ := pairs
  simp [opens]

theorem pairs_iff {opening closing : Cell} : Pairs opening closing ↔
    ∃ shape, opening.bracket? = some (.opening shape) ∧
      closing.bracket? = some (.closing shape) := by
  simp only [Cell.bracket?_eq_opening_iff, Cell.bracket?_eq_closing_iff, Pairs]

theorem Balanced.wellNested {cells : List Cell} (balanced : Balanced cells) :
    WellNested (brackets cells) := by
  induction balanced with
  | nil => exact .nil
  | plain noOpening noClosing balanced ih =>
      rwa [brackets, List.filterMap_cons_none
        (Cell.bracket?_eq_none_iff.mpr ⟨noOpening, noClosing⟩)]
  | pair pairs inside balanced inside_ih ih =>
      obtain ⟨shape, opens, closes⟩ := pairs_iff.mp pairs
      rw [brackets, List.filterMap_cons_some opens, List.filterMap_append,
        List.filterMap_cons_some closes]
      exact .pair shape inside_ih ih

theorem WellNested.balanced {word : List BracketMark} (nested : WellNested word) {cells : List Cell}
    (spelled : brackets cells = word) : Balanced cells := by
  have plain {padding : List Cell} (none : ∀ cell ∈ padding, cell.bracket? = none) :
      Balanced padding :=
    .of_noBrackets fun cell member => Cell.bracket?_eq_none_iff.mp (none cell member)
  induction nested generalizing cells with
  | nil => exact plain (List.filterMap_eq_nil_iff.mp spelled)
  | pair shape inside behind inside_ih ih =>
      obtain ⟨front, opening, cells, rfl, before, opens, spelled⟩ :=
        List.filterMap_eq_cons_iff.mp spelled
      obtain ⟨inner, cells, rfl, inner_spelled, spelled⟩ := List.filterMap_eq_append_iff.mp spelled
      obtain ⟨padding, closing, rest, rfl, between, closes, rest_spelled⟩ :=
        List.filterMap_eq_cons_iff.mp spelled
      have inside : Balanced (inner ++ padding) := (inside_ih inner_spelled).append (plain between)
      have pairs : Pairs opening closing := pairs_iff.mpr ⟨shape, opens, closes⟩
      have enclosed : Balanced (opening :: ((inner ++ padding) ++ closing :: rest)) :=
        .pair pairs inside (ih rest_spelled)
      simpa using (plain before).append enclosed

theorem balanced_iff_wellNested {cells : List Cell} :
    Balanced cells ↔ WellNested (brackets cells) :=
  ⟨Balanced.wellNested, fun nested => nested.balanced rfl⟩

/--
A bracket that opens balanced cells is closed among them, and behind it they are balanced again.
-/
theorem Balanced.of_opens {opening : Cell} {cells : List Cell}
    (balanced : Balanced (opening :: cells)) (opens : opening.opens?.isSome) :
    ∃ inner closing rest, cells = inner ++ closing :: rest ∧ Pairs opening closing ∧
      Balanced inner ∧ Balanced rest := by
  cases balanced with
  | plain noOpening _ _ => simp [noOpening] at opens
  | pair pairs inside behind => exact ⟨_, _, _, rfl, pairs, inside, behind⟩

namespace Source

/-- Whether the position holds an opening bracket in code. -/
def opensAt (source : Source) (position : Nat) : Bool :=
  (source.at? position).any (·.opens?.isSome)

def bracketsIn (source : Source) (first last : Nat) : List BracketMark :=
  brackets (source.cellsIn ⟨first, last + 1⟩)

structure Encloses (source : Source) (first last : Nat) : Prop where
  opens : source.opensAt first
  later : first < last
  nested : WellNested (source.bracketsIn first last)
  least : ∀ position, first ≤ position → position < last →
    ¬WellNested (source.bracketsIn first position)

variable {source : Source} {first last : Nat}

theorem opensAt_iff : source.opensAt first ↔
    ∃ opening rest, source.cells.drop first = opening :: rest ∧ opening.opens?.isSome := by
  rw [opensAt, at?, ← List.head?_drop]
  cases source.cells.drop first <;> simp

theorem cellsIn_cons {opening : Cell} {rest : List Cell}
    (stands : source.cells.drop first = opening :: rest) (ordered : first ≤ last) :
    source.cellsIn ⟨first, last + 1⟩ = opening :: rest.take (last - first) := by
  have size : last + 1 - first = (last - first) + 1 := by omega
  simp [cellsIn, Span.size, stands, size]

/-- What stands behind the closing bracket makes no difference to it. -/
theorem closing?_of_drop {opening closing : Cell} {inner rest : List Cell}
    (stands : source.cells.drop first = opening :: (inner ++ closing :: rest))
    (pairs : Pairs opening closing) (inside : Balanced inner) :
    source.closing? first = some (first + 1 + inner.length) := by
  have within : first ≤ source.cells.length := by
    have size := congrArg List.length stands
    simp only [List.length_drop, List.length_cons] at size
    omega
  refine closing?_eq_some_iff.mpr ⟨source.cells.take first, opening, inner, closing, rest, ?_, ?_,
    pairs, inside, rfl⟩
  · rw [← stands, List.take_append_drop]
  · simp [within]

theorem drop_of_closing? (found : source.closing? first = some last) :
    ∃ opening inner closing rest, source.cells.drop first = opening :: (inner ++ closing :: rest) ∧
      Pairs opening closing ∧ Balanced inner ∧ last = first + 1 + inner.length := by
  obtain ⟨before, opening, inner, closing, rest, whole, rfl, pairs, inside, rfl⟩ :=
    closing?_eq_some_iff.mp found
  exact ⟨opening, inner, closing, rest, by rw [whole, List.drop_left], pairs, inside, rfl⟩

/-- A pair of brackets is balanced, and it is so at no position inside. -/
theorem Encloses.of_closing? (found : source.closing? first = some last) :
    source.Encloses first last := by
  obtain ⟨opening, inner, closing, rest, stands, pairs, inside, rfl⟩ := drop_of_closing? found
  refine ⟨opensAt_iff.mpr ⟨opening, _, stands, pairs.opens⟩, by omega, ?_, ?_⟩
  · have taken : source.cellsIn ⟨first, first + 1 + inner.length + 1⟩ =
        opening :: (inner ++ [closing]) := by
      have whole : inner ++ closing :: rest = (inner ++ [closing]) ++ rest := by simp
      have size : first + 1 + inner.length - first = (inner ++ [closing]).length := by
        rw [List.length_append, List.length_singleton]
        omega
      rw [cellsIn_cons stands (by omega), size, whole, List.take_left]
    rw [bracketsIn, taken]
    exact (Balanced.enclose pairs inside).wellNested
  · intro position ordered before nested
    rw [bracketsIn, cellsIn_cons stands ordered] at nested
    obtain ⟨inner', closing', rest', split, pairs', inside', -⟩ :=
      (balanced_iff_wellNested.mpr nested).of_opens pairs.opens
    -- The bracket would be closed inside of the part, and so before the place where it is closed.
    have short : inner'.length + 1 ≤ position - first := by
      have := congrArg List.length split
      simp only [List.length_take, List.length_append, List.length_cons] at this
      omega
    have whole : inner ++ closing :: rest =
        inner' ++ closing' :: (rest' ++ (inner ++ closing :: rest).drop (position - first)) := by
      calc inner ++ closing :: rest
          = (inner ++ closing :: rest).take (position - first) ++
              (inner ++ closing :: rest).drop (position - first) := (List.take_append_drop ..).symm
        _ = _ := by rw [split]; simp
    have again := closing?_of_drop (whole ▸ stands) pairs' inside'
    rw [found, Option.some.injEq] at again
    omega

/-- Where the brackets are well nested for the first time, the opening one is closed. -/
theorem Encloses.closing? (encloses : source.Encloses first last) :
    source.closing? first = some last := by
  obtain ⟨opening, rest, stands, opens⟩ := opensAt_iff.mp encloses.opens
  have nested := encloses.nested
  rw [bracketsIn, cellsIn_cons stands (Nat.le_of_lt encloses.later)] at nested
  obtain ⟨inner, closing, tail, split, pairs, inside, -⟩ :=
    (balanced_iff_wellNested.mpr nested).of_opens opens
  have whole : rest = inner ++ closing :: (tail ++ rest.drop (last - first)) := by
    calc rest = rest.take (last - first) ++ rest.drop (last - first) :=
      (List.take_append_drop ..).symm
      _ = _ := by rw [split]; simp
  have found := closing?_of_drop (whole ▸ stands) pairs inside
  have short : inner.length + 1 ≤ last - first := by
    have := congrArg List.length split
    simp only [List.length_take, List.length_append, List.length_cons] at this
    omega
  -- The pair is well nested itself, so that it cannot end before the first such position.
  have late : ¬first + 1 + inner.length < last := fun before =>
    encloses.least _ (by omega) before (Encloses.of_closing? found).nested
  rw [found, Option.some.injEq]
  omega

/--
The search for a closing bracket finds the first position at which the brackets are well nested.
-/
theorem closing?_eq_some_iff_encloses :
    source.closing? first = some last ↔ source.Encloses first last :=
  ⟨.of_closing?, Encloses.closing?⟩

/-- A bracket that opens among balanced cells is closed among them, wherever they stand. -/
theorem exists_closing?_of_balanced {cells rest : List Cell}
    (stands : source.cells.drop first = cells ++ rest)
    (balanced : Balanced cells) {position : Nat} (behind : first ≤ position)
    (before : position < first + cells.length) (opens : source.opensAt position) :
    ∃ closing, source.closing? position = some closing ∧ position < closing ∧
      closing < first + cells.length := by
  obtain ⟨opening, after, there, opened⟩ := opensAt_iff.mp opens
  obtain ⟨shape, shaped⟩ := Option.isSome_iff_exists.mp opened
  have within : position - first < cells.length := by omega
  have place : first + (position - first) = position := by omega
  have skipped : source.cells.drop position = cells.drop (position - first) ++ rest := by
    rw [← place, ← List.drop_drop, stands, place,
      List.drop_append_of_le_length (Nat.le_of_lt within)]
  rw [there, List.drop_eq_getElem_cons within, List.cons_append] at skipped
  obtain ⟨rfl, rfl⟩ := List.cons.inj skipped
  have parts : cells = cells.take (position - first) ++
      cells[position - first] :: cells.drop (position - first + 1) := by
    rw [← List.drop_eq_getElem_cons within, List.take_append_drop]
  obtain ⟨inner, closing, tail, split, pairs, inside⟩ := balanced.exists_closing parts shaped
  have size := congrArg List.length split
  simp only [List.length_drop, List.length_append, List.length_cons] at size
  have shown : source.cells.drop position = cells[position - first] ::
      (inner ++ closing :: (tail ++ rest)) := by
    simpa [split] using there
  exact ⟨_, closing?_of_drop shown pairs inside, by omega, by omega⟩

theorem exists_closing?_inside (found : source.closing? first = some last) {position : Nat}
    (behind : first < position) (before : position < last) (opens : source.opensAt position) :
    ∃ closing, source.closing? position = some closing ∧ position < closing ∧ closing < last := by
  obtain ⟨opening, inner, closing, rest, stands, -, inside, rfl⟩ := drop_of_closing? found
  have shown : source.cells.drop (first + 1) = inner ++ closing :: rest := by
    rw [← List.drop_drop, stands, List.drop_succ_cons, List.drop_zero]
  exact exists_closing?_of_balanced shown inside behind before opens

theorem exists_closing?_of_wellNested (nested : WellNested (brackets source.cells)) {position : Nat}
    (opens : source.opensAt position) : ∃ closing, source.closing? position = some closing := by
  obtain ⟨opening, rest, stands, -⟩ := opensAt_iff.mp opens
  have within : position < source.cells.length := by
    have size := congrArg List.length stands
    simp only [List.length_drop, List.length_cons] at size
    omega
  have whole : source.cells.drop 0 = source.cells ++ [] := by rw [List.drop_zero, List.append_nil]
  obtain ⟨closing, found, -⟩ :=
    exists_closing?_of_balanced whole (balanced_iff_wellNested.mpr nested)
    (Nat.zero_le _) (by simpa using within) opens
  exact ⟨closing, found⟩

end Source

/--
The search for a closing bracket recognises the language of the well-nested words: in every text it
goes from an opening bracket in code to the first position at which the brackets of code up to there
are well nested, and finds nothing exactly if there is no such position.  Every bracket that opens
inside of the pair is then closed inside of it.
-/
theorem closing?_recognises (text : Text) (first : Nat) :
    (∀ last, (Source.ofText text).closing? first = some last ↔
      (Source.ofText text).Encloses first last) ∧
      ((Source.ofText text).closing? first = none ↔
        ¬∃ last, (Source.ofText text).Encloses first last) ∧
      ∀ last, (Source.ofText text).closing? first = some last →
        ∀ position, first < position → position < last → (Source.ofText text).opensAt position →
          ∃ closing, (Source.ofText text).closing? position = some closing ∧
            position < closing ∧ closing < last := by
  refine ⟨fun last => Source.closing?_eq_some_iff_encloses, ?_, ?_⟩
  · simp only [Option.eq_none_iff_forall_ne_some, ne_eq,
      Source.closing?_eq_some_iff_encloses, not_exists]
  · exact fun last found position behind before opens =>
      Source.exists_closing?_inside found behind before opens

end SwiftWorkspace
