import SwiftWorkspace.Proofs.Brackets
import SwiftWorkspace.Source.Element

/-!
# Rows of elements

What stands inside of brackets is a row: solid elements with padding in front of
them and behind the last one.  Padding holds nothing but separators, blanks and
comments, and there is a separator in the padding between two elements.  The
elements that the library finds are exactly those of the row.
-/

namespace SwiftWorkspace

namespace Cell

def isComma (cell : Cell) : Bool := cell.isCodeChar ','

/-- Whether the cell belongs to no element: it is a comma, a blank or part of a comment. -/
def isPadding (cell : Cell) : Bool := cell.isComma || !cell.isSignificant

theorem noBrackets_of_isPadding {cell : Cell} (padding : cell.isPadding) :
    cell.opens? = none ∧ cell.closes? = none := by
  obtain ⟨char, kind⟩ := cell
  cases kind with
  | string => simp [isPadding, isComma, isSignificant, isCodeChar, isCode] at padding
  | comment => simp [opens?, closes?, isCode]
  | code =>
      simp only [isPadding, isComma, isSignificant, isCodeChar, isCode, decide_true, Bool.true_and,
        reduceCtorEq, decide_false, Bool.false_or, Bool.or_eq_true, decide_eq_true_eq,
        Bool.not_not] at padding
      simp only [opens?, closes?, isCode, decide_true, if_true]
      constructor
      · unfold Bracket.opened?
        split <;> first | rfl | (revert padding; decide)
      · unfold Bracket.closed?
        split <;> first | rfl | (revert padding; decide)

theorem isSignificant_of_opens {cell : Cell} {shape : Bracket} (opens : cell.opens? = some shape) :
    cell.isSignificant ∧ cell.isComma = false := by
  have noPadding : ¬cell.isPadding := fun padding => by
    simp [noBrackets_of_isPadding padding] at opens
  simp_all [isPadding]

theorem isSignificant_of_closes {cell : Cell} {shape : Bracket}
    (closes : cell.closes? = some shape) : cell.isSignificant ∧ cell.isComma = false := by
  have noPadding : ¬cell.isPadding := fun padding => by
    simp [noBrackets_of_isPadding padding] at closes
  simp_all [isPadding]

end Cell

/-- Cells whose brackets pair up, and without a comma outside of brackets. -/
inductive Unbroken : List Cell → Prop where
  | nil : Unbroken []
  | plain {cell : Cell} {rest : List Cell} (noOpening : cell.opens? = none)
      (noClosing : cell.closes? = none) (noComma : cell.isComma = false)
      (unbroken : Unbroken rest) : Unbroken (cell :: rest)
  | pair {opening closing : Cell} {inner rest : List Cell} (pairs : Pairs opening closing)
      (inside : Balanced inner) (unbroken : Unbroken rest) :
      Unbroken (opening :: (inner ++ closing :: rest))

namespace Unbroken

variable {first last cells : List Cell}

theorem append (front : Unbroken first) (back : Unbroken last) : Unbroken (first ++ last) := by
  induction front with
  | nil => exact back
  | plain noOpening noClosing noComma unbroken ih => exact .plain noOpening noClosing noComma ih
  | pair pairs inside unbroken ih => simpa using .pair pairs inside ih

theorem balanced (unbroken : Unbroken cells) : Balanced cells := by
  induction unbroken with
  | nil => exact .nil
  | plain noOpening noClosing noComma unbroken ih => exact .plain noOpening noClosing ih
  | pair pairs inside unbroken ih => exact .pair pairs inside ih

/-- Padding without a comma does not break an element. -/
theorem of_padding (padding : ∀ cell ∈ cells, cell.isPadding)
    (noComma : ∀ cell ∈ cells, cell.isComma = false) : Unbroken cells := by
  induction cells with
  | nil => exact .nil
  | cons cell cells ih =>
      obtain ⟨noOpening, noClosing⟩ := Cell.noBrackets_of_isPadding (padding cell (by simp))
      exact .plain noOpening noClosing (noComma cell (by simp))
        (ih (fun other member => padding other (by simp [member]))
          (fun other member => noComma other (by simp [member])))

/-- Cells without brackets and commas do not break an element. -/
theorem of_plain (plain : ∀ cell ∈ cells, cell.opens? = none ∧ cell.closes? = none ∧
    cell.isComma = false) : Unbroken cells := by
  induction cells with
  | nil => exact .nil
  | cons cell cells ih =>
      obtain ⟨noOpening, noClosing, noComma⟩ := plain cell (by simp)
      exact .plain noOpening noClosing noComma
        (ih fun other member => plain other (by simp [member]))

/-- A rest is unbroken when the whole is, and the brackets in front of it pair up. -/
theorem of_append (whole : Unbroken (first ++ last)) (front : Balanced first) : Unbroken last := by
  induction front with
  | nil => exact whole
  | plain noOpening noClosing balanced ih =>
      generalize same : _ ++ last = cells at whole
      cases whole with
      | nil => cases same
      | plain _ _ _ unbroken => cases same; exact ih unbroken
      | pair pairs _ _ =>
          obtain ⟨shape, opens, -⟩ := pairs
          obtain rfl := (List.cons.inj same).1
          simp [opens] at noOpening
  | @pair opening closing inner rest pairs inside balanced inside_ih ih =>
      generalize same : _ ++ last = cells at whole
      cases whole with
      | nil => cases same
      | plain noOpening _ _ _ =>
          obtain ⟨shape, opens, -⟩ := pairs
          cases same
          simp [opens] at noOpening
      | @pair opening' closing' inner' rest' pairs' inside' unbroken =>
          have parts : opening :: (inner ++ closing :: (rest ++ last)) =
              opening' :: (inner' ++ closing' :: rest') := by simpa using same
          obtain ⟨-, rfl⟩ := pairs.inside_unique inside pairs' inside' parts
          exact ih unbroken

end Unbroken

/-- An unbroken run of cells that begins and ends with a significant one. -/
structure Solid (cells : List Cell) : Prop where
  unbroken : Unbroken cells
  first : ∃ cell ∈ cells.head?, cell.isSignificant
  last : ∃ cell ∈ cells.getLast?, cell.isSignificant

namespace Solid

variable {first last cells : List Cell}

theorem ne_nil (solid : Solid cells) : cells ≠ [] := by
  rintro rfl
  obtain ⟨cell, found, -⟩ := solid.first
  simp at found

theorem join {middle : List Cell} (front : Solid first) (between : Unbroken middle)
    (back : Solid last) : Solid (first ++ middle ++ last) := by
  obtain ⟨head, found, significant⟩ := front.first
  obtain ⟨tail, ends, significant'⟩ := back.last
  exact ⟨(front.unbroken.append between).append back.unbroken, ⟨head, by simp_all, significant⟩,
    ⟨tail, by simp_all, significant'⟩⟩

theorem single {cell : Cell} (noOpening : cell.opens? = none) (noClosing : cell.closes? = none)
    (noPadding : cell.isPadding = false) : Solid [cell] := by
  obtain ⟨noComma, significant⟩ : cell.isComma = false ∧ cell.isSignificant = true := by
    simpa [Cell.isPadding] using noPadding
  exact ⟨.plain noOpening noClosing noComma .nil, ⟨cell, rfl, significant⟩,
    ⟨cell, rfl, significant⟩⟩

theorem enclose {opening closing : Cell} {inner : List Cell} (pairs : Pairs opening closing)
    (inside : Balanced inner) : Solid (opening :: (inner ++ [closing])) := by
  refine ⟨.pair pairs inside .nil, ⟨opening, rfl, ?_⟩, ⟨closing, ?_, ?_⟩⟩
  · obtain ⟨shape, opens, -⟩ := pairs
    exact (Cell.isSignificant_of_opens opens).1
  · rw [Option.mem_def, ← List.cons_append, List.getLast?_concat]
  · obtain ⟨shape, -, closes⟩ := pairs
    exact (Cell.isSignificant_of_closes closes).1

theorem of_plain (plain : ∀ cell ∈ cells, cell.opens? = none ∧ cell.closes? = none ∧
    cell.isComma = false) (first : ∃ cell ∈ cells.head?, cell.isSignificant)
    (last : ∃ cell ∈ cells.getLast?, cell.isSignificant) : Solid cells :=
  ⟨.of_plain plain, first, last⟩

/-- An element stays one when the inside of brackets in it is exchanged. -/
theorem exchange {front inner new back : List Cell} {opening closing : Cell}
    (solid : Solid (front ++ opening :: (inner ++ closing :: back))) (plain : Unbroken front)
    (pairs : Pairs opening closing) (inside : Balanced inner) (balanced : Balanced new) :
    Solid (front ++ opening :: (new ++ closing :: back)) := by
  have behind : Unbroken back := by
    have whole := (solid.unbroken.of_append plain.balanced)
    rw [← List.singleton_append (l := back), ← List.append_assoc, ← List.cons_append] at whole
    exact whole.of_append (.enclose pairs inside)
  refine ⟨plain.append (.pair pairs balanced behind), ?_, ?_⟩
  · cases front with
    | nil => simpa using solid.first
    | cons cell front => simpa using solid.first
  · have last := solid.last
    simp only [List.getLast?_append, List.getLast?_cons] at last ⊢
    simpa using last

end Solid

/-- Elements, each behind its padding, and the padding behind the last one. -/
structure Row where
  entries : List (List Cell × List Cell)
  rest : List Cell

namespace Row

def flat (entries : List (List Cell × List Cell)) : List Cell :=
  entries.flatMap fun entry => entry.1 ++ entry.2

@[simp] theorem flat_nil : flat [] = [] := rfl

@[simp] theorem flat_cons (entry : List Cell × List Cell) (entries : List (List Cell × List Cell)) :
    flat (entry :: entries) = entry.1 ++ (entry.2 ++ flat entries) := by
  simp [flat]

@[simp] theorem flat_append (first last : List (List Cell × List Cell)) :
    flat (first ++ last) = flat first ++ flat last := by
  simp [flat]

def cells (row : Row) : List Cell := flat row.entries ++ row.rest

def pieces (row : Row) : List (List Cell) := row.entries.map Prod.snd

def spansFrom : Nat → List (List Cell × List Cell) → List Span
  | _, [] => []
  | position, (padding, piece) :: entries =>
      ⟨position + padding.length, position + padding.length + piece.length⟩ ::
        spansFrom (position + padding.length + piece.length) entries

theorem spansFrom_append (position : Nat) (front back : List (List Cell × List Cell)) :
    spansFrom position (front ++ back) =
      spansFrom position front ++ spansFrom (position + (flat front).length) back := by
  induction front generalizing position with
  | nil => rfl
  | cons entry front ih =>
      rw [List.cons_append, spansFrom, spansFrom, ih, List.cons_append, flat_cons,
        List.length_append, List.length_append]
      simp only [Nat.add_assoc]

/-- A span among those of entries belongs to one of them. -/
theorem spansFrom_eq_append {position : Nat} {entries : List (List Cell × List Cell)}
    {before behind : List Span} {span : Span}
    (split : spansFrom position entries = before ++ span :: behind) :
    ∃ front padding piece back, entries = front ++ (padding, piece) :: back ∧
      before = spansFrom position front ∧
      span.start = position + (flat front).length + padding.length ∧
      span = ⟨span.start, span.start + piece.length⟩ := by
  induction entries generalizing position before with
  | nil => simp [spansFrom] at split
  | cons entry entries ih =>
      obtain ⟨padding, piece⟩ := entry
      cases before with
      | nil =>
          obtain ⟨rfl, -⟩ := List.cons.inj split
          exact ⟨[], padding, piece, entries, rfl, rfl, rfl, rfl⟩
      | cons first before =>
          obtain ⟨rfl, more⟩ := List.cons.inj split
          obtain ⟨front, other, found, back, rfl, rfl, start, whole⟩ := ih more
          refine ⟨(padding, piece) :: front, other, found, back, rfl, rfl, ?_, whole⟩
          simp only [start, flat_cons, List.length_append]
          omega

structure Valid (row : Row) : Prop where
  solid : ∀ entry ∈ row.entries, Solid entry.2
  padding : ∀ entry ∈ row.entries, ∀ cell ∈ entry.1, cell.isPadding
  parted : ∀ entry ∈ row.entries.tail, ∃ cell ∈ entry.1, cell.isComma
  rest : ∀ cell ∈ row.rest, cell.isPadding

theorem Valid.tail {entry : List Cell × List Cell} {entries : List (List Cell × List Cell)}
    {rest : List Cell} (valid : Valid ⟨entry :: entries, rest⟩) : Valid ⟨entries, rest⟩ :=
  ⟨fun other member => valid.solid other (.tail _ member), fun other member => valid.padding other
    (.tail _ member),
    fun other member => valid.parted other (List.mem_of_mem_tail member), valid.rest⟩

theorem Valid.balanced {row : Row} (valid : row.Valid) : Balanced row.cells := by
  have plain {padding : List Cell} (inside : ∀ cell ∈ padding, cell.isPadding) : Balanced padding :=
    .of_noBrackets fun cell member => Cell.noBrackets_of_isPadding (inside cell member)
  obtain ⟨entries, rest⟩ := row
  have flat : Balanced (flat entries) := by
    have solid := valid.solid
    have padding := valid.padding
    clear valid
    induction entries with
    | nil => exact .nil
    | cons entry entries ih =>
        rw [flat_cons]
        refine (plain (padding entry (by simp))).append
          ((solid entry (by simp)).unbroken.balanced.append (ih ?_ ?_))
        · exact fun other member => solid other (by simp [member])
        · exact fun other member => padding other (by simp [member])
  exact flat.append (plain valid.rest)

theorem Valid.cons_padding {row : Row} (valid : row.Valid) {cell : Cell}
    (padding : cell.isPadding) : ∃ other : Row, other.Valid ∧ other.cells = cell :: row.cells := by
  obtain ⟨entries, rest⟩ := row
  cases entries with
  | nil =>
      exact ⟨⟨[], cell :: rest⟩,
        ⟨by simp, by simp, by simp, by simpa [padding] using valid.rest⟩, rfl⟩
  | cons entry entries =>
      refine ⟨⟨(cell :: entry.1, entry.2) :: entries, rest⟩, ⟨?_, ?_, valid.parted, valid.rest⟩, ?_⟩
      · simpa using valid.solid
      · simpa [padding] using valid.padding
      · simp [cells]

/-- Solid cells in front of a row are an element of their own or part of the first one. -/
theorem Valid.append_solid {row : Row} (valid : row.Valid) {block : List Cell}
    (solid : Solid block) : ∃ other : Row, other.Valid ∧ other.cells = block ++ row.cells := by
  obtain ⟨entries, rest⟩ := row
  cases entries with
  | nil => exact ⟨⟨[([], block)], rest⟩, ⟨by simpa, by simp, by simp, valid.rest⟩, by simp [cells]⟩
  | cons entry entries =>
      by_cases comma : ∃ cell ∈ entry.1, cell.isComma
      · refine ⟨⟨([], block) :: entry :: entries, rest⟩, ⟨?_, ?_, ?_, valid.rest⟩, by simp [cells]⟩
        · simpa [solid] using valid.solid
        · simpa using valid.padding
        · intro other member
          rcases List.mem_cons.mp member with rfl | member
          · exact comma
          · exact valid.parted other member
      · have between : Unbroken entry.1 :=
          .of_padding (valid.padding entry (by simp)) (by simpa using comma)
        refine ⟨⟨([], block ++ entry.1 ++ entry.2) :: entries, rest⟩, ⟨?_, ?_, valid.parted,
          valid.rest⟩, by simp [cells]⟩
        · intro other member
          rcases List.mem_cons.mp member with rfl | member
          · exact solid.join between (valid.solid entry (by simp))
          · exact valid.solid other (by simp [member])
        · intro other member
          rcases List.mem_cons.mp member with rfl | member
          · simp
          · exact valid.padding other (by simp [member])

/-- Cells whose brackets pair up are those of a row. -/
theorem exists_of_balanced {inner : List Cell} (balanced : Balanced inner) :
    ∃ row : Row, row.Valid ∧ row.cells = inner := by
  induction balanced with
  | nil => exact ⟨⟨[], []⟩, ⟨by simp, by simp, by simp, by simp⟩, rfl⟩
  | @plain cell rest noOpening noClosing balanced ih =>
      obtain ⟨row, valid, rfl⟩ := ih
      by_cases padding : cell.isPadding
      · exact valid.cons_padding padding
      · exact valid.append_solid (.single noOpening noClosing (by simpa using padding))
  | pair pairs inside balanced inside_ih ih =>
      obtain ⟨row, valid, rfl⟩ := ih
      simpa using valid.append_solid (.enclose pairs inside)

end Row

namespace Source

/-- The element found so far behind some more cells that no comma separates. -/
def reach (current : Option Span) (position : Nat) : List Cell → Option Span
  | [] => current
  | cell :: cells =>
      reach (if cell.isSignificant then some (Span.extend? current position) else current)
        (position + 1) cells

theorem reach_append (current : Option Span) (position : Nat) (first last : List Cell) :
    reach current position (first ++ last) =
      reach (reach current position first) (position + first.length) last := by
  induction first generalizing current position with
  | nil => rfl
  | cons cell first ih =>
      simp only [List.cons_append, reach, ih, List.length_cons]
      congr 1
      omega

theorem reach_start (start stop position : Nat) (cells : List Cell) :
    ∃ reached, reach (some ⟨start, stop⟩) position cells = some ⟨start, reached⟩ := by
  induction cells generalizing stop position with
  | nil => exact ⟨stop, rfl⟩
  | cons cell cells ih =>
      simp only [reach, Span.extend?]
      split
      · exact ih _ _
      · exact ih _ _

/-- A solid element is found from its first to its last cell. -/
theorem reach_solid {cells : List Cell} (solid : Solid cells) (position : Nat) :
    reach none position cells = some ⟨position, position + cells.length⟩ := by
  obtain ⟨first, head, significant⟩ := solid.first
  obtain ⟨last, found, significant'⟩ := solid.last
  rcases cells.eq_nil_or_concat with rfl | ⟨front, tail, rfl⟩
  · simp at found
  · obtain rfl : tail = last := by simpa using found
    simp only [List.concat_eq_append, reach_append, reach, significant', if_true, Span.extend?,
      List.length_append, List.length_cons, List.length_nil]
    cases front with
    | nil => simp [reach]
    | cons cell front =>
        obtain rfl : cell = first := by simpa using head
        simp only [reach, significant, if_true, Span.extend?]
        obtain ⟨reached, same⟩ := reach_start position (position + 1) (position + 1) front
        simp [same]
        omega

theorem elementsFrom_cons {cell : Cell} {depth : Nat} (noSeparator : cell.separates depth = false)
    (position : Nat) (current : Option Span) (rest : List Cell) :
    elementsFrom depth position current (cell :: rest) =
      elementsFrom (cell.depthAfter depth) (position + 1)
        (if cell.isSignificant then some (Span.extend? current position) else current) rest := by
  simp only [elementsFrom, noSeparator, Bool.false_eq_true, if_false]
  split <;> rfl

theorem separates_outside (cell : Cell) : cell.separates 0 = cell.isComma := by
  simp [Cell.separates, Cell.isComma]

theorem separates_inside (cell : Cell) (depth : Nat) : cell.separates (depth + 1) = false := by
  simp [Cell.separates]

/-- Inside of further brackets no comma separates elements. -/
theorem elementsFrom_inside {cells : List Cell} (balanced : Balanced cells) (depth position : Nat)
    (current : Option Span) (rest : List Cell) :
    elementsFrom (depth + 1) position current (cells ++ rest) =
      elementsFrom (depth + 1) (position + cells.length) (reach current position cells) rest := by
  induction balanced generalizing depth position current rest with
  | nil => rfl
  | plain noOpening noClosing balanced ih =>
      rw [List.cons_append, elementsFrom_cons (separates_inside ..),
        Cell.depthAfter_plain noOpening noClosing, ih, reach, List.length_cons]
      congr 1
      omega
  | @pair opening closing inner tail pairs inside balanced inside_ih ih =>
      rw [List.cons_append, elementsFrom_cons (separates_inside ..), pairs.depthAfter_opening,
        List.append_assoc, inside_ih, List.cons_append, elementsFrom_cons (separates_inside ..),
        pairs.depthAfter_closing, ih, reach, reach_append, reach, List.length_cons,
        List.length_append, List.length_cons]
      congr 1
      omega

theorem elementsFrom_unbroken {cells : List Cell} (unbroken : Unbroken cells) (position : Nat)
    (current : Option Span) (rest : List Cell) :
    elementsFrom 0 position current (cells ++ rest) =
      elementsFrom 0 (position + cells.length) (reach current position cells) rest := by
  induction unbroken generalizing position current rest with
  | nil => rfl
  | @plain cell tail noOpening noClosing noComma unbroken ih =>
      have noSeparator : cell.separates 0 = false := (separates_outside cell).trans noComma
      rw [List.cons_append, elementsFrom_cons noSeparator,
        Cell.depthAfter_plain noOpening noClosing, ih, reach, List.length_cons]
      congr 1
      omega
  | @pair opening closing inner tail pairs inside unbroken ih =>
      have noSeparator : opening.separates 0 = false := by
        obtain ⟨shape, opens, -⟩ := pairs
        exact (separates_outside opening).trans (Cell.isSignificant_of_opens opens).2
      rw [List.cons_append, elementsFrom_cons noSeparator, pairs.depthAfter_opening,
        List.append_assoc, elementsFrom_inside inside, List.cons_append,
        elementsFrom_cons (separates_inside ..), pairs.depthAfter_closing, ih, reach, reach_append,
        reach, List.length_cons, List.length_append, List.length_cons]
      congr 1
      omega

theorem elementsFrom_padding {cells : List Cell} (padding : ∀ cell ∈ cells, cell.isPadding)
    (position : Nat) (current : Option Span) (rest : List Cell) :
    elementsFrom 0 position current (cells ++ rest) =
      if ∃ cell ∈ cells, cell.isComma then
        current.toList ++ elementsFrom 0 (position + cells.length) none rest
      else elementsFrom 0 (position + cells.length) current rest := by
  induction cells generalizing position current with
  | nil => simp
  | cons cell cells ih =>
      obtain ⟨noOpening, noClosing⟩ := Cell.noBrackets_of_isPadding (padding cell (by simp))
      have rest_padding : ∀ other ∈ cells, other.isPadding := fun other member =>
        padding other (by simp [member])
      have place : position + 1 + cells.length = position + (cell :: cells).length := by
        simp only [List.length_cons]
        omega
      rw [List.cons_append]
      cases comma : cell.isComma with
      | true =>
          rw [elementsFrom, separates_outside, comma]
          simp [ih rest_padding, comma, place]
      | false =>
          have noSeparator : cell.separates 0 = false := (separates_outside cell).trans comma
          have insignificant : cell.isSignificant = false := by
            simpa [Cell.isPadding, comma] using padding cell (by simp)
          rw [elementsFrom_cons noSeparator, Cell.depthAfter_plain noOpening noClosing,
            insignificant, ih rest_padding]
          simp [comma, place]

/-- Behind an element that is complete come those of the rest of the row. -/
theorem elementsFrom_entries {entries : List (List Cell × List Cell)} {rest : List Cell}
    (solid : ∀ entry ∈ entries, Solid entry.2)
    (padding : ∀ entry ∈ entries, ∀ cell ∈ entry.1, cell.isPadding)
    (parted : ∀ entry ∈ entries, ∃ cell ∈ entry.1, cell.isComma)
    (ends : ∀ cell ∈ rest, cell.isPadding) (position : Nat) (span : Span) :
    elementsFrom 0 position (some span) (Row.flat entries ++ rest) =
      span :: Row.spansFrom position entries := by
  induction entries generalizing span position with
  | nil =>
      have behind := elementsFrom_padding ends position (some span) []
      rw [List.append_nil] at behind
      simp only [Row.flat_nil, List.nil_append, behind, Row.spansFrom]
      split <;> simp [elementsFrom]
  | cons entry entries ih =>
      rw [Row.flat_cons, List.append_assoc, List.append_assoc,
        elementsFrom_padding (padding entry (by simp)), if_pos (parted entry (by simp)),
        elementsFrom_unbroken (solid entry (by simp)).unbroken,
        reach_solid (solid entry (by simp)),
        ih (fun other member => solid other (by simp [member]))
          (fun other member => padding other (by simp [member]))
          (fun other member => parted other (by simp [member]))]
      rfl

theorem elementsFrom_row {row : Row} (valid : row.Valid) (position : Nat) :
    elementsFrom 0 position none row.cells = Row.spansFrom position row.entries := by
  obtain ⟨entries, rest⟩ := row
  cases entries with
  | nil =>
      have behind := elementsFrom_padding valid.rest position none []
      rw [List.append_nil] at behind
      simp only [Row.cells, Row.flat_nil, List.nil_append, behind, Row.spansFrom]
      split <;> simp [elementsFrom]
  | cons entry entries =>
      have solid := valid.solid entry (by simp)
      have first (position : Nat) :
          elementsFrom 0 position none (entry.2 ++ (Row.flat entries ++ rest)) =
            ⟨position, position + entry.2.length⟩ ::
              Row.spansFrom (position + entry.2.length) entries := by
        rw [elementsFrom_unbroken solid.unbroken, reach_solid solid]
        exact elementsFrom_entries
          (fun other member => valid.solid other (List.mem_of_mem_tail member))
          (fun other member => valid.padding other (List.mem_of_mem_tail member))
          valid.parted valid.rest _ _
      rw [Row.cells, Row.flat_cons, List.append_assoc, List.append_assoc,
        elementsFrom_padding (valid.padding entry (by simp)), first]
      simp [Row.spansFrom]

def Shows (source : Source) (position : Nat) (cells : List Cell) : Prop :=
  ∃ behind, source.cells.drop position = cells ++ behind

theorem shows_alone (cells : List Cell) : (⟨cells⟩ : Source).Shows 0 cells := ⟨[], by simp⟩

namespace Shows

variable {source : Source} {position : Nat} {first last cells : List Cell}

theorem left (stands : source.Shows position (first ++ last)) : source.Shows position first := by
  obtain ⟨behind, same⟩ := stands
  exact ⟨last ++ behind, by rw [same, List.append_assoc]⟩

theorem right (stands : source.Shows position (first ++ last)) :
    source.Shows (position + first.length) last := by
  obtain ⟨behind, same⟩ := stands
  exact ⟨behind, by rw [← List.drop_drop, same, List.append_assoc, List.drop_left]⟩

theorem tail {cell : Cell} (stands : source.Shows position (cell :: cells)) :
    source.Shows (position + 1) cells := by
  rw [← List.singleton_append] at stands
  exact stands.right

theorem cellsIn (stands : source.Shows position cells) :
    source.cellsIn ⟨position, position + cells.length⟩ = cells := by
  obtain ⟨behind, same⟩ := stands
  simp [Source.cellsIn, same, Span.size]

end Shows

theorem Shows.entry {source : Source} {position : Nat} {front back : List (List Cell × List Cell)}
    {padding piece rest : List Cell}
    (stands : source.Shows position (Row.cells ⟨front ++ (padding, piece) :: back, rest⟩)) :
    source.Shows (position + (Row.flat front).length + padding.length) piece := by
  rw [Row.cells, Row.flat_append, Row.flat_cons, List.append_assoc] at stands
  exact stands.right.left.right.left

/-- What a query answers about a piece of a source that is taken on its own. -/
def read {β : Type} (query : Source → Span → β) (piece : List Cell) : β :=
  query ⟨piece⟩ ⟨0, piece.length⟩

/-- Whether a query about balanced cells answers the same wherever they stand. -/
def Local {β : Type} (query : Source → Span → β) : Prop :=
  ∀ source position piece, Balanced piece → source.Shows position piece →
    query source ⟨position, position + piece.length⟩ = read query piece

def piecesOf (cells : List Cell) : List (List Cell) := read (fun source span =>
  (source.elements span).map source.cellsIn) cells

theorem elements_row {row : Row} (valid : row.Valid) {source : Source} {position : Nat}
    (stands : source.Shows position row.cells) :
    source.elements ⟨position, position + row.cells.length⟩ =
      Row.spansFrom position row.entries := by
  rw [elements, stands.cellsIn, elementsFrom_row valid]

namespace Local

variable {β : Type} {query : Source → Span → β}

/-- A local query about the elements of a row answers for each piece on its own. -/
theorem map_spans (loc : Local query) {source : Source}
    {entries : List (List Cell × List Cell)} (balanced : ∀ entry ∈ entries, Balanced entry.2)
    {position : Nat} (stands : source.Shows position (Row.flat entries)) :
    (Row.spansFrom position entries).map (query source) =
      entries.map fun entry => read query entry.2 := by
  induction entries generalizing position with
  | nil => rfl
  | cons entry entries ih =>
      obtain ⟨padding, piece⟩ := entry
      rw [Row.flat_cons] at stands
      have here := loc source _ piece (balanced _ List.mem_cons_self) stands.right.left
      have there := ih (fun other member => balanced other (by simp [member])) stands.right.right
      simp only [Row.spansFrom, List.map_cons, here, there]

theorem forall_spans_iff {test : Source → Span → Bool} (loc : Local test) {source : Source}
    {entries : List (List Cell × List Cell)} (balanced : ∀ entry ∈ entries, Balanced entry.2)
    {position : Nat} (stands : source.Shows position (Row.flat entries)) :
    (∀ span ∈ Row.spansFrom position entries, test source span = true) ↔
      ∀ entry ∈ entries, read test entry.2 = true := by
  have answers : (∀ answer ∈ (Row.spansFrom position entries).map (test source), answer = true) ↔
      ∀ answer ∈ entries.map fun entry => read test entry.2, answer = true := by
    rw [loc.map_spans balanced stands]
  rwa [List.forall_mem_map, List.forall_mem_map] at answers

theorem map_elements (loc : Local query) {row : Row} (valid : row.Valid) {source : Source}
    {position : Nat} (stands : source.Shows position row.cells) :
    (source.elements ⟨position, position + row.cells.length⟩).map (query source) =
      row.pieces.map (read query) := by
  rw [elements_row valid stands, Row.pieces, List.map_map]
  exact loc.map_spans (fun entry member => (valid.solid entry member).unbroken.balanced)
    stands.left

end Local

theorem read_cellsIn (piece : List Cell) : read Source.cellsIn piece = piece := by
  simp [read, cellsIn, Span.size]

theorem local_cellsIn : Local Source.cellsIn := by
  intro source position piece balanced stands
  rw [stands.cellsIn, read_cellsIn]

theorem piecesOf_row {row : Row} (valid : row.Valid) : piecesOf row.cells = row.pieces := by
  have spans := local_cellsIn.map_elements valid (shows_alone row.cells)
  simp only [funext read_cellsIn, List.map_id', Nat.zero_add] at spans
  exact spans

theorem Local.elements {β : Type} {query : Source → Span → β} (loc : Local query) {source : Source}
    {position : Nat} {inner : List Cell} (balanced : Balanced inner)
    (stands : source.Shows position inner) :
    (source.elements ⟨position, position + inner.length⟩).map (query source) =
      (piecesOf inner).map (read query) := by
  obtain ⟨row, valid, rfl⟩ := Row.exists_of_balanced balanced
  rw [loc.map_elements valid stands, piecesOf_row valid]

theorem solid_of_mem_piecesOf {inner piece : List Cell} (balanced : Balanced inner)
    (member : piece ∈ piecesOf inner) : Solid piece := by
  obtain ⟨row, valid, rfl⟩ := Row.exists_of_balanced balanced
  rw [piecesOf_row valid, Row.pieces, List.mem_map] at member
  obtain ⟨entry, member, rfl⟩ := member
  exact valid.solid entry member

end Source

end SwiftWorkspace
