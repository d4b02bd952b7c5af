import SwiftWorkspace.Proofs.Lines
import SwiftWorkspace.Proofs.Orderly

/-!
# Rows with one more element

Appending an element to an array adds it to the row inside of the brackets: the
other elements stay, the row is read on its own again, and there are no new
comments.
-/

namespace SwiftWorkspace

open Kind (Clear Firm Scans Bland chars cellsOf)

/-- What an element brings along that can stand in any row. -/
structure Sturdy (piece : List Cell) : Prop where
  solid : Solid piece
  firm : Firm piece
  silent : ∀ cell ∈ piece, cell.kind ≠ .comment

def commaCell : Cell := ⟨',', .code⟩

/-- What stands in front of an element: a line feed and an indentation, or a space. -/
def gapCells : Option Text → List Cell
  | some indent => cellsOf .code ('\n' :: indent)
  | none => cellsOf .code [' ']

theorem mem_gapCells {own : Option Text}
    (tabs : ∀ indent ∈ own, ∀ char ∈ indent, char = ' ' ∨ char = '\t')
    {cell : Cell} (member : cell ∈ gapCells own) :
    cell.kind = .code ∧ (cell.char = ' ' ∨ cell.char = '\t' ∨ cell.char = '\n') := by
  cases own with
  | none => simp_all [gapCells, cellsOf]
  | some indent =>
      have blank := tabs indent rfl
      simp only [gapCells, cellsOf, List.map_cons, List.mem_cons, List.mem_map] at member
      rcases member with rfl | ⟨char, inside, rfl⟩
      · simp
      · rcases blank char inside with rfl | rfl <;> simp

namespace Text

theorem exists_blanks (text : Text) :
    ∃ blanks, text = text.stripEnd ++ blanks ∧ blanks.allBlank := by
  refine ⟨(text.reverse.takeWhile isBlank).reverse, ?_, ?_⟩
  · rw [stripEnd, trimEnd, ← List.reverse_append, List.takeWhile_append_dropWhile,
      List.reverse_reverse]
  · rw [allBlank, List.all_reverse]
    exact List.all_takeWhile ..

theorem mem_stripEnd {text : Text} {char : Char} (member : char ∈ text.stripEnd) : char ∈ text := by
  obtain ⟨blanks, whole, -⟩ := exists_blanks text
  rw [whole]
  exact List.mem_append_left _ member

end Text

namespace Row

/-- Whether no comment goes over a line feed, and every comment stands behind some element. -/
structure Tame (row : Row) : Prop where
  feeds : ∀ cell ∈ row.cells, cell.kind = .comment → cell.char ≠ '\n'
  filled : row.entries = [] → ∀ cell ∈ row.cells, cell.kind ≠ .comment

structure Appended (row : Row) (piece : List Cell) (other : Row) : Prop where
  valid : other.Valid
  pieces : other.pieces = row.pieces ++ [piece]
  clear : Clear other.cells
  comments : ∀ cell ∈ other.cells, cell.kind = .comment → cell ∈ row.cells

def stays (own : Option Text) (behind : List Cell) : Nat :=
  if own.isSome then endOfLine behind else 0

def extend (row : Row) (first behind tail : List Cell) (own : Option Text) (piece : List Cell) :
    Row :=
  ⟨row.entries ++ [(first ++ (behind.take (stays own behind) ++ gapCells own), piece)],
    tail ++ behind.drop (stays own behind)⟩

def EndsLine (row : Row) : Prop :=
  (behindComma row.rest)[endOfLine (behindComma row.rest)]? ≠ some ⟨'\n', .comment⟩

theorem Tame.endsLine {row : Row} (tame : row.Tame) : row.EndsLine :=
  fun found => tame.feeds _
    (List.mem_append_right _ (mem_of_mem_behindComma (List.mem_of_getElem? found))) rfl rfl

def append (row : Row) (own : Option Text) (piece : List Cell) : Row :=
  match commaIn? row.rest with
  | some count =>
      row.extend (row.rest.take (count + 1)) (row.rest.drop (count + 1)) [commaCell] own piece
  | none => row.extend [commaCell] row.rest [] own piece

theorem isPadding_comma : commaCell.isPadding ∧ commaCell.isComma := by decide

theorem eq_commaCell {cell : Cell} (comma : cell.isComma) : cell = commaCell := by
  obtain ⟨char, kind⟩ := cell
  simp only [Cell.isComma, Cell.isCodeChar, Cell.isCode, Bool.and_eq_true,
    decide_eq_true_eq] at comma
  obtain ⟨rfl, rfl⟩ := comma
  rfl

section Extend

variable {row : Row} {first behind tail piece : List Cell} {own : Option Text}
  (tabs : ∀ indent ∈ own, ∀ char ∈ indent, char = ' ' ∨ char = '\t')

theorem isPadding_gap (tabs : ∀ indent ∈ own, ∀ char ∈ indent, char = ' ' ∨ char = '\t')
    {cell : Cell} (member : cell ∈ gapCells own) : cell.isPadding := by
  obtain ⟨char, kind⟩ := cell
  obtain ⟨rfl, rfl | rfl | rfl⟩ := mem_gapCells tabs member <;> decide

include tabs

theorem extend_valid (valid : row.Valid) (solid : Solid piece)
    (first_padding : ∀ cell ∈ first, cell.isPadding) (comma : ∃ cell ∈ first, cell.isComma)
    (behind_padding : ∀ cell ∈ behind, cell.isPadding)
    (tail_padding : ∀ cell ∈ tail, cell.isPadding) :
    (row.extend first behind tail own piece).Valid := by
  refine ⟨fun entry member => ?_, fun entry member => ?_, fun entry member => ?_,
    fun cell member => ?_⟩
  · rcases List.mem_append.mp member with old | new
    · exact valid.solid entry old
    · obtain rfl := List.mem_singleton.mp new
      exact solid
  · rcases List.mem_append.mp member with old | new
    · exact valid.padding entry old
    · obtain rfl := List.mem_singleton.mp new
      intro cell inside
      simp only [List.mem_append] at inside
      rcases inside with inside | inside | inside
      · exact first_padding cell inside
      · exact behind_padding cell (List.mem_of_mem_take inside)
      · exact isPadding_gap tabs inside
  · have parted : entry ∈ row.entries.tail ∨ entry.1 = first ++ (behind.take (stays own behind) ++
        gapCells own) := by
      cases entries : row.entries with
      | nil => simp [extend, entries] at member
      | cons head entries =>
          simp only [extend, entries, List.cons_append, List.tail_cons, List.mem_append,
            List.mem_singleton] at member
          rcases member with old | rfl
          · exact .inl old
          · exact .inr rfl
    rcases parted with old | new
    · exact valid.parted entry old
    · obtain ⟨cell, inside, isComma⟩ := comma
      exact ⟨cell, by simp [new, inside], isComma⟩
  · simp only [extend, List.mem_append] at member
    rcases member with inside | inside
    · exact tail_padding cell inside
    · exact behind_padding cell (List.mem_of_mem_drop inside)

theorem bland_gap {char : Char} (member : char ∈ chars (gapCells own)) : Bland [char] := by
  obtain ⟨cell, inside, rfl⟩ := List.mem_map.mp member
  obtain ⟨-, blank | blank | blank⟩ := mem_gapCells tabs inside <;> simp [blank]

omit tabs in
theorem gapCells_eq (own : Option Text) : gapCells own = cellsOf .code (chars (gapCells own)) := by
  cases own <;> simp [gapCells]

/-- Cells that are read in front of everything but a quotation mark can be put behind a comma. -/
theorem clear_gap {element : List Cell} (clear : Clear behind)
    (padding : ∀ cell ∈ behind, cell.isPadding) (firm : Firm element) :
    Clear (behind.take 0 ++ (gapCells own ++ (element ++ behind.drop 0))) := by
  rw [List.take_zero, List.drop_zero, List.nil_append, gapCells_eq]
  have noMark := Scans.head_ne_mark clear fun cell found =>
    (Cell.kind_of_isPadding (padding cell (List.mem_of_mem_head? found))).1
  refine (Scans.plain (fun char => bland_gap tabs) _).append ((firm _ ?_).append clear)
  simpa using noMark

/-- The row is read on its own when it is with a comma in the place of the element. -/
theorem extend_clear (clear : Clear (flat row.entries ++ (first ++ behind)))
    (ends : commaCell ∈ first.getLast?) (padding : ∀ cell ∈ behind, cell.isPadding)
    (ends_line : own.isSome → behind[endOfLine behind]? ≠ some ⟨'\n', .comment⟩)
    (firm : Firm (piece ++ tail)) : Clear (row.extend first behind tail own piece).cells := by
  have found : commaCell ∈ (flat row.entries ++ first).getLast? := by
    rw [List.getLast?_append, Option.mem_def.mp ends]
    rfl
  rw [← List.append_assoc] at clear
  obtain ⟨before, behind_clear⟩ := Scans.cut_behind clear found rfl
  have whole : (row.extend first behind tail own piece).cells = (flat row.entries ++ first) ++
      (behind.take (stays own behind) ++ (gapCells own ++ ((piece ++ tail) ++
        behind.drop (stays own behind)))) := by
    simp [extend, Row.cells]
  rw [whole]
  refine before.clear.append_behind ?_ found rfl (by simp [commaCell])
  cases own with
  | none => exact clear_gap tabs behind_clear padding firm
  | some indent =>
      rcases endOfLine_eq behind with zero | ⟨line, feed, rest, rfl, size, -, isFeed⟩
      · rw [stays, Option.isSome_some, if_pos rfl, zero]
        exact clear_gap tabs behind_clear padding firm
      · rw [stays, Option.isSome_some, if_pos rfl, size, List.take_left, List.drop_left]
        have code : feed = ⟨'\n', .code⟩ := by
          obtain ⟨char, kind⟩ := feed
          obtain rfl : char = '\n' := isFeed
          have inside : (⟨'\n', kind⟩ : Cell) ∈ line ++ ⟨'\n', kind⟩ :: rest := by simp
          cases kind with
          | code => rfl
          | string => exact absurd rfl (Cell.kind_of_isPadding (padding _ inside)).1
          | comment => exact absurd (by simp [size]) (ends_line rfl)
        subst code
        have middle : Firm (cellsOf .code indent ++ (piece ++ tail)) :=
          firm.plain_append fun char member =>
          bland_gap tabs (by simp [gapCells, member])
        simpa [Clear, gapCells, cellsOf] using Scans.insert_line behind_clear (middle _ (by simp))

omit tabs in
theorem mem_extend {cell : Cell} (member : cell ∈ (row.extend first behind tail own piece).cells) :
    cell ∈ flat row.entries ∨ cell ∈ first ∨ cell ∈ behind ∨ cell ∈ gapCells own ∨ cell ∈ piece ∨
      cell ∈ tail := by
  have parts : cell ∈ behind.take (stays own behind) ∨ cell ∈ behind.drop (stays own behind) ↔
      cell ∈ behind := by
    rw [← List.mem_append, List.take_append_drop]
  simp only [extend, Row.cells, flat_append, flat_cons, flat_nil, List.append_nil, List.mem_append]
    at member
  grind

end Extend

theorem clear_comma {row : Row} (valid : row.Valid) (filled : row.entries ≠ [])
    (clear : Clear row.cells) : Clear (flat row.entries ++ ([commaCell] ++ row.rest)) := by
  obtain ⟨entries, rest⟩ := row
  obtain ⟨front, entry, rfl⟩ : ∃ front entry, entries = front ++ [entry] := by
    rcases entries.eq_nil_or_concat with rfl | ⟨front, entry, rfl⟩
    · exact absurd rfl filled
    · exact ⟨front, entry, by simp⟩
  obtain ⟨last, found, significant⟩ := (valid.solid entry (by simp)).last
  have ends : last ∈ (flat (front ++ [entry])).getLast? := by
    simp [Option.mem_def.mp found]
  have comma : Clear [commaCell] := .single _ rfl (by simp [commaCell])
  rcases rest with - | ⟨right, rest⟩
  · simpa [cells] using Clear.append clear comma (by simp [commaCell])
  · have parted : Kind.Parted last right := by
      have noString := (Cell.kind_of_isPadding (valid.rest right (by simp))).1
      cases kind : last.kind with
      | code => exact .inl kind
      | string => exact .inr (.inl ⟨kind, noString⟩)
      | comment => simp [Cell.isSignificant, Cell.isCode, kind] at significant
    obtain ⟨before, behind⟩ := Scans.cut clear ends (by simp) parted
    exact before.insert behind (by simp [commaCell]) (.single _ rfl (by simp [commaCell]) _)

/-- The cells around the new element are old ones and commas. -/
theorem appended_extend {row : Row} {first behind tail piece : List Cell} {own : Option Text}
    (valid : row.Valid) (sturdy : Sturdy piece)
    (tabs : ∀ indent ∈ own, ∀ char ∈ indent, char = ' ' ∨ char = '\t')
    (clear : Clear (flat row.entries ++ (first ++ behind))) (ends : commaCell ∈ first.getLast?)
    (ends_line : own.isSome → behind[endOfLine behind]? ≠ some ⟨'\n', .comment⟩)
    (first_old : ∀ cell ∈ first, cell ∈ row.rest ∨ cell = commaCell)
    (behind_old : ∀ cell ∈ behind, cell ∈ row.rest) (tail_comma : tail = [] ∨ tail = [commaCell]) :
    row.Appended piece (row.extend first behind tail own piece) := by
  have first_padding : ∀ cell ∈ first, cell.isPadding := fun cell member => by
    rcases first_old cell member with old | rfl
    · exact valid.rest cell old
    · exact isPadding_comma.1
  have behind_padding : ∀ cell ∈ behind, cell.isPadding := fun cell member =>
    valid.rest cell (behind_old cell member)
  have tail_padding : ∀ cell ∈ tail, cell.isPadding := by
    rcases tail_comma with rfl | rfl <;> simp [isPadding_comma]
  have firm : Firm (piece ++ tail) := by
    rcases tail_comma with rfl | rfl
    · simpa using sturdy.firm
    · have comma : ∀ char ∈ [','], Bland [char] := by simp
      exact sturdy.firm.append_plain comma
  have old : ∀ cell ∈ row.rest, cell ∈ row.cells := fun cell member => by simp [cells, member]
  refine ⟨?_, by simp [extend, pieces], ?_, fun cell member comment => ?_⟩
  · exact extend_valid tabs valid sturdy.solid first_padding
      ⟨commaCell, List.mem_of_mem_getLast? ends, isPadding_comma.2⟩ behind_padding tail_padding
  · exact extend_clear tabs clear ends behind_padding ends_line firm
  · rcases mem_extend member with inside | inside | inside | inside | inside | inside
    · simp [cells, inside]
    · rcases first_old cell inside with same | rfl
      · exact old cell same
      · cases comment
    · exact old cell (behind_old cell inside)
    · simp [(mem_gapCells tabs inside).1] at comment
    · exact absurd comment (sturdy.silent cell inside)
    · rcases tail_comma with rfl | rfl
      · simp at inside
      · obtain rfl := List.mem_singleton.mp inside
        cases comment

theorem append_of_trivia {row : Row} (trivial : ∀ cell ∈ row.rest, cell.isTrivia)
    (own : Option Text)
    (piece : List Cell) : row.append own piece = row.extend [commaCell] row.rest [] own piece := by
  simp only [append, commaIn?_of_trivia trivial]

theorem commaIn?_of_comma {row : Row} {trivia behind : List Cell}
    (whole : row.rest = trivia ++ commaCell :: behind) (trivial : ∀ cell ∈ trivia, cell.isTrivia) :
    commaIn? row.rest = some trivia.length := by
  rw [whole]
  exact commaIn?_append trivial isPadding_comma.2

theorem append_of_comma {row : Row} {trivia behind : List Cell}
    (whole : row.rest = trivia ++ commaCell :: behind) (trivial : ∀ cell ∈ trivia, cell.isTrivia)
    (own : Option Text) (piece : List Cell) :
    row.append own piece = row.extend (trivia ++ [commaCell]) behind [commaCell] own piece := by
  have found := commaIn?_of_comma whole trivial
  have taken : row.rest.take (trivia.length + 1) = trivia ++ [commaCell] := by
    rw [whole, List.take_length_add_append]
    rfl
  have dropped : row.rest.drop (trivia.length + 1) = behind := by
    rw [whole, List.drop_length_add_append]
    rfl
  simp only [append, found, taken, dropped]

theorem appended_append {row : Row} {piece : List Cell} {own : Option Text} (valid : row.Valid)
    (filled : row.entries ≠ []) (clear : Clear row.cells) (ends_line : own.isSome → row.EndsLine)
    (sturdy : Sturdy piece) (tabs : ∀ indent ∈ own, ∀ char ∈ indent, char = ' ' ∨ char = '\t') :
    row.Appended piece (row.append own piece) := by
  rcases padding_eq valid.rest with trivial | ⟨trivia, comma, behind, whole, trivial, isComma⟩
  · rw [EndsLine, behindComma_of_trivia trivial] at ends_line
    rw [append_of_trivia trivial]
    exact appended_extend valid sturdy tabs (clear_comma valid filled clear)
      (by simp) ends_line (by simp)
      (fun _ member => member) (.inl rfl)
  · obtain rfl := eq_commaCell isComma
    rw [EndsLine, whole, behindComma_append trivial isPadding_comma.2] at ends_line
    rw [append_of_comma whole trivial]
    refine appended_extend valid sturdy tabs ?_ (by simp) ends_line ?_ ?_ (.inr rfl)
    · simpa [cells, whole] using clear
    · intro cell member
      rcases List.mem_append.mp member with inside | inside
      · exact .inl (by simp [whole, inside])
      · exact .inr (by simpa using inside)
    · exact fun cell member => by simp [whole, member]

def begin (row : Row) (gap behind : Text) (piece : List Cell) : Row :=
  ⟨[(cellsOf .code ((chars row.cells).stripEnd ++ gap), piece)], cellsOf .code behind⟩

theorem bland_of_isPadding {char : Char} (padding : Cell.isPadding ⟨char, .code⟩) :
    Bland [char] := by
  rw [Kind.bland_cons]
  refine ⟨?_, ?_, ?_⟩ <;> rintro rfl <;> revert padding <;> decide

theorem bland_of_isBlank {char : Char} (blank : isBlank char) : Bland [char] :=
  bland_of_isPadding (by simp [Cell.isPadding, Cell.isSignificant, Cell.isCode, blank])

/-- A row without elements has one when that is put into it. -/
theorem appended_begin {row : Row} {gap behind : Text} {piece : List Cell} (valid : row.Valid)
    (bare : row.entries = []) (tame : row.Tame) (sturdy : Sturdy piece)
    (gap_blank : ∀ char ∈ gap, char = ' ' ∨ char = '\t' ∨ char = '\n')
    (behind_blank : ∀ char ∈ behind, char = ' ' ∨ char = '\t' ∨ char = '\n') :
    row.Appended piece (row.begin gap behind piece) := by
  have blank {char : Char} (blank : char = ' ' ∨ char = '\t' ∨ char = '\n') :
      Cell.isPadding ⟨char, .code⟩ := by
    rcases blank with rfl | rfl | rfl <;> decide
  have plain {text : Text} (padding : ∀ char ∈ text, Cell.isPadding ⟨char, .code⟩) :
      ∀ cell ∈ cellsOf .code text, cell.isPadding ∧ cell.kind = .code := by
    rintro ⟨char, kind⟩ member
    obtain ⟨rfl, inside⟩ := Kind.mem_cellsOf.mp member
    exact ⟨padding char inside, rfl⟩
  have front : ∀ char ∈ (chars row.cells).stripEnd ++ gap, Cell.isPadding ⟨char, .code⟩ := by
    intro char member
    rcases List.mem_append.mp member with old | new
    · obtain ⟨⟨_, kind⟩, inside, rfl⟩ := List.mem_map.mp (Text.mem_stripEnd old)
      have silent := tame.filled bare _ inside
      have padding := valid.rest _ (by simpa [cells, bare] using inside)
      cases kind with
      | code => exact padding
      | string => exact absurd rfl (Cell.kind_of_isPadding padding).1
      | comment => exact absurd rfl silent
    · exact blank (gap_blank char new)
  have back : ∀ char ∈ behind, Cell.isPadding ⟨char, .code⟩ := fun char member =>
    blank (behind_blank char member)
  refine ⟨⟨?_, ?_, by simp [begin], ?_⟩, by simp [begin, pieces, bare], ?_, ?_⟩
  · simpa [begin] using sturdy.solid
  · intro entry member
    obtain rfl := List.mem_singleton.mp member
    exact fun cell inside => (plain front cell inside).1
  · exact fun cell inside => (plain back cell inside).1
  · have firm :=
      (sturdy.firm.append_plain fun char member =>
      bland_of_isPadding (back char member)).plain_append
      fun char member => bland_of_isPadding (front char member)
    simpa [begin, cells] using firm.clear
  · intro cell member comment
    simp only [begin, cells, flat_cons, flat_nil, List.append_nil, List.mem_append] at member
    rcases member with (inside | inside) | inside
    · simp [(plain front cell inside).2] at comment
    · exact absurd comment (sturdy.silent cell inside)
    · simp [(plain back cell inside).2] at comment

theorem Appended.milder {row other : Row} {piece : List Cell} {field : Field}
    (appended : row.Appended piece other) (valid : row.Valid) (clear : Clear row.cells)
    (quiet : mentions field.label piece = false) : Milder field row.cells other.cells := by
  refine .of_rows valid (valid.seamed clear) appended.valid (appended.valid.seamed appended.clear)
    fun found member => ?_
  rw [appended.pieces, List.mem_append, List.mem_singleton] at member
  rcases member with old | rfl
  · exact .inl ⟨found, old, .refl field found⟩
  · exact .inr (hits_of_not_mentions quiet)

/-- With a new element a row stays tame. -/
theorem Appended.tame {row other : Row} {piece : List Cell} (appended : row.Appended piece other)
    (tame : row.Tame) : other.Tame := by
  refine ⟨fun cell member comment => tame.feeds cell
    (appended.comments cell member comment) comment, fun bare => ?_⟩
  have pieces := appended.pieces
  simp [Row.pieces, bare] at pieces

end Row

theorem Text.insertAt_append {first last : Text} {position : Nat} (size : first.length = position)
    (insertion : Text) :
    (first ++ last).insertAt position insertion = first ++ (insertion ++ last) := by
  subst size
  simp [insertAt]

def Source.ownLine? (source : Source) (position : Nat) : Option Text :=
  if source.startsLine position then some (source.lineIndent position) else none

theorem Source.mem_ownLine? {source : Source} {position : Nat} :
    ∀ indent ∈ source.ownLine? position, ∀ char ∈ indent, char = ' ' ∨ char = '\t' := by
  intro indent found char member
  rw [ownLine?] at found
  split at found
  · obtain rfl := Option.some.inj found
    exact mem_lineIndent member
  · cases found

namespace Frame

variable (frame : Frame) {row : Row}

theorem insertAt_fill {cells first last new : List Cell} {position : Nat} {insertion : Text}
    (split : cells = first ++ last) (place : position = frame.front.length + 1 + first.length)
    (same : chars new = insertion) :
    (frame.fill cells).text.insertAt position insertion =
      (frame.fill (first ++ (new ++ last))).text := by
  have text (last : List Cell) : (frame.fill (first ++ last)).text =
      chars (frame.front ++ frame.opening :: first) ++
        chars (last ++ frame.closing :: frame.back) := by
    simp [fill, Source.text, chars]
  rw [split, text, text, Text.insertAt_append]
  · simp [← same]
  · simp [place]
    omega

theorem appendBehind_fill (valid : row.Valid) {front : List (List Cell × List Cell)}
    {padding last : List Cell} (entries : row.entries = front ++ [(padding, last)]) {start : Nat}
    (begins : start = frame.front.length + 1 + (Row.flat front).length + padding.length)
    (piece : List Cell) :
    (frame.fill row.cells).appendBehind (frame.span row.cells) ⟨start, start + last.length⟩
        (chars piece) =
      (frame.fill (row.append ((frame.fill row.cells).ownLine? start) piece).cells).text := by
  have place : start + last.length = frame.front.length + 1 + (Row.flat row.entries).length := by
    simp [entries, begins]
    omega
  have stop : frame.front.length + 1 + row.cells.length =
      start + last.length + row.rest.length := by
    simp [Row.cells, place]
    omega
  have shown : (frame.fill row.cells).Shows (start + last.length) row.rest := by
    have stands := frame.shows_fill row.cells
    rw [Row.cells] at stands ⊢
    exact place ▸ stands.right
  have taken (cells : List Cell) : (cells.take (endOfLine cells)).length = endOfLine cells := by
    rw [List.length_take, Nat.min_eq_left (endOfLine_le cells)]
  rw [Source.appendBehind, Source.ownLine?]
  generalize (frame.fill row.cells).lineIndent start = indent
  simp only [span, stop, shown.commaAfter?]
  rcases padding_eq valid.rest with trivial | ⟨trivia, comma, behind, whole, trivial, isComma⟩
  · rw [Row.append_of_trivia trivial, commaIn?_of_trivia trivial, shown.endOfLineAfter]
    split
    · have line : row.cells = (Row.flat row.entries ++ row.rest.take (endOfLine row.rest)) ++
          row.rest.drop (endOfLine row.rest) := by
        rw [List.append_assoc, List.take_append_drop, Row.cells]
      have newLine : chars (cellsOf .code ('\n' :: indent) ++ piece) =
          '\n' :: indent ++ chars piece := by
        simp
      have lineEnd : start + last.length + endOfLine row.rest = frame.front.length + 1 +
          (Row.flat row.entries ++ row.rest.take (endOfLine row.rest)).length := by
        rw [List.length_append, taken, place]
        omega
      have comma : chars [commaCell] = [','] := rfl
      simp only [Option.map_none]
      rw [frame.insertAt_fill line lineEnd newLine,
        frame.insertAt_fill (List.append_assoc ..) place comma]
      simp [Row.extend, Row.cells, Row.stays, gapCells]
    · have inline : chars (commaCell :: gapCells none ++ piece) = ',' :: ' ' :: chars piece := rfl
      simp only [Option.map_none]
      rw [frame.insertAt_fill (Row.cells.eq_1 row) place inline]
      simp [Row.extend, Row.cells, Row.stays]
  · obtain rfl := Row.eq_commaCell isComma
    have found := Row.commaIn?_of_comma whole trivial
    have size : start + last.length + row.rest.length =
        start + last.length + trivia.length + 1 + behind.length := by
      simp [whole]
      omega
    have shown_behind : (frame.fill row.cells).Shows (start + last.length + trivia.length + 1)
        behind := by
      rw [whole] at shown
      exact shown.right.tail
    rw [Row.append_of_comma whole trivial, found, size]
    simp only [Option.map_some, shown_behind.endOfLineAfter]
    split
    · have line : row.cells = (Row.flat row.entries ++ (trivia ++ commaCell ::
          behind.take (endOfLine behind))) ++ behind.drop (endOfLine behind) := by
        rw [List.append_assoc, List.append_assoc, List.cons_append,
          List.take_append_drop, Row.cells, whole]
      have newLine : chars (cellsOf .code ('\n' :: indent) ++ (piece ++ [commaCell])) =
          '\n' :: indent ++ chars piece ++ [','] := by
        simp [commaCell]
      have lineEnd : start + last.length + trivia.length + 1 + endOfLine behind =
          frame.front.length + 1 + (Row.flat row.entries ++ (trivia ++ commaCell ::
            behind.take (endOfLine behind))).length := by
        simp only [List.length_append, List.length_cons, taken, place]
        omega
      rw [frame.insertAt_fill line lineEnd newLine]
      simp [Row.extend, Row.cells, Row.stays, gapCells]
    · have inline : chars (gapCells none ++ (piece ++ [commaCell])) =
          ' ' :: chars piece ++ [','] := by
        simp [gapCells, commaCell]
      have comma : row.cells = (Row.flat row.entries ++ (trivia ++ [commaCell])) ++ behind := by
        simp [Row.cells, whole]
      have commaEnd : start + last.length + trivia.length + 1 = frame.front.length + 1 +
          (Row.flat row.entries ++ (trivia ++ [commaCell])).length := by
        simp only [List.length_append, List.length_cons, List.length_nil, place]
        omega
      rw [frame.insertAt_fill comma commaEnd inline]
      simp [Row.extend, Row.cells, Row.stays]

/-- What is inside of the gap is replaced as a whole. -/
theorem replaceSpan_fill (old new : List Cell) :
    (frame.fill old).text.replaceSpan (frame.span old) (chars new) = (frame.fill new).text := by
  have text (inner : List Cell) : (frame.fill inner).text =
      chars (frame.front ++ [frame.opening]) ++
      (chars inner ++ chars (frame.closing :: frame.back)) := by
    simp [fill, Source.text, chars]
  have front : frame.front.length + 1 = (chars (frame.front ++ [frame.opening])).length := by simp
  have stop : frame.front.length + 1 + old.length =
      (chars (frame.front ++ [frame.opening])).length + (chars old).length := by simp
  rw [Text.replaceSpan, text, text, span]
  simp only [stop]
  rw [front, List.take_left, ← List.drop_drop, List.drop_left, List.drop_left, List.append_assoc]

/-- The gap and the rest of the line of the first element of an array. -/
def margins (frame : Frame) (row : Row) : ArrayLayout → Text × Text
  | .multiline =>
      let indent := (frame.fill row.cells).lineIndent frame.front.length
      ('\n' :: indent ++ indentUnit, '\n' :: indent)
  | .inline => (if (chars row.cells).stripEnd.isEmpty then [] else [' '], [])

theorem mem_margins {frame : Frame} {row : Row} {layout : ArrayLayout} {char : Char}
    (member : char ∈ (frame.margins row layout).1 ∨ char ∈ (frame.margins row layout).2) :
    char = ' ' ∨ char = '\t' ∨ char = '\n' := by
  cases layout with
  | multiline =>
      have tabs := @Source.mem_lineIndent (frame.fill row.cells) frame.front.length char
      simp only [margins, indentUnit, List.cons_append, List.mem_cons, List.mem_append] at member
      grind
  | inline =>
      simp only [margins] at member
      grind

theorem appendElement_fill_of_bare (valid : row.Valid) (bare : row.entries = []) (piece : List Cell)
    (layout : ArrayLayout) :
    (frame.fill row.cells).appendElement (frame.span row.cells) (chars piece) layout =
      (frame.fill (row.begin (frame.margins row layout).1 (frame.margins row layout).2
        piece).cells).text := by
  have elements : (frame.fill row.cells).elements (frame.span row.cells) = [] := by
    rw [span, Source.elements_row valid (frame.shows_fill row.cells), bare]
    rfl
  have inner : (frame.fill row.cells).textIn (frame.span row.cells) = chars row.cells := by
    rw [Source.textIn, frame.cellsIn_span, chars]
  rw [Source.appendElement, elements, ← frame.replaceSpan_fill row.cells]
  simp only [List.getLast?_nil, Source.fillArray, inner]
  congr 1
  cases layout with
  | multiline =>
      simp only [Row.begin, margins, span]
      generalize (chars row.cells).stripEnd = kept
      simp [Row.cells]
  | inline =>
      simp only [Row.begin, margins]
      generalize (chars row.cells).stripEnd = kept
      cases kept <;> simp [Row.cells]

theorem appendElement_fill_of_filled (valid : row.Valid) {front : List (List Cell × List Cell)}
    {padding last : List Cell} (entries : row.entries = front ++ [(padding, last)]) {start : Nat}
    (begins : start = frame.front.length + 1 + (Row.flat front).length + padding.length)
    (piece : List Cell) (layout : ArrayLayout) :
    (frame.fill row.cells).appendElement (frame.span row.cells) (chars piece) layout =
      (frame.fill (row.append ((frame.fill row.cells).ownLine? start) piece).cells).text := by
  have elements : (frame.fill row.cells).elements (frame.span row.cells) =
      Row.spansFrom (frame.front.length + 1) front ++ [⟨start, start + last.length⟩] := by
    rw [span, Source.elements_row valid (frame.shows_fill row.cells), entries, Row.spansFrom_append,
      begins]
    rfl
  rw [Source.appendElement, elements, List.getLast?_concat]
  exact frame.appendBehind_fill valid entries begins piece

theorem appendElement_fill (valid : row.Valid) (clear : Clear row.cells) (tame : row.Tame)
    {piece : List Cell} (sturdy : Sturdy piece) (layout : ArrayLayout) :
    ∃ other : Row, row.Appended piece other ∧
      (frame.fill row.cells).appendElement (frame.span row.cells) (chars piece) layout =
        (frame.fill other.cells).text := by
  rcases row.entries.eq_nil_or_concat with bare | ⟨front, ⟨padding, last⟩, entries⟩
  · exact ⟨_, Row.appended_begin valid bare tame sturdy (fun _ member => mem_margins (.inl member))
      (fun _ member => mem_margins (.inr member)),
      frame.appendElement_fill_of_bare valid bare piece layout⟩
  · rw [List.concat_eq_append] at entries
    exact ⟨_, Row.appended_append valid (by simp [entries]) clear (fun _ => tame.endsLine) sturdy
      Source.mem_ownLine?, frame.appendElement_fill_of_filled valid entries rfl piece layout⟩

end Frame

end SwiftWorkspace
