import SwiftWorkspace.Proofs.Remainders

/-!
# Undoing an insertion

When the element that was put at the end of an array is deleted again, the array is
the one that it was: the cuts cover the new element, its indentation and its comma,
and nothing else.
-/

namespace SwiftWorkspace

open Kind (Clear chars cellsOf)

namespace Source

variable {source : Source} {array : Span} {goes : Span → Bool}

theorem cutsFrom_concat {front : List Span} {kept run : Option Span} {last element : Span}
    (stay : ∀ other ∈ front ++ [last], goes other = false) (gone : goes element = true) :
    source.cutsFrom array goes kept run (front ++ [last, element]) =
      source.lastCuts array element element (some last) := by
  induction front generalizing kept run with
  | nil => simp [cutsFrom, stay last, gone]
  | cons first front ih =>
      have here : goes first = false := stay first (by simp)
      have rest : ∀ other ∈ front ++ [last], goes other = false := fun other member =>
        stay other (.tail _ member)
      rw [List.cons_append, cutsFrom, here, if_neg Bool.false_ne_true]
      exact ih rest

theorem lastCuts_of_startsLine {element kept : Span} {start : Nat}
    (starts : source.startsLine element.start = true)
    (feed : source.lastLineFeed? kept.stop element.start = some start) :
    source.lastCuts array element element (some kept) =
      match source.commaAfter? element.stop array.stop with
      | some comma => [⟨start, source.endOfLineAfter (comma + 1) array.stop⟩]
      | none =>
          ((source.commaAfter? kept.stop element.start).map
            fun separator => Span.mk separator (separator + 1)).toList ++
              [⟨start, source.endOfLineAfter element.stop array.stop⟩] := by
  cases comma : source.commaAfter? element.stop array.stop with
  | none => simp only [lastCuts, starts, feed, comma, Option.getD_some, if_true]
  | some comma => simp only [lastCuts, starts, feed, comma, Option.getD_some, if_true]

theorem lastCuts_of_not_startsLine {element kept : Span}
    (starts : source.startsLine element.start = false) :
    source.lastCuts array element element (some kept) = [⟨kept.stop, element.stop⟩] := by
  simp [lastCuts, starts]

end Source

def lastLine (cells : List Cell) : List Cell := (cells.reverse.takeWhile (·.char ≠ '\n')).reverse

theorem lastLine_append {before line : List Cell} (inside : ∀ cell ∈ line, cell.char ≠ '\n')
    (ends : ∀ cell ∈ before.getLast?, cell.char = '\n') : lastLine (before ++ line) = line := by
  rw [lastLine, List.reverse_append, takeWhile_exact (by simpa using inside), List.reverse_reverse]
  intro cell found
  rw [List.head?_reverse] at found
  simpa using ends cell found

def ownIndent? (before behind : List Cell) : Option Text :=
  let line := lastLine before
  if line.length < before.length && (chars line).allBlank then
    some (((line ++ behind).takeWhile fun cell => cell.char = ' ' || cell.char =
      '\t').map Cell.char)
  else none

theorem takeWhile_stop {α : Type} {holds : α → Bool} {front back : List α} {stop : α}
    (stops : holds stop = false) :
    (front ++ stop :: back).takeWhile holds = front.takeWhile holds := by
  induction front with
  | nil => simp [stops]
  | cons value front ih => simp [List.takeWhile_cons, ih]

theorem Cell.isBlank_of_opens {cell : Cell} {shape : Bracket} (opens : cell.opens? = some shape) :
    isBlank cell.char = false := by
  have significant := (isSignificant_of_opens opens).1
  simpa [isSignificant, isCode, isCode_of_opens opens] using significant

theorem Cell.isBlank_of_closes {cell : Cell} {shape : Bracket}
    (closes : cell.closes? = some shape) : isBlank cell.char = false := by
  have significant := (isSignificant_of_closes closes).1
  simpa [isSignificant, isCode, isCode_of_closes closes] using significant

namespace Frame

variable (frame : Frame) {row : Row}

/-- Whether an element has a line of its own in an array is known from the inside of the array. -/
theorem ownLine?_fill {before behind : List Cell} {start : Nat}
    (place : start = frame.front.length + 1 + before.length) :
    (frame.fill (before ++ behind)).ownLine? start = ownIndent? before behind := by
  obtain ⟨first, line, rfl, ends, inside⟩ := Source.exists_line before
  obtain ⟨shape, opens, closes⟩ := frame.pairs
  rw [ownIndent?, lastLine_append inside ends, Source.ownLine?]
  cases first with
  | nil =>
      -- On the line of the opening bracket nothing has a line of its own.
      have starts : (⟨frame.front ++ frame.opening :: (line ++ (behind ++ frame.closing ::
          frame.back))⟩ : Source).startsLine (frame.front.length + 1 + line.length) = false :=
        Source.startsLine_eq_false (Cell.isBlank_of_opens opens) inside
      have blocked : (frame.fill (([] ++ line) ++ behind)).startsLine start = false := by
        rw [place]
        simpa [fill] using starts
      rw [blocked]
      simp
  | cons cell first =>
      have whole : frame.fill ((cell :: first ++ line) ++ behind) =
          ⟨(frame.front ++ frame.opening :: (cell :: first)) ++ (line ++ (behind ++
            frame.closing :: frame.back))⟩ := by
        simp [fill]
      have size : start = (frame.front ++ frame.opening :: (cell :: first)).length +
          line.length := by
        rw [place]
        simp only [List.length_append, List.length_cons]
        omega
      have feed : ∀ other ∈ (frame.front ++ frame.opening :: (cell :: first)).getLast?,
          other.char = '\n' := by
        simpa [List.getLast?_append] using ends
      have indent : (line ++ (behind ++ frame.closing :: frame.back)).takeWhile
          (fun cell => cell.char = ' ' || cell.char = '\t') =
            (line ++ behind).takeWhile fun cell => cell.char = ' ' || cell.char = '\t' := by
        rw [← List.append_assoc]
        refine takeWhile_stop ?_
        have solid := Cell.isBlank_of_closes closes
        simp only [Bool.or_eq_false_iff, decide_eq_false_iff_not]
        constructor <;> rintro same <;> rw [same] at solid <;> exact absurd solid (by decide)
      rw [whole, size, Source.startsLine_eq inside feed, Source.lineIndent,
        Source.lineStart_eq inside feed, List.drop_left, indent]
      have longer : line.length < (cell :: first ++ line).length := by
        simp only [List.length_append, List.length_cons]
        omega
      simp only [decide_eq_true longer, Bool.true_and]

theorem line_fill {cells behind : List Cell} {indent : Text}
    (tabs : ∀ char ∈ indent, char = ' ' ∨ char = '\t') {position : Nat}
    (place : position = frame.front.length + 1 + cells.length + 1 + indent.length) :
    (frame.fill (cells ++ (gapCells (some indent) ++ behind))).startsLine position = true ∧
      ∀ start, start ≤ frame.front.length + 1 + cells.length →
        (frame.fill (cells ++ (gapCells (some indent) ++ behind))).lastLineFeed? start position =
          some (frame.front.length + 1 + cells.length) := by
  have noFeed : ∀ cell ∈ cellsOf .code indent, cell.char ≠ '\n' := by
    intro cell member
    rcases tabs cell.char (Kind.mem_cellsOf.mp member).2 with space | tab
    · rw [space]
      decide
    · rw [tab]
      decide
  have whole : frame.fill (cells ++ (gapCells (some indent) ++ behind)) =
      ⟨(frame.front ++ frame.opening :: cells) ++ ⟨'\n', .code⟩ :: (cellsOf .code indent ++
        (behind ++ frame.closing :: frame.back))⟩ := by
    simp [fill, gapCells, Kind.cellsOf_cons]
  have size : (frame.front ++ frame.opening :: cells).length =
      frame.front.length + 1 + cells.length := by
    simp only [List.length_append, List.length_cons]
    omega
  rw [whole]
  constructor
  · have split : (frame.front ++ frame.opening :: cells) ++ ⟨'\n', .code⟩ ::
        (cellsOf .code indent ++
          (behind ++ frame.closing :: frame.back)) =
        ((frame.front ++ frame.opening :: cells) ++ [Cell.mk '\n' .code]) ++
          (cellsOf .code indent ++
          (behind ++ frame.closing :: frame.back)) := by
      simp
    have line : position =
        ((frame.front ++ frame.opening :: cells) ++ [Cell.mk '\n' .code]).length +
        (cellsOf .code indent).length := by
      simp only [List.length_append, List.length_cons, List.length_nil, Kind.length_cellsOf, place]
      omega
    have ends : ∀ cell ∈ ((frame.front ++ frame.opening :: cells) ++ [Cell.mk '\n' .code]).getLast?,
        cell.char = '\n' := by
      rw [List.getLast?_concat]
      rintro cell ⟨⟩
      rfl
    rw [split, line, Source.startsLine_eq noFeed ends, Kind.chars_cellsOf, Text.allBlank,
      List.all_eq_true]
    intro char member
    rcases tabs char member with rfl | rfl <;> decide
  · intro start le
    rw [← size]
    refine Source.lastLineFeed?_eq rfl noFeed (by omega) ?_
    rw [place, size, Kind.length_cellsOf]

theorem inline_fill {cells behind : List Cell} {position : Nat}
    (place : position = frame.front.length + 1 + cells.length + 2) :
    (frame.fill (cells ++ (commaCell :: (gapCells none ++ behind)))).startsLine
      position = false := by
  have whole : frame.fill (cells ++ (commaCell :: (gapCells none ++ behind))) =
      ⟨(frame.front ++ frame.opening :: cells) ++ commaCell :: (cellsOf .code [' '] ++
        (behind ++ frame.closing :: frame.back))⟩ := by
    simp [fill, gapCells]
  have size : position = (frame.front ++ frame.opening :: cells).length + 1 +
      (cellsOf .code [' ']).length := by
    simp only [List.length_append, List.length_cons, List.length_nil, Kind.length_cellsOf, place]
    omega
  rw [whole, size]
  exact Source.startsLine_eq_false (by decide) (by decide)

section Cuts

variable {front ending piece cells : List Cell} {indent : Text} {last : Span} {start : Nat}

theorem shows_behind (frame : Frame) (front behind : List Cell) :
    (frame.fill (front ++ behind)).Shows (frame.front.length + 1 + front.length) behind :=
  (frame.shows_fill (front ++ behind)).right

theorem commaIn?_comma (ending : List Cell) : commaIn? (commaCell :: ending) = some 0 :=
  show commaIn? ([] ++ commaCell :: ending) =
    some 0 from commaIn?_append (by simp) Row.isPadding_comma.2

/-- A new last line goes with its line feed and its comma. -/
theorem uncovered_line_comma (tabs : ∀ char ∈ indent, char = ' ' ∨ char = '\t')
    (ended : endOfLine ending = 0) (le : last.stop ≤ frame.front.length + 1 + front.length)
    (begins : start = frame.front.length + 1 + front.length + (gapCells (some indent)).length)
    (whole : cells = front ++ (gapCells (some indent) ++ (piece ++ commaCell :: ending))) :
    uncovered (Span.covers ((frame.fill cells).lastCuts (frame.span cells)
        ⟨start, start + piece.length⟩ ⟨start, start + piece.length⟩ (some last)))
      (frame.front.length + 1) cells = front ++ ending := by
  have gap : (gapCells (some indent)).length = indent.length + 1 := by simp [gapCells]
  have stop : (frame.span cells).stop = start + piece.length + (commaCell :: ending).length := by
    simp only [span, whole, List.length_append]
    omega
  have shown : (frame.fill cells).Shows (start + piece.length) (commaCell :: ending) := by
    rw [whole, begins]
    exact (frame.shows_behind front _).right.right
  have shown_over := shown.tail.endOfLineAfter
  obtain ⟨starts, feeds⟩ : (frame.fill (front ++ (gapCells (some indent) ++
      (piece ++ commaCell :: ending)))).startsLine start = true ∧ _ :=
        frame.line_fill tabs (by omega)
  rw [← whole] at starts feeds
  have cuts : (frame.fill cells).lastCuts (frame.span cells) ⟨start, start + piece.length⟩
      ⟨start, start + piece.length⟩ (some last) =
        [⟨frame.front.length + 1 + front.length, start + piece.length + 1⟩] := by
    rw [Source.lastCuts_of_startsLine starts (feeds _ le), stop, shown.commaAfter?, commaIn?_comma]
    have line : (frame.fill cells).endOfLineAfter (start + piece.length + 0 + 1)
        (start + piece.length + (commaCell :: ending).length) = start + piece.length + 1 := by
      rw [ended] at shown_over
      rw [List.length_cons, Nat.add_zero, Nat.add_comm ending.length 1, ← Nat.add_assoc]
      exact shown_over
    simp only [Option.map_some, line]
  rw [cuts, whole]
  have regroup : front ++ (gapCells (some indent) ++ (piece ++ commaCell :: ending)) =
      front ++ ((gapCells (some indent) ++ (piece ++ [commaCell])) ++ ending) := by
    simp
  rw [regroup]
  refine Span.uncovered_cut rfl ?_
  simp only [List.length_append, List.length_singleton]
  omega

/--
A new last line without a comma goes with its line feed, and so does the comma in front of it.
-/
theorem uncovered_line {kept : List Cell} (tabs : ∀ char ∈ indent, char = ' ' ∨ char = '\t')
    (ended : endOfLine ending = 0) (trivial : ∀ cell ∈ ending, cell.isTrivia)
    (behind : last.stop = frame.front.length + 1 + front.length)
    (begins : start = last.stop + 1 + kept.length + (gapCells (some indent)).length)
    (whole : cells =
      front ++ (commaCell :: (kept ++ (gapCells (some indent) ++ (piece ++ ending))))) :
    uncovered (Span.covers ((frame.fill cells).lastCuts (frame.span cells)
        ⟨start, start + piece.length⟩ ⟨start, start + piece.length⟩ (some last)))
      (frame.front.length + 1) cells = front ++ (kept ++ ending) := by
  have gap : (gapCells (some indent)).length = indent.length + 1 := by simp [gapCells]
  have stop : (frame.span cells).stop = start + piece.length + ending.length := by
    simp only [span, whole, List.length_append, List.length_cons]
    omega
  have shown_all : (frame.fill cells).Shows last.stop
      ((commaCell :: (kept ++ gapCells (some indent))) ++ (piece ++ ending)) := by
    have stands := frame.shows_behind front (commaCell :: (kept ++ (gapCells (some indent) ++
      (piece ++ ending))))
    rw [← whole, ← behind] at stands
    simpa using stands
  have size : (commaCell :: (kept ++ gapCells (some indent))).length =
      1 + kept.length + (gapCells (some indent)).length := by
    simp only [List.length_cons, List.length_append]
    omega
  have shown : (frame.fill cells).Shows (start + piece.length) ending := by
    have stands := shown_all.right.right
    rwa [size, ← Nat.add_assoc, ← Nat.add_assoc, ← begins] at stands
  have separator : (frame.fill cells).commaAfter? last.stop start = some last.stop := by
    have found := shown_all.left.commaAfter?
    rwa [size, ← Nat.add_assoc, ← Nat.add_assoc, ← begins, commaIn?_comma] at found
  have shown_over := shown.endOfLineAfter
  obtain ⟨starts, feeds⟩ : (frame.fill (front ++ commaCell :: kept ++ (gapCells (some indent) ++
      (piece ++ ending)))).startsLine start = true ∧ _ :=
    frame.line_fill tabs (by simp only [List.length_append, List.length_cons]; omega)
  have regroup : front ++ commaCell :: kept ++ (gapCells (some indent) ++ (piece ++ ending)) =
      cells := by
    simp [whole]
  rw [regroup] at starts feeds
  have cuts : (frame.fill cells).lastCuts (frame.span cells) ⟨start, start + piece.length⟩
      ⟨start, start + piece.length⟩ (some last) =
        [⟨last.stop, last.stop + 1⟩, ⟨last.stop + 1 + kept.length, start + piece.length⟩] := by
    rw [Source.lastCuts_of_startsLine starts
      (feeds _ (by simp only [List.length_append]; omega)), stop,
      shown.commaAfter?, commaIn?_of_trivia trivial]
    have place : frame.front.length + 1 + (front ++ commaCell :: kept).length =
        last.stop + 1 + kept.length := by
      simp only [List.length_append, List.length_cons]
      omega
    simp only [Option.map_none, separator, shown_over, ended, place]
    rfl
  rw [cuts, whole]
  have split : front ++ (commaCell :: (kept ++ (gapCells (some indent) ++ (piece ++ ending)))) =
      front ++ ([commaCell] ++ (kept ++ ((gapCells (some indent) ++ piece) ++ ending))) := by
    simp
  rw [split]
  refine Span.uncovered_cut_cut behind ?_ rfl ?_
  · rfl
  · simp only [List.length_append]
    omega

/-- A new element on the line of the one in front of it goes with all that stands between them. -/
theorem uncovered_inline (behind : last.stop = frame.front.length + 1 + front.length)
    (begins : start = last.stop + 2)
    (whole : cells = front ++ (commaCell :: (gapCells none ++ (piece ++ ending)))) :
    uncovered (Span.covers ((frame.fill cells).lastCuts (frame.span cells)
        ⟨start, start + piece.length⟩ ⟨start, start + piece.length⟩ (some last)))
      (frame.front.length + 1) cells = front ++ ending := by
  have starts : (frame.fill cells).startsLine start = false := by
    rw [whole]
    exact frame.inline_fill (by omega)
  rw [Source.lastCuts_of_not_startsLine starts, whole]
  have split : front ++ (commaCell :: (gapCells none ++ (piece ++ ending))) =
      front ++ ((commaCell :: (gapCells none ++ piece)) ++ ending) := by
    simp
  have gap : (gapCells none).length = 1 := rfl
  rw [split]
  refine Span.uncovered_cut behind ?_
  simp only [List.length_append, List.length_cons]
  omega

end Cuts

theorem deleteElements_last {front : List (List Cell × List Cell)}
    {padding last entry piece rest : List Cell}
    {row : Row} (whole : row = ⟨front ++ [(padding, last), (entry, piece)], rest⟩)
    (valid : row.Valid) {query : Source → Span → Bool} (loc : Source.Local query)
    (stay : ∀ old ∈ front ++ [(padding, last)], Source.read query old.2 = false)
    (gone : Source.read query piece = true) {kept : Span} {start : Nat}
    (behind : kept.stop = frame.front.length + 1 + (Row.flat (front ++ [(padding, last)])).length)
    (filled : kept.start + last.length = kept.stop) (begins : start = kept.stop + entry.length)
    {left : List Cell}
    (leaves : uncovered (Span.covers ((frame.fill row.cells).lastCuts (frame.span row.cells)
      ⟨start, start + piece.length⟩ ⟨start, start + piece.length⟩ (some kept)))
      (frame.front.length + 1) row.cells = left) :
    (frame.fill row.cells).deleteElements (frame.span row.cells) (query (frame.fill row.cells)) =
      (frame.fill left).text := by
  have spans : Row.spansFrom (frame.front.length + 1) row.entries =
      Row.spansFrom (frame.front.length + 1) front ++ [kept, ⟨start, start + piece.length⟩] := by
    obtain ⟨first, stop⟩ := kept
    simp only [Row.flat_append, Row.flat_cons, Row.flat_nil, List.append_nil,
      List.length_append] at behind filled begins
    have low : first = frame.front.length + 1 + (Row.flat front).length + padding.length := by omega
    rw [whole, Row.spansFrom_append, ← filled, begins, ← filled, low]
    rfl
  have pieces : row.pieces = front.map Prod.snd ++ [last, piece] := by
    simp [whole, Row.pieces]
  have answers := loc.map_elements valid (frame.shows_fill row.cells)
  rw [Source.elements_row valid (frame.shows_fill row.cells), spans, pieces, List.map_append,
    List.map_append] at answers
  obtain ⟨old, new⟩ := List.append_inj' answers rfl
  obtain ⟨kept_stays, goes, -⟩ : query (frame.fill row.cells) kept = Source.read query last ∧
      query (frame.fill row.cells) ⟨start, start + piece.length⟩ = Source.read query piece ∧
        True := by
    simpa using new
  have stays : ∀ other ∈ Row.spansFrom (frame.front.length + 1) front ++ [kept],
      query (frame.fill row.cells) other = false := by
    intro other member
    rcases List.mem_append.mp member with before | here
    · have answer := List.mem_map_of_mem (f := query (frame.fill row.cells)) before
      rw [old, List.map_map, List.mem_map] at answer
      obtain ⟨entry, inside, same⟩ := answer
      rw [← same]
      exact stay entry (List.mem_append_left _ inside)
    · rw [List.mem_singleton.mp here, kept_stays]
      exact stay (padding, last) (by simp)
  rw [frame.deleteElements_fill valid rfl rfl, spans,
    Source.cutsFrom_concat stays (goes.trans gone), leaves]
  have some_stays : (Row.spansFrom (frame.front.length + 1) front ++
      [kept, ⟨start, start + piece.length⟩]).all (query (frame.fill row.cells)) = false := by
    simp [stays kept (by simp)]
  rw [some_stays, Bool.false_and, if_neg Bool.false_ne_true]

/--
When an element that was appended to a row with others is deleted, the row is as it
was, unless a comma was inserted behind a comment: then the old comma would be lost.
-/
theorem delete_append {row : Row} {front : List (List Cell × List Cell)} {padding last : List Cell}
    (entries : row.entries = front ++ [(padding, last)]) (valid : row.Valid) {own : Option Text}
    (tabs : ∀ indent ∈ own, ∀ char ∈ indent, char = ' ' ∨ char = '\t')
    (undone : own.isSome ∨ commaIn? row.rest = none ∨ commaIn? row.rest = some 0)
    {piece : List Cell} (appended : (row.append own piece).Valid) {query : Source → Span → Bool}
    (loc : Source.Local query) (stay : ∀ old ∈ row.pieces, Source.read query old = false)
    (gone : Source.read query piece = true) :
    (frame.fill (row.append own piece).cells).deleteElements
        (frame.span (row.append own piece).cells)
          (query (frame.fill (row.append own piece).cells)) =
      (frame.fill row.cells).text := by
  have stays : ∀ old ∈ front ++ [(padding, last)], Source.read query old.2 = false :=
    fun old member => stay old.2 (List.mem_map_of_mem (entries ▸ member))
  let kept : Span := ⟨frame.front.length + 1 + (Row.flat front).length + padding.length,
    frame.front.length + 1 + (Row.flat (front ++ [(padding, last)])).length⟩
  have filled : kept.start + last.length = kept.stop := by
    simp only [kept, Row.flat_append, Row.flat_cons, Row.flat_nil, List.append_nil,
      List.length_append]
    omega
  obtain ⟨all, rest⟩ := row
  obtain rfl : all = front ++ [(padding, last)] := entries
  have cells : Row.cells ⟨front ++ [(padding, last)], rest⟩ =
      Row.flat (front ++ [(padding, last)]) ++ rest := rfl
  rw [cells]
  rcases padding_eq valid.rest with trivial | ⟨trivia, comma, behind, whole, trivial, isComma⟩
  · rw [Row.append_of_trivia trivial] at appended ⊢
    cases own with
    | none =>
        have row : Row.extend ⟨front ++ [(padding, last)], rest⟩ [commaCell] rest [] none piece =
            ⟨front ++ [(padding, last), (commaCell :: gapCells none, piece)], rest⟩ := by
          simp [Row.extend, Row.stays]
        rw [row] at appended ⊢
        refine frame.deleteElements_last rfl appended loc stays gone rfl filled rfl ?_
        exact frame.uncovered_inline rfl rfl (by simp [Row.cells])
    | some indent =>
        have row : Row.extend ⟨front ++ [(padding, last)], rest⟩ [commaCell] rest []
            (some indent) piece =
            ⟨front ++ [(padding, last),
              (commaCell :: (rest.take (endOfLine rest) ++ gapCells (some indent)), piece)],
              rest.drop (endOfLine rest)⟩ := by
          simp [Row.extend, Row.stays]
        have regroup : Row.cells ⟨front ++ [(padding, last),
              (commaCell :: (rest.take (endOfLine rest) ++ gapCells (some indent)), piece)],
              rest.drop (endOfLine rest)⟩ =
            Row.flat (front ++ [(padding, last)]) ++ (commaCell :: (rest.take (endOfLine rest) ++
              (gapCells (some indent) ++ (piece ++ rest.drop (endOfLine rest))))) := by
          simp [Row.cells]
        rw [row] at appended ⊢
        refine frame.deleteElements_last rfl appended loc stays gone rfl filled rfl ?_
        refine (frame.uncovered_line (tabs indent rfl) (endOfLine_drop rest)
          (fun cell member => trivial cell (List.mem_of_mem_drop member)) rfl ?_ regroup).trans ?_
        · simp only [List.length_cons, List.length_append]
          omega
        · rw [List.take_append_drop]
  · obtain rfl := Row.eq_commaCell isComma
    obtain rfl : rest = trivia ++ commaCell :: behind := whole
    rw [Row.append_of_comma rfl trivial] at appended ⊢
    cases own with
    | none =>
        have found : commaIn? (trivia ++ commaCell :: behind) = some trivia.length :=
          commaIn?_append trivial Row.isPadding_comma.2
        obtain rfl : trivia = [] := by
          simpa [found] using undone
        have row : Row.extend ⟨front ++ [(padding, last)], [] ++ commaCell :: behind⟩
            ([] ++ [commaCell])
              behind [commaCell] none piece =
            ⟨front ++ [(padding, last), (commaCell :: gapCells none, piece)],
              commaCell :: behind⟩ := by
          simp [Row.extend, Row.stays]
        rw [row] at appended ⊢
        refine frame.deleteElements_last rfl appended loc stays gone rfl filled rfl ?_
        exact frame.uncovered_inline rfl rfl (by simp [Row.cells])
    | some indent =>
        have row : Row.extend ⟨front ++ [(padding, last)], trivia ++ commaCell :: behind⟩
              (trivia ++ [commaCell]) behind [commaCell] (some indent) piece =
            ⟨front ++ [(padding, last), (trivia ++ commaCell :: (behind.take (endOfLine behind) ++
              gapCells (some indent)), piece)], commaCell :: behind.drop (endOfLine behind)⟩ := by
          simp [Row.extend, Row.stays]
        have regroup : Row.cells ⟨front ++ [(padding, last), (trivia ++ commaCell ::
              (behind.take (endOfLine behind) ++ gapCells (some indent)), piece)],
              commaCell :: behind.drop (endOfLine behind)⟩ =
            (Row.flat (front ++ [(padding, last)]) ++ (trivia ++ commaCell ::
              behind.take (endOfLine behind))) ++ (gapCells (some indent) ++ (piece ++ commaCell ::
                behind.drop (endOfLine behind))) := by
          simp [Row.cells]
        rw [row] at appended ⊢
        refine frame.deleteElements_last rfl appended loc stays gone rfl filled rfl ?_
        refine (frame.uncovered_line_comma (tabs indent rfl) (endOfLine_drop behind) ?_ ?_
          regroup).trans ?_
        · simp only [kept, List.length_append]
          omega
        · simp only [kept, List.length_cons, List.length_append]
          omega
        · simp

/-- When the only element of a row goes, and only blanks stand around it, nothing is left. -/
theorem delete_only {gap behind : Text} {piece : List Cell} {row : Row}
    (whole : row = ⟨[(cellsOf .code gap, piece)], cellsOf .code behind⟩) (valid : row.Valid)
    (gap_blank : ∀ char ∈ gap, isBlank char) (behind_blank : ∀ char ∈ behind, isBlank char)
    {query : Source → Span → Bool} (loc : Source.Local query)
    (gone : Source.read query piece = true) :
    (frame.fill row.cells).deleteElements (frame.span row.cells) (query (frame.fill row.cells)) =
      (frame.fill []).text := by
  have cells : row.cells = cellsOf .code gap ++ (piece ++ cellsOf .code behind) := by
    simp [whole, Row.cells]
  let element : Span := ⟨frame.front.length + 1 + (cellsOf .code gap).length,
    frame.front.length + 1 + (cellsOf .code gap).length + piece.length⟩
  have spans : Row.spansFrom (frame.front.length + 1) row.entries = [element] := by
    rw [whole]
    rfl
  have answers := loc.map_elements valid (frame.shows_fill row.cells)
  rw [Source.elements_row valid (frame.shows_fill row.cells), spans] at answers
  have goes : query (frame.fill row.cells) element = true := by
    rw [whole] at answers ⊢
    exact (List.cons.inj answers).1.trans gone
  have trivial : ∀ cell ∈ cellsOf .code behind, cell.isTrivia := by
    intro cell member
    simp [Cell.isTrivia, behind_blank cell.char (Kind.mem_cellsOf.mp member).2]
  have comma : (frame.fill row.cells).commaAfter? element.stop (frame.span row.cells).stop =
      none := by
    have shown : (frame.fill row.cells).Shows element.stop (cellsOf .code behind) := by
      rw [cells]
      exact (frame.shows_behind _ _).right
    have stop : (frame.span row.cells).stop = element.stop + (cellsOf .code behind).length := by
      simp only [element, span, cells, List.length_append]
      omega
    rw [stop, shown.commaAfter?, commaIn?_of_trivia trivial]
    rfl
  have cuts : (frame.fill row.cells).cutsFrom (frame.span row.cells) (query (frame.fill row.cells))
      none none [element] = [element] := by
    simp only [Source.cutsFrom, goes, if_true, Source.lastCuts, comma]
    rfl
  have left : uncovered (Span.covers [element]) (frame.front.length + 1) row.cells =
      cellsOf .code gap ++ cellsOf .code behind := by
    rw [cells]
    exact Span.uncovered_cut rfl rfl
  have blank : (chars (cellsOf .code gap ++ cellsOf .code behind)).allBlank = true := by
    rw [Kind.chars_append, Kind.chars_cellsOf, Kind.chars_cellsOf, Text.allBlank, List.all_append,
      Bool.and_eq_true]
    exact ⟨List.all_eq_true.mpr gap_blank, List.all_eq_true.mpr behind_blank⟩
  rw [frame.deleteElements_fill valid rfl rfl, spans, cuts, left, blank]
  simp [goes]

end Frame

/-- Whether an element that is put into an array and deleted again leaves no trace in it. -/
def Reversible (inner : List Cell) : Prop :=
  inner = [] ∨ ∃ (row : Row) (front : List (List Cell × List Cell)) (padding last : List Cell),
    row.Valid ∧ row.cells = inner ∧ row.entries = front ++ [(padding, last)] ∧
      ((ownIndent? (Row.flat front ++ padding) (last ++ row.rest)).isSome ∨
        commaIn? row.rest = none ∨ commaIn? row.rest = some 0)

/-- What is inside of an array with a new element that leaves no trace when it is deleted again. -/
structure Undoes (frame : Frame) (old new piece : List Cell) (layout : ArrayLayout) : Prop where
  appends : (frame.fill old).appendElement (frame.span old) (chars piece) layout =
    (frame.fill new).text
  deletes : ∀ query : Source → Span → Bool, Source.Local query → Source.read query piece = true →
    (∀ other ∈ Source.piecesOf old, Source.read query other = false) →
    (frame.fill new).deleteElements (frame.span new) (query (frame.fill new)) =
      (frame.fill old).text

theorem mem_ownIndent? {before behind : List Cell} :
    ∀ indent ∈ ownIndent? before behind, ∀ char ∈ indent, char = ' ' ∨ char = '\t' := by
  intro indent member char inside
  rw [ownIndent?] at member
  split at member
  · obtain rfl := Option.some.inj member
    obtain ⟨cell, taken, rfl⟩ := List.mem_map.mp inside
    simpa using List.all_eq_true.mp List.all_takeWhile cell taken
  · simp at member

section Undo

variable {inner piece : List Cell}

/-- Where an element goes behind others is known from the inside of the array. -/
theorem Frame.appendElement_fill_of_inside (frame : Frame) {row : Row} (valid : row.Valid)
    {front : List (List Cell × List Cell)} {padding last : List Cell}
    (entries : row.entries = front ++ [(padding, last)]) (piece : List Cell)
    (layout : ArrayLayout) :
    (frame.fill row.cells).appendElement (frame.span row.cells) (chars piece) layout =
      (frame.fill (row.append (ownIndent? (Row.flat front ++ padding) (last ++ row.rest))
        piece).cells).text := by
  have cells : row.cells = (Row.flat front ++ padding) ++ (last ++ row.rest) := by
    simp [Row.cells, entries]
  have own : (frame.fill row.cells).ownLine?
      (frame.front.length + 1 + (Row.flat front).length + padding.length) =
        ownIndent? (Row.flat front ++ padding) (last ++ row.rest) := by
    rw [cells]
    exact frame.ownLine?_fill (by rw [List.length_append, Nat.add_assoc])
  rw [← own]
  exact frame.appendElement_fill_of_filled valid entries rfl piece layout

/-- An element goes onto the line of the others in the same way in every frame. -/
theorem exists_extends_inline (balanced : Balanced inner) (clear : Clear inner)
    (receptive : Receptive inner) (sturdy : Sturdy piece) :
    ∃ new, Extends inner new piece ∧
      (∀ field : Field, mentions field.label piece = false → Milder field inner new) ∧
      ∀ frame : Frame, (frame.fill inner).appendElement (frame.span inner) (chars piece) .inline =
        (frame.fill new).text := by
  obtain ⟨row, valid, rfl⟩ := Row.exists_of_balanced balanced
  have tame : row.Tame := (Row.tame_iff valid).mpr receptive
  rcases row.entries.eq_nil_or_concat with bare | ⟨front, ⟨padding, last⟩, entries⟩
  · let gap : Text := if (chars row.cells).stripEnd.isEmpty then [] else [' ']
    have blank : ∀ char ∈ gap, char = ' ' ∨ char = '\t' ∨ char = '\n' := by
      intro char member
      simp only [gap] at member
      split at member <;> simp_all
    have appended : row.Appended piece (row.begin gap [] piece) :=
      Row.appended_begin valid bare tame sturdy blank (by simp)
    obtain ⟨more, milder⟩ := appended.extends valid clear tame
    exact ⟨_, more, milder, fun frame => frame.appendElement_fill_of_bare valid bare piece .inline⟩
  · rw [List.concat_eq_append] at entries
    have appended : row.Appended piece
        (row.append (ownIndent? (Row.flat front ++ padding) (last ++ row.rest)) piece) :=
      Row.appended_append valid (by simp [entries]) clear (fun _ => tame.endsLine) sturdy
        mem_ownIndent?
    obtain ⟨more, milder⟩ := appended.extends valid clear tame
    exact ⟨_, more, milder, fun frame =>
      frame.appendElement_fill_of_inside valid entries piece .inline⟩

/-- An element that goes behind others leaves no trace, in any frame. -/
theorem exists_undoes_of_filled {row : Row} {front : List (List Cell × List Cell)}
    {padding last : List Cell} (valid : row.Valid) (clear : Clear row.cells) (tame : row.Tame)
    (entries : row.entries = front ++ [(padding, last)])
    (undone : (ownIndent? (Row.flat front ++ padding) (last ++ row.rest)).isSome ∨
      commaIn? row.rest = none ∨ commaIn? row.rest = some 0) (sturdy : Sturdy piece) :
    ∃ new, Extends row.cells new piece ∧
      (∀ field : Field, mentions field.label piece = false → Milder field row.cells new) ∧
      ∀ frame layout, Undoes frame row.cells new piece layout := by
  have appended : row.Appended piece
      (row.append (ownIndent? (Row.flat front ++ padding) (last ++ row.rest)) piece) :=
    Row.appended_append valid (by simp [entries]) clear (fun _ => tame.endsLine) sturdy
      mem_ownIndent?
  obtain ⟨more, milder⟩ := appended.extends valid clear tame
  refine ⟨_, more, milder, fun frame layout =>
    ⟨frame.appendElement_fill_of_inside valid entries piece layout, fun query loc gone stay => ?_⟩⟩
  rw [Source.piecesOf_row valid] at stay
  exact frame.delete_append entries valid mem_ownIndent? undone appended.valid loc stay gone

/-- What is inside of an array that was empty when it has its first element. -/
def Frame.first (frame : Frame) (layout : ArrayLayout) (piece : List Cell) : List Cell :=
  (Row.begin ⟨[], []⟩ (frame.margins ⟨[], []⟩ layout).1
    (frame.margins ⟨[], []⟩ layout).2 piece).cells

theorem Frame.first_inline (frame : Frame) (piece : List Cell) :
    frame.first .inline piece = piece := by
  have bare : Text.stripEnd [] = [] := rfl
  simp [first, Row.begin, margins, Row.cells, bare, Kind.cellsOf]

/-- An element that goes into an empty array leaves no trace. -/
theorem Frame.undoes_first (frame : Frame) (sturdy : Sturdy piece) (layout : ArrayLayout) :
    Extends [] (frame.first layout piece) piece ∧
      (∀ field : Field, mentions field.label piece = false →
        Milder field [] (frame.first layout piece)) ∧
      Undoes frame [] (frame.first layout piece) piece layout := by
  have valid : Row.Valid ⟨[], []⟩ := ⟨by simp, by simp, by simp, by simp⟩
  have tame : Row.Tame ⟨[], []⟩ := ⟨by simp [Row.cells], by simp [Row.cells]⟩
  have blank {char : Char} (margin : char = ' ' ∨ char = '\t' ∨ char = '\n') : isBlank char := by
    rcases margin with rfl | rfl | rfl <;> decide
  have appended : Row.Appended ⟨[], []⟩ piece (Row.begin ⟨[], []⟩ (frame.margins ⟨[], []⟩ layout).1
      (frame.margins ⟨[], []⟩ layout).2 piece) :=
    Row.appended_begin valid rfl tame sturdy (fun _ member => mem_margins (.inl member))
      (fun _ member => mem_margins (.inr member))
  obtain ⟨more, milder⟩ := appended.extends valid Clear.nil tame
  refine ⟨more, milder, frame.appendElement_fill_of_bare valid rfl piece layout,
    fun query loc gone _ => ?_⟩
  refine frame.delete_only rfl appended.valid ?_ ?_ loc gone
  · intro char member
    rcases List.mem_append.mp member with old | new
    · simp [Row.cells, Text.stripEnd, Text.trimEnd] at old
    · exact blank (mem_margins (.inl new))
  · exact fun char member => blank (mem_margins (.inr member))

/-- An element that is put into an array leaves no trace, if the array is laid out for that. -/
theorem Frame.exists_undoes (frame : Frame) (clear : Clear inner) (receptive : Receptive inner)
    (reversible : Reversible inner) (sturdy : Sturdy piece) (layout : ArrayLayout) :
    ∃ new, Extends inner new piece ∧
      (∀ field : Field, mentions field.label piece = false → Milder field inner new) ∧
      Undoes frame inner new piece layout := by
  rcases reversible with rfl | ⟨row, front, padding, last, valid, rfl, entries, undone⟩
  · exact ⟨_, frame.undoes_first sturdy layout⟩
  · obtain ⟨new, more, milder, undoes⟩ := exists_undoes_of_filled valid clear
      ((Row.tame_iff valid).mpr receptive) entries undone sturdy
    exact ⟨new, more, milder, undoes frame layout⟩

/--
On the line of the others an element is put into an array in the same way wherever that stands.
-/
theorem exists_undoes_inline (clear : Clear inner) (receptive : Receptive inner)
    (reversible : Reversible inner) (sturdy : Sturdy piece) :
    ∃ new, Extends inner new piece ∧
      (∀ field : Field, mentions field.label piece = false → Milder field inner new) ∧
      ∀ frame, Undoes frame inner new piece .inline := by
  rcases reversible with rfl | ⟨row, front, padding, last, valid, rfl, entries, undone⟩
  · have each (frame : Frame) := frame.undoes_first sturdy .inline
    simp only [Frame.first_inline] at each
    obtain ⟨more, milder, -⟩ := each ⟨[], ⟨'[', .code⟩, ⟨']', .code⟩, [], .square, rfl, rfl⟩
    exact ⟨piece, more, milder, fun frame => (each frame).2.2⟩
  · obtain ⟨new, more, milder, undoes⟩ := exists_undoes_of_filled valid clear
      ((Row.tame_iff valid).mpr receptive) entries undone sturdy
    exact ⟨new, more, milder, fun frame => undoes frame .inline⟩

end Undo

end SwiftWorkspace
