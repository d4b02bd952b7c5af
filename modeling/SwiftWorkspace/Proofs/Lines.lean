import SwiftWorkspace.Edit.Append
import SwiftWorkspace.Proofs.Shapes

/-!
# Lines and separators

Where the next separator stands and where the line ends is known from the cells
behind a position.  Whether an element starts its line is known from the cells
between the last line feed and its first cell.
-/

namespace SwiftWorkspace

open Kind (chars)

/--
The number of cells up to the end of the line, if only trivia stand there, and zero otherwise.
-/
def endOfLine (cells : List Cell) : Nat :=
  let line := cells.takeWhile (·.char ≠ '\n')
  if line.length < cells.length && line.all Cell.isTrivia then line.length else 0

def commaIn? (cells : List Cell) : Option Nat :=
  let trivia := cells.takeWhile Cell.isTrivia
  if (cells.drop trivia.length).head?.any (·.char = ',') then some trivia.length else none

theorem endOfLine_eq (cells : List Cell) :
    endOfLine cells = 0 ∨ ∃ line feed rest, cells = line ++ feed :: rest ∧
      endOfLine cells = line.length ∧ (∀ cell ∈ line, cell.isTrivia ∧ cell.char ≠ '\n') ∧
        feed.char = '\n' := by
  simp only [endOfLine]
  split
  · rename_i fits
    obtain ⟨shorter, trivial⟩ : (cells.takeWhile (·.char ≠ '\n')).length < cells.length ∧
        ∀ cell ∈ cells.takeWhile (·.char ≠ '\n'), cell.isTrivia := by
      simpa using fits
    have split := List.takeWhile_append_dropWhile (p := fun cell : Cell => cell.char ≠ '\n')
      (l := cells)
    have boundary := List.head?_dropWhile_not (fun cell : Cell => cell.char ≠ '\n') cells
    have inside : ∀ cell ∈ cells.takeWhile (·.char ≠ '\n'), cell.char ≠ '\n' :=
      fun cell member => by
      simpa using List.all_eq_true.mp List.all_takeWhile cell member
    generalize cells.takeWhile (·.char ≠ '\n') = line at *
    cases dropped : cells.dropWhile (·.char ≠ '\n') with
    | nil =>
        rw [dropped, List.append_nil] at split
        rw [split] at shorter
        omega
    | cons feed rest =>
        rw [dropped] at split boundary
        exact .inr ⟨line, feed, rest, split.symm, rfl,
          fun cell member => ⟨trivial cell member, inside cell member⟩, by simpa using boundary⟩
  · exact .inl rfl

theorem endOfLine_feed {feed : Cell} (isFeed : feed.char = '\n') (rest : List Cell) :
    endOfLine (feed :: rest) = 0 := by
  simp [endOfLine, isFeed]

theorem endOfLine_le (cells : List Cell) : endOfLine cells ≤ cells.length := by
  rcases endOfLine_eq cells with zero | ⟨line, feed, rest, rfl, same, -⟩
  · omega
  · rw [same]
    simp

theorem endOfLine_drop (cells : List Cell) : endOfLine (cells.drop (endOfLine cells)) = 0 := by
  rcases endOfLine_eq cells with zero | ⟨line, feed, rest, whole, same, -, isFeed⟩
  · rw [zero, List.drop_zero, zero]
  · rw [same]
    subst whole
    rw [List.drop_left]
    exact endOfLine_feed isFeed rest

theorem commaIn?_of_trivia {cells : List Cell} (trivial : ∀ cell ∈ cells, cell.isTrivia) :
    commaIn? cells = none := by
  have whole : (cells ++ []).takeWhile Cell.isTrivia = cells := takeWhile_exact trivial (by simp)
  rw [List.append_nil] at whole
  simp [commaIn?, whole]

theorem commaIn?_append {trivia rest : List Cell} {comma : Cell}
    (trivial : ∀ cell ∈ trivia, cell.isTrivia) (isComma : comma.isComma) :
    commaIn? (trivia ++ comma :: rest) = some trivia.length := by
  have noTrivia : comma.isTrivia = false := by
    obtain ⟨char, kind⟩ := comma
    simp only [Cell.isComma, Cell.isCodeChar, Cell.isCode, Bool.and_eq_true,
      decide_eq_true_eq] at isComma
    obtain ⟨rfl, rfl⟩ := isComma
    decide
  have char : comma.char = ',' := by
    simp only [Cell.isComma, Cell.isCodeChar, Bool.and_eq_true, decide_eq_true_eq] at isComma
    exact isComma.2
  have run : (trivia ++ comma :: rest).takeWhile Cell.isTrivia = trivia :=
    takeWhile_exact trivial (by simpa using noTrivia)
  simp [commaIn?, run, char]

theorem padding_eq {cells : List Cell} (padding : ∀ cell ∈ cells, cell.isPadding) :
    (∀ cell ∈ cells, cell.isTrivia) ∨ ∃ trivia comma rest, cells = trivia ++ comma :: rest ∧
      (∀ cell ∈ trivia, cell.isTrivia) ∧ comma.isComma := by
  induction cells with
  | nil => exact .inl (by simp)
  | cons cell cells ih =>
      cases comma : cell.isComma with
      | true => exact .inr ⟨[], cell, cells, rfl, by simp, comma⟩
      | false =>
          have trivial : cell.isTrivia := by
            have := padding cell (by simp)
            obtain ⟨char, kind⟩ := cell
            cases kind <;> simp_all [Cell.isPadding, Cell.isSignificant, Cell.isTrivia, Cell.isCode]
          rcases ih fun other member => padding other (by simp [member]) with
            inside | ⟨trivia, first, rest, rfl, inside, isComma⟩
          · exact .inl (by simpa [trivial] using inside)
          · exact .inr ⟨cell :: trivia, first, rest, rfl, by simpa [trivial] using inside, isComma⟩

def behindComma (cells : List Cell) : List Cell :=
  match commaIn? cells with
  | some count => cells.drop (count + 1)
  | none => cells

theorem behindComma_of_trivia {cells : List Cell} (trivial : ∀ cell ∈ cells, cell.isTrivia) :
    behindComma cells = cells := by
  simp only [behindComma, commaIn?_of_trivia trivial]

theorem behindComma_append {trivia rest : List Cell} {comma : Cell}
    (trivial : ∀ cell ∈ trivia, cell.isTrivia) (isComma : comma.isComma) :
    behindComma (trivia ++ comma :: rest) = rest := by
  simp only [behindComma, commaIn?_append trivial isComma]
  rw [List.drop_length_add_append]
  rfl

theorem mem_of_mem_behindComma {cells : List Cell} {cell : Cell}
    (member : cell ∈ behindComma cells) : cell ∈ cells := by
  rw [behindComma] at member
  split at member
  · exact List.mem_of_mem_drop member
  · exact member

theorem exists_behindComma {cells : List Cell} (padding : ∀ cell ∈ cells, cell.isPadding) :
    ∃ front, cells = front ++ behindComma cells ∧ (∀ cell ∈ front.getLast?, cell.isComma) ∧
      ((commaIn? cells).map (· + 1)).getD 0 = front.length := by
  rcases padding_eq padding with trivial | ⟨trivia, comma, rest, rfl, trivial, isComma⟩
  · exact ⟨[], by rw [behindComma_of_trivia trivial, List.nil_append], by simp, by
      rw [commaIn?_of_trivia trivial]; rfl⟩
  · exact ⟨trivia ++
      [comma], by simp [behindComma_append trivial isComma], by simpa using isComma, by
      simp [commaIn?_append trivial isComma]⟩

theorem le_takeWhile {α : Type} (holds : α → Bool) (front rest : List α) :
    front.length ≤ ((front ++ rest).takeWhile holds).length ↔ ∀ value ∈ front, holds value := by
  induction front with
  | nil => simp
  | cons value front ih => cases same : holds value <;> simp [same, ih]

namespace Source

variable {source : Source} {position : Nat} {cells : List Cell}

theorem Shows.slice (stands : source.Shows position cells) :
    source.text.slice position (position + cells.length) = chars cells := by
  obtain ⟨behind, same⟩ := stands
  rw [Text.slice, Nat.add_sub_cancel_left, text, ← List.map_drop, same, List.map_append,
    List.take_left' (by simp), chars]

theorem findIdx?_feed (cells : List Cell) :
    (chars cells).findIdx? (· == '\n') =
      if (cells.takeWhile (·.char ≠ '\n')).length < cells.length then
        some (cells.takeWhile (·.char ≠ '\n')).length
      else none := by
  induction cells with
  | nil => rfl
  | cons cell cells ih =>
      by_cases feed : cell.char = '\n'
      · simp [chars, List.findIdx?_cons, feed]
      · simp only [Kind.chars_cons, List.findIdx?_cons, ih]
        simp [feed]

theorem Shows.endOfLineAfter (stands : source.Shows position cells) :
    source.endOfLineAfter position (position + cells.length) = position + endOfLine cells := by
  have text := stands.slice
  obtain ⟨behind, same⟩ := stands
  rw [Source.endOfLineAfter, lineFeed?, Text.findFrom?, text, findIdx?_feed, endOfLine]
  have split := List.takeWhile_append_dropWhile (p := fun cell : Cell => cell.char ≠ '\n')
    (l := cells)
  generalize cells.takeWhile (·.char ≠ '\n') = line at *
  by_cases shorter : line.length < cells.length
  · have passed := le_takeWhile Cell.isTrivia line (cells.dropWhile (·.char ≠ '\n') ++ behind)
    rw [← List.append_assoc, split, ← same] at passed
    have reached : source.skipTrivia position (position + line.length) = position + line.length ↔
        line.all Cell.isTrivia := by
      refine Iff.trans ?_ (passed.trans List.all_eq_true.symm)
      simp only [Source.skipTrivia, Nat.add_sub_cancel_left]
      omega
    simp only [shorter, if_true, Option.map_some, decide_true, Bool.true_and, reached]
    split <;> rfl
  · simp [shorter]

theorem Shows.commaAfter? (stands : source.Shows position cells) :
    source.commaAfter? position (position + cells.length) =
      (commaIn? cells).map (position + ·) := by
  have cut := List.takeWhile_append_dropWhile (p := Cell.isTrivia) (l := cells)
  have boundary := List.head?_dropWhile_not Cell.isTrivia cells
  have trivial : ∀ cell ∈ cells.takeWhile Cell.isTrivia, cell.isTrivia := fun cell member =>
    List.all_eq_true.mp List.all_takeWhile cell member
  rw [Source.commaAfter?, commaIn?]
  generalize cells.takeWhile Cell.isTrivia = trivia at *
  generalize cells.dropWhile Cell.isTrivia = rest at *
  subst cut
  cases rest with
  | nil =>
      rw [List.append_nil] at stands ⊢
      simp [stands.skipTrivia_all trivial]
  | cons cell rest =>
      have noTrivia : cell.isTrivia = false := by simpa using boundary
      have ahead : position + trivia.length < position + (trivia ++ cell :: rest).length := by simp
      rw [stands.skipTrivia trivial noTrivia (by omega), stands.right.hasCharAt,
        decide_eq_true ahead]
      simp only [Bool.true_and, List.drop_left, List.head?_cons, Option.any_some]
      split <;> rfl

theorem Shows.commaAfter?_of_comma {trivia : List Cell} {comma : Cell}
    (stands : source.Shows position (trivia ++ comma :: cells))
    (trivial : ∀ cell ∈ trivia, cell.isTrivia)
    (isComma : comma.isComma) {stop : Nat} (within : position + trivia.length < stop) :
    source.commaAfter? position stop = some (position + trivia.length) := by
  obtain ⟨rfl, noTrivia⟩ : comma = ⟨',', .code⟩ ∧ Cell.isTrivia ⟨',', .code⟩ = false := by
    refine ⟨?_, by decide⟩
    obtain ⟨char, kind⟩ := comma
    simpa [Cell.isComma, Cell.isCodeChar, Cell.isCode, and_comm] using isComma
  rw [Source.commaAfter?, stands.skipTrivia trivial noTrivia (Nat.le_of_lt within),
    stands.right.hasCharAt]
  simp [within]

def lineEndBehind (source : Source) (array last : Span) : Nat :=
  source.endOfLineAfter (((source.commaAfter? last.stop array.stop).map (· + 1)).getD last.stop)
    array.stop

theorem Shows.exists_commaEnd {array last : Span} (shown : source.Shows last.stop cells)
    (padding : ∀ cell ∈ cells, cell.isPadding) (size : array.stop = last.stop + cells.length) :
    ∃ front, cells = front ++ behindComma cells ∧ (∀ cell ∈ front.getLast?, cell.isComma) ∧
      ((source.commaAfter? last.stop array.stop).map (· + 1)).getD last.stop =
        last.stop + front.length := by
  obtain ⟨front, whole, comma, count⟩ := exists_behindComma padding
  refine ⟨front, whole, comma, ?_⟩
  rw [size, shown.commaAfter?, ← count]
  cases commaIn? cells <;> simp [Nat.add_assoc]

theorem Shows.exists_lineEndBehind {array last : Span} (shown : source.Shows last.stop cells)
    (padding : ∀ cell ∈ cells, cell.isPadding) (size : array.stop = last.stop + cells.length) :
    ∃ front, cells = front ++ behindComma cells ∧ (∀ cell ∈ front.getLast?, cell.isComma) ∧
      source.Shows (last.stop + front.length) (behindComma cells) ∧
      source.lineEndBehind array last =
        last.stop + front.length + endOfLine (behindComma cells) := by
  obtain ⟨front, whole, comma, place⟩ := shown.exists_commaEnd padding size
  have behind : source.Shows (last.stop + front.length) (behindComma cells) := by
    rw [whole] at shown
    exact shown.right
  have ends : array.stop = last.stop + front.length + (behindComma cells).length := by
    rw [size, Nat.add_assoc, ← List.length_append, ← whole]
  refine ⟨front, whole, comma, behind, ?_⟩
  rw [lineEndBehind, place, ends, behind.endOfLineAfter]

theorem Shows.getElem? {index : Nat} {cell : Cell} (stands : source.Shows position cells)
    (found : cells[index]? = some cell) : source.cells[position + index]? = some cell := by
  obtain ⟨behind, same⟩ := stands
  rw [← List.getElem?_drop, same, List.getElem?_append_left
    (List.getElem?_eq_some_iff.mp found).1, found]

theorem exists_line (cells : List Cell) : ∃ before line, cells = before ++ line ∧
    (∀ cell ∈ before.getLast?, cell.char = '\n') ∧ ∀ cell ∈ line, cell.char ≠ '\n' := by
  induction cells with
  | nil => exact ⟨[], [], rfl, by simp, by simp⟩
  | cons cell cells ih =>
      obtain ⟨before, line, rfl, ends, inside⟩ := ih
      cases before with
      | nil =>
          by_cases feed : cell.char = '\n'
          · exact ⟨[cell], line, rfl, by simpa using feed, inside⟩
          · exact ⟨[], cell :: line, rfl, by simp, by simpa [feed] using inside⟩
      | cons first before =>
          exact ⟨cell :: first :: before, line, rfl, by simpa using ends, inside⟩

section Line

variable {before line behind : List Cell} (inside : ∀ cell ∈ line, cell.char ≠ '\n')
  (ends : ∀ cell ∈ before.getLast?, cell.char = '\n')
include inside ends

theorem lineStart_eq :
    (⟨before ++ (line ++ behind)⟩ : Source).lineStart (before.length + line.length) =
      before.length := by
  have taken : (before ++ (line ++ behind)).take (before.length + line.length) =
      before ++ line := by
    rw [← List.append_assoc, ← List.length_append, List.take_left]
  have run : (before ++ line).reverse.takeWhile (·.char ≠ '\n') = line.reverse := by
    rw [List.reverse_append]
    refine takeWhile_exact (by simpa using inside) fun cell found => ?_
    rw [List.head?_reverse] at found
    simpa using ends cell found
  simp only [lineStart, taken, run, List.length_append, List.length_reverse]
  omega

theorem startsLine_eq :
    (⟨before ++ (line ++ behind)⟩ : Source).startsLine (before.length + line.length) =
      (chars line).allBlank := by
  rw [startsLine, lineStart_eq inside ends]
  have stands : (⟨before ++ (line ++ behind)⟩ : Source).Shows before.length line :=
    ⟨behind, by simp⟩
  rw [stands.slice]

end Line

theorem lastLineFeed?_eq {before line behind : List Cell} {feed : Cell} (isFeed : feed.char = '\n')
    (inside : ∀ cell ∈ line, cell.char ≠ '\n') {position start : Nat} (le : start ≤ before.length)
    (place : position = before.length + 1 + line.length) :
    (⟨before ++ feed :: (line ++ behind)⟩ : Source).lastLineFeed? start position =
      some before.length := by
  have whole : before ++ feed :: (line ++ behind) =
      (before ++ [feed]) ++ (line ++ behind) := by simp
  have size : position = (before ++ [feed]).length + line.length := by
    rw [place, List.length_append, List.length_singleton]
  rw [lastLineFeed?, whole, size, lineStart_eq inside (by simpa using isFeed), List.length_append,
    List.length_singleton, if_pos (by omega)]
  rfl

theorem Shows.lastLineFeed?_eq {before line : List Cell} {feed : Cell}
    (stands : source.Shows position (before ++ feed :: line)) (isFeed : feed.char = '\n')
    (inside : ∀ cell ∈ line, cell.char ≠ '\n') {stop : Nat}
    (size : stop = position + (before ++ feed :: line).length) :
    source.lastLineFeed? position stop = some (position + before.length) := by
  obtain ⟨behind, same⟩ := stands
  have within : position ≤ source.cells.length := by
    refine Nat.le_of_not_lt fun beyond => ?_
    rw [List.drop_eq_nil_of_le (Nat.le_of_lt beyond)] at same
    simp at same
  have front : (source.cells.take position ++ before).length = position + before.length := by
    rw [List.length_append, List.length_take_of_le within]
  have whole : source.cells = (source.cells.take position ++ before) ++ feed ::
      (line ++ behind) := by
    conv => lhs; rw [← List.take_append_drop position source.cells, same]
    simp
  have found : (⟨(source.cells.take position ++ before) ++ feed :: (line ++ behind)⟩ :
      Source).lastLineFeed?
      position stop = _ := Source.lastLineFeed?_eq isFeed inside (by omega) (by
    simp only [List.length_append, List.length_cons] at size front ⊢
    omega)
  rwa [← whole, front] at found

theorem Shows.lastLineFeed?_eq_none (stands : source.Shows position cells)
    (inside : ∀ cell ∈ cells, cell.char ≠ '\n') {stop : Nat}
    (size : stop = position + cells.length) : source.lastLineFeed? position stop = none := by
  obtain ⟨behind, same⟩ := stands
  have taken : source.cells.take stop = source.cells.take position ++ cells := by
    rw [size, List.take_add, same, List.take_left]
  have run := (le_takeWhile (fun cell : Cell => decide (cell.char ≠ '\n')) cells.reverse
    (source.cells.take position).reverse).mpr (by simpa using inside)
  have start : source.lineStart stop ≤ position := by
    simp only [lineStart, taken, List.reverse_append, List.length_append]
    rw [List.length_reverse] at run
    have := List.length_take_le position source.cells
    omega
  rw [lastLineFeed?, if_neg (by omega)]

theorem startsLine_eq_false {before line behind : List Cell} {cell : Cell}
    (solid : isBlank cell.char = false) (inside : ∀ other ∈ line, other.char ≠ '\n') :
    (⟨before ++ cell :: (line ++ behind)⟩ : Source).startsLine (before.length + 1 + line.length) =
      false := by
  obtain ⟨first, start, rfl, ends, noFeed⟩ := exists_line before
  have feedless : cell.char ≠ '\n' := by
    rintro feed
    rw [feed] at solid
    exact absurd solid (by decide)
  have quiet : ∀ other ∈ start ++ cell :: line, other.char ≠ '\n' := by
    intro other member
    rcases List.mem_append.mp member with before | here
    · exact noFeed other before
    · rcases List.mem_cons.mp here with rfl | after
      · exact feedless
      · exact inside other after
  have whole : (⟨first ++ (start ++ cell :: line ++ behind)⟩ : Source).startsLine
      (first.length + (start ++ cell :: line).length) = _ := startsLine_eq quiet ends
  have size : first.length + (start ++ cell :: line).length =
      (first ++ start).length + 1 + line.length := by
    simp only [List.length_append, List.length_cons]
    omega
  rw [size] at whole
  simp only [List.append_assoc, List.cons_append] at whole ⊢
  rw [whole]
  simp [Text.allBlank, solid]

/-- The indentation of a line consists of spaces and tabs. -/
theorem mem_lineIndent {source : Source} {position : Nat} {char : Char}
    (member : char ∈ source.lineIndent position) : char = ' ' ∨ char = '\t' := by
  obtain ⟨cell, inside, rfl⟩ := List.mem_map.mp member
  simpa using List.all_eq_true.mp List.all_takeWhile cell inside

end Source

end SwiftWorkspace
