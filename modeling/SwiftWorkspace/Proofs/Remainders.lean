import SwiftWorkspace.Proofs.Deletion
import SwiftWorkspace.Proofs.References
import SwiftWorkspace.Proofs.Unions

/-!
# Rows without some of their elements

A deletion leaves a row of the elements that stay.  The padding around an element
that goes becomes padding of the next one, and there is still a comma between
two elements.
-/

namespace SwiftWorkspace

open Kind (Clear Scans Bland chars cellsOf)

namespace Row

/--
Whether just the elements that go are covered, and no padding behind one that stays in front of
another.
-/
structure Swept (covered : Nat → Bool) (goes : List Cell → Bool) (position : Nat)
    (entries : List (List Cell × List Cell)) : Prop where
  going : ∀ front padding piece back, entries = front ++ (padding, piece) :: back →
    goes piece = true →
    ∀ place, position + (flat front).length + padding.length ≤ place →
      place < position + (flat front).length + padding.length + piece.length → covered place = true
  staying : ∀ front padding piece back, entries = front ++ (padding, piece) :: back →
    goes piece = false → ∀ place, position + (flat front).length + padding.length ≤ place →
      place < position + (flat front).length + padding.length + piece.length → covered place = false
  between : ∀ front entry padding piece back, entries = front ++ entry :: (padding, piece) :: back →
    goes entry.2 = false → (∃ later ∈ (padding, piece) :: back, goes later.2 = false) →
    ∀ place, position + (flat (front ++ [entry])).length ≤ place →
      place < position + (flat (front ++ [entry])).length + padding.length → covered place = false

section Sweep

variable {covered : Nat → Bool} {goes : List Cell → Bool} {position : Nat}
  {entry : List Cell × List Cell} {entries : List (List Cell × List Cell)}

/-- Behind the first entry the rest of the row is swept as well. -/
theorem Swept.tail (swept : Swept covered goes position (entry :: entries)) :
    Swept covered goes (position + entry.1.length + entry.2.length) entries := by
  have further (front : List (List Cell × List Cell)) :
      position + (flat (entry :: front)).length =
        position + entry.1.length + entry.2.length + (flat front).length := by
    rw [flat_cons, List.length_append, List.length_append]
    omega
  constructor
  · intro front padding piece back split gone
    have covers := swept.going (entry :: front) padding piece back (by rw [split]; rfl) gone
    rwa [further] at covers
  · intro front padding piece back split stays
    have spares := swept.staying (entry :: front) padding piece back (by rw [split]; rfl) stays
    rwa [further] at spares
  · intro front other padding piece back split stays later
    have spares := swept.between (entry :: front) other padding piece back
      (by rw [split]; rfl) stays later
    rwa [List.cons_append, further] at spares

end Sweep

/--
The row of the elements that stay, when what is covered is cut out.  The entries
begin at a position, behind padding that is left over from elements that go.
-/
def sweep (covered : Nat → Bool) (goes : List Cell → Bool) (rest : List Cell) :
    (position : Nat) → (pending : List Cell) → List (List Cell × List Cell) → Row
  | position, pending, [] => ⟨[], pending ++ uncovered covered position rest⟩
  | position, pending, (padding, piece) :: entries =>
      let behind := position + padding.length + piece.length
      let padding := pending ++ uncovered covered position padding
      if goes piece then sweep covered goes rest behind padding entries
      else
        let row := sweep covered goes rest behind [] entries
        ⟨(padding, piece) :: row.entries, row.rest⟩

section Sweep

variable {covered : Nat → Bool} {goes : List Cell → Bool} {position : Nat}
  {rest pending padding piece : List Cell} {entries : List (List Cell × List Cell)}

theorem sweep_going (going : goes piece = true) :
    sweep covered goes rest position pending ((padding, piece) :: entries) =
      sweep covered goes rest (position + padding.length + piece.length)
        (pending ++ uncovered covered position padding) entries := by
  rw [sweep, if_pos going]

theorem sweep_staying (staying : goes piece = false) :
    sweep covered goes rest position pending ((padding, piece) :: entries) =
      ⟨(pending ++ uncovered covered position padding, piece) ::
          (sweep covered goes rest (position + padding.length + piece.length) [] entries).entries,
        (sweep covered goes rest (position + padding.length + piece.length) [] entries).rest⟩ := by
  rw [sweep, if_neg (by simp [staying])]

theorem sweep_pieces : (sweep covered goes rest position pending entries).pieces =
    (entries.map Prod.snd).filter (!goes ·) := by
  induction entries generalizing position pending with
  | nil => rfl
  | cons entry entries ih =>
      obtain ⟨padding, piece⟩ := entry
      cases decision : goes piece with
      | true =>
          rw [sweep_going decision, ih]
          simp [decision]
      | false =>
          rw [sweep_staying decision, pieces, List.map_cons, ← pieces, ih]
          simp [decision]

theorem sweep_cells (swept : Swept covered goes position entries) :
    (sweep covered goes rest position pending entries).cells =
      pending ++ uncovered covered position (flat entries ++ rest) := by
  induction entries generalizing position pending with
  | nil => simp [sweep, cells]
  | cons entry entries ih =>
      obtain ⟨padding, piece⟩ := entry
      have behind (pending : List Cell) :
          (sweep covered goes rest (position + padding.length + piece.length) pending
            entries).cells = _ :=
        ih swept.tail
      rw [flat_cons, List.append_assoc, List.append_assoc, uncovered_append, uncovered_append]
      cases decision : goes piece with
      | true =>
          have gone : uncovered covered (position + padding.length) piece = [] :=
            uncovered_of_covered (swept.going [] padding piece entries rfl decision)
          rw [sweep_going decision, behind, gone, List.nil_append, List.append_assoc]
      | false =>
          have stays : uncovered covered (position + padding.length) piece = piece :=
            uncovered_of_not_covered (swept.staying [] padding piece entries rfl decision)
          have front := behind []
          rw [cells, List.nil_append] at front
          rw [sweep_staying decision, stays, ← front]
          simp [cells]

theorem sweep_isPadding (inside : ∀ entry ∈ entries, ∀ cell ∈ entry.1, cell.isPadding)
    (left_over : ∀ cell ∈ pending, cell.isPadding) (ends : ∀ cell ∈ rest, cell.isPadding) :
    (∀ entry ∈ (sweep covered goes rest position pending entries).entries,
      ∀ cell ∈ entry.1, cell.isPadding) ∧
    ∀ cell ∈ (sweep covered goes rest position pending entries).rest, cell.isPadding := by
  induction entries generalizing position pending with
  | nil =>
      refine ⟨fun entry member => absurd member List.not_mem_nil, fun cell member => ?_⟩
      rcases List.mem_append.mp member with before | behind
      · exact left_over cell before
      · exact ends cell (mem_of_mem_uncovered behind)
  | cons entry entries ih =>
      obtain ⟨padding, piece⟩ := entry
      have more : ∀ cell ∈ pending ++ uncovered covered position padding, cell.isPadding := by
        intro cell member
        rcases List.mem_append.mp member with before | behind
        · exact left_over cell before
        · exact inside (padding, piece) (by simp) cell (mem_of_mem_uncovered behind)
      have others (entry) (member : entry ∈ entries) := inside entry (.tail _ member)
      cases decision : goes piece with
      | true =>
          rw [sweep_going decision]
          exact ih others more
      | false =>
          rw [sweep_staying decision]
          obtain ⟨first, last⟩ := ih others (by simp : ∀ cell ∈ ([] : List Cell), cell.isPadding)
          refine ⟨fun entry member => ?_, last⟩
          rcases List.mem_cons.mp member with rfl | later
          · exact more
          · exact first entry later

/-- What is left over stands in front of the first element that stays. -/
theorem mem_head_sweep : ∀ entry ∈ (sweep covered goes rest position pending entries).entries.head?,
    ∀ cell ∈ pending, cell ∈ entry.1 := by
  induction entries generalizing position pending with
  | nil => exact fun entry found => absurd found (by simp [sweep])
  | cons entry entries ih =>
      obtain ⟨padding, piece⟩ := entry
      cases decision : goes piece with
      | true =>
          rw [sweep_going decision]
          exact fun entry found cell member => ih entry found cell (List.mem_append_left _ member)
      | false =>
          rw [sweep_staying decision]
          rintro entry ⟨⟩ cell member
          exact List.mem_append_left _ member

theorem mem_head_sweep_cons (whole : uncovered covered position padding = padding) :
    ∀ entry ∈ (sweep covered goes rest position pending
      ((padding, piece) :: entries)).entries.head?, ∀ cell ∈ padding, cell ∈ entry.1 := by
  intro entry found cell member
  cases decision : goes piece with
  | true =>
      rw [sweep_going decision, whole] at found
      exact mem_head_sweep entry found cell (List.mem_append_right _ member)
  | false =>
      rw [sweep_staying decision, whole] at found
      obtain rfl := Option.some.inj found
      exact List.mem_append_right _ member

theorem sweep_parted (swept : Swept covered goes position entries)
    (parted : ∀ entry ∈ entries.tail, ∃ cell ∈ entry.1, cell.isComma) :
    ∀ entry ∈ (sweep covered goes rest position pending entries).entries.tail,
      ∃ cell ∈ entry.1, cell.isComma := by
  induction entries generalizing position pending with
  | nil => exact fun entry member => absurd member (by simp [sweep])
  | cons entry entries ih =>
      obtain ⟨padding, piece⟩ := entry
      have others : ∀ entry ∈ entries.tail, ∃ cell ∈ entry.1, cell.isComma :=
        fun entry member => parted entry (List.mem_of_mem_tail member)
      cases decision : goes piece with
      | true =>
          rw [sweep_going decision]
          exact ih swept.tail others
      | false =>
          rw [sweep_staying decision, List.tail_cons]
          intro entry member
          cases entries with
          | nil => simp [sweep] at member
          | cons next entries =>
              obtain ⟨next_padding, next_piece⟩ := next
              have later : ∃ later ∈ (next_padding, next_piece) :: entries,
                  goes later.2 = false := by
                have inside := List.mem_map_of_mem (f := Prod.snd) member
                rw [← pieces, sweep_pieces, List.mem_filter] at inside
                obtain ⟨later, here, same⟩ := List.mem_map.mp inside.1
                exact ⟨later, here, by simpa [same] using inside.2⟩
              have whole : uncovered covered (position + padding.length + piece.length)
                  next_padding =
                  next_padding := by
                refine uncovered_of_not_covered fun place above below => ?_
                refine swept.between [] (padding, piece) next_padding next_piece
                  entries rfl decision
                  later place ?_ ?_
                · simp; omega
                · simp; omega
              have tail := @ih (position + padding.length + piece.length) [] swept.tail others
              cases found : (sweep covered goes rest (position + padding.length + piece.length) []
                  ((next_padding, next_piece) :: entries)).entries with
              | nil => simp [found] at member
              | cons first more =>
                  rw [found] at member tail
                  rcases List.mem_cons.mp member with rfl | behind
                  · obtain ⟨comma, inside, isComma⟩ := parted (next_padding, next_piece) (by simp)
                    exact ⟨comma, mem_head_sweep_cons whole entry (by rw [found]; rfl) comma
                      inside, isComma⟩
                  · exact tail entry behind

end Sweep

theorem Valid.sweep {row : Row} (valid : row.Valid) {covered : Nat → Bool} {goes : List Cell → Bool}
    {position : Nat} (swept : Swept covered goes position row.entries) :
    (Row.sweep covered goes row.rest position [] row.entries).Valid := by
  have noPadding : ∀ cell ∈ ([] : List Cell), cell.isPadding := by simp
  refine ⟨fun entry member => ?_, (sweep_isPadding valid.padding noPadding valid.rest).1,
    sweep_parted swept valid.parted, (sweep_isPadding valid.padding noPadding valid.rest).2⟩
  have inside := List.mem_map_of_mem (f := Prod.snd) member
  rw [← pieces, sweep_pieces, List.mem_filter] at inside
  obtain ⟨old, here, same⟩ := List.mem_map.mp inside.1
  exact same ▸ valid.solid old here

theorem inOrder_spansFrom {entries : List (List Cell × List Cell)}
    (solid : ∀ entry ∈ entries, Solid entry.2) (position : Nat) :
    (∀ span ∈ spansFrom position entries, position ≤ span.start) ∧
      Source.InOrder (position + (flat entries).length) (spansFrom position entries) := by
  induction entries generalizing position with
  | nil => exact ⟨by simp [spansFrom], .nil, by simp [spansFrom]⟩
  | cons entry entries ih =>
      obtain ⟨padding, piece⟩ := entry
      obtain ⟨above, inOrder⟩ := ih (fun entry member => solid entry (.tail _ member))
        (position + padding.length + piece.length)
      have filled : 0 < piece.length :=
        List.length_pos_iff.mpr (solid (padding, piece) (by simp)).ne_nil
      have size : position + (flat ((padding, piece) :: entries)).length =
          position + padding.length + piece.length + (flat entries).length := by
        simp only [flat_cons, List.length_append]
        omega
      rw [size]
      refine ⟨?_, List.pairwise_cons.mpr ⟨above, inOrder.apart⟩, ?_⟩
      · intro span member
        rcases List.mem_cons.mp member with rfl | later
        · exact Nat.le_add_right ..
        · have := above span later
          omega
      · intro span member
        rcases List.mem_cons.mp member with rfl | later
        · simp only
          omega
        · exact inOrder.filled span later

section Cuts

variable {row : Row} {source : Source} {position : Nat} {query : Source → Span → Bool}

theorem query_spansFrom (valid : row.Valid) (loc : Source.Local query)
    (stands : source.Shows position row.cells) {front back : List (List Cell × List Cell)}
    {padding piece : List Cell} (split : row.entries = front ++ (padding, piece) :: back) :
    query source ⟨position + (flat front).length + padding.length,
      position + (flat front).length + padding.length + piece.length⟩ =
        Source.read query piece := by
  obtain ⟨entries, rest⟩ := row
  obtain rfl : entries = front ++ (padding, piece) :: back := split
  exact loc source _ piece (valid.solid (padding, piece) (by simp)).unbroken.balanced stands.entry

theorem exists_staying (valid : row.Valid) (loc : Source.Local query)
    (stands : source.Shows position row.cells) {front back : List (List Cell × List Cell)}
    (split : row.entries = front ++ back)
    (stays : ∃ entry ∈ back, Source.read query entry.2 = false) :
    ∃ span ∈ spansFrom (position + (flat front).length) back, query source span = false := by
  obtain ⟨⟨padding, piece⟩, member, stays⟩ := stays
  obtain ⟨before, behind, rfl⟩ := List.append_of_mem member
  have same := query_spansFrom valid loc stands (by rw [split, ← List.append_assoc])
  refine ⟨_, ?_, same.trans stays⟩
  rw [spansFrom_append, spansFrom, flat_append, List.length_append, ← Nat.add_assoc]
  exact List.mem_append_right _ (List.mem_cons_self ..)

/-- In front of the first element nothing has been passed. -/
theorem passing_spansFrom (valid : row.Valid) (position : Nat) :
    Source.Passing (position + row.cells.length) none none (spansFrom position row.entries) := by
  obtain ⟨-, inOrder⟩ := inOrder_spansFrom valid.solid position
  refine ⟨⟨inOrder.apart, fun element member => ?_⟩, by simp, by simp⟩
  have filled := inOrder.filled element member
  rw [cells, List.length_append]
  omega

theorem swept_cutsFrom (valid : row.Valid) (loc : Source.Local query)
    (stands : source.Shows position row.cells) {array : Span}
    (whole : array = ⟨position, position + row.cells.length⟩) :
    Swept (Span.covers (source.cutsFrom array (query source) none none
      (spansFrom position row.entries))) (Source.read query) position row.entries := by
  have passing : Source.Passing array.stop none none (spansFrom position row.entries) :=
    whole ▸ passing_spansFrom valid position
  constructor
  · intro front padding piece back split gone place above below
    rw [← query_spansFrom valid loc stands split] at gone
    rw [split, spansFrom_append] at passing ⊢
    obtain ⟨cut, member, start, stop⟩ :=
      Source.exists_cutsFrom passing _ (List.mem_append_right _ (List.mem_cons_self ..)) gone
    refine Span.covers_eq_true_iff.mpr ⟨cut, member, ?_⟩
    simp only at start stop
    omega
  · intro front padding piece back split stays place above below
    rw [← query_spansFrom valid loc stands split] at stays
    rw [split, spansFrom_append, spansFrom] at passing ⊢
    obtain ⟨before, ends, later, parts⟩ := Source.cutsFrom_append stays passing
    rw [parts]
    refine Span.covers_eq_false_iff.mpr fun cut member => ?_
    rcases List.mem_append.mp member with early | late
    · have := ends cut early
      simp only at this
      omega
    · have bounds := Source.cutsFrom_bounds
        (position + (flat front).length + padding.length + piece.length)
        later (by simp) (later.behind _ rfl).2 cut late
      omega
  · intro front entry padding piece back split stays more place above below
    obtain ⟨entry_padding, entry_piece⟩ := entry
    have further : row.entries = (front ++ [(entry_padding, entry_piece)]) ++
        (padding, piece) :: back := by
      rw [split, List.append_assoc]
      rfl
    have stay := exists_staying valid loc stands further more
    rw [← query_spansFrom valid loc stands split] at stays
    rw [split, spansFrom_append, spansFrom] at passing ⊢
    obtain ⟨before, ends, later, parts⟩ := Source.cutsFrom_append stays passing
    have size : position + (flat (front ++ [(entry_padding, entry_piece)])).length =
        position + (flat front).length + entry_padding.length + entry_piece.length := by
      simp only [flat_append, flat_cons, flat_nil, List.append_nil, List.length_append]
      omega
    rw [size] at above below stay
    rw [parts]
    refine Span.covers_eq_false_iff.mpr fun cut member => ?_
    rcases List.mem_append.mp member with early | late
    · have := ends cut early
      simp only at this
      omega
    · have start := Source.start_of_mem_cutsFrom later stay cut late
      simp only at start
      omega

end Cuts

end Row

theorem Cell.code_of_isPadding {cell : Cell} (padding : cell.isPadding)
    (quiet : cell.kind ≠ .comment) : cell.kind = .code := by
  have noString := (Cell.kind_of_isPadding padding).1
  cases kind : cell.kind with
  | code => rfl
  | string => exact absurd kind noString
  | comment => exact absurd kind quiet

theorem Cell.bland_of_isPadding {cell : Cell} (padding : cell.isPadding)
    (code : cell.kind = .code) : Bland [cell.char] :=
  Row.bland_of_isPadding (by rwa [← code])

/-- Padding without comments is read on its own, whatever follows. -/
theorem scans_padding {padding : List Cell} (inside : ∀ cell ∈ padding, cell.isPadding)
    (quiet : Quiet padding) (rest : Text) : Scans .code padding rest .code := by
  have code (cell : Cell) (member : cell ∈ padding) : cell.kind = .code :=
    Cell.code_of_isPadding (inside cell member) (quiet cell member)
  have same : padding = cellsOf .code (chars padding) := by
    rw [cellsOf, chars, List.map_map]
    conv => lhs; rw [← List.map_id padding]
    refine List.map_congr_left fun cell member => ?_
    rw [id, Function.comp_apply, ← code cell member]
  rw [same]
  refine Scans.plain ?_ rest
  intro char member
  obtain ⟨cell, here, rfl⟩ := List.mem_map.mp member
  exact Cell.bland_of_isPadding (inside cell here) (code cell here)

namespace Row

/-- Elements that are read on their own, with padding without comments, make a row that is. -/
theorem clear_of_pieces {entries : List (List Cell × List Cell)} {rest : List Cell}
    (valid : Row.Valid ⟨entries, rest⟩) (quiet : Quiet (Row.cells ⟨entries, rest⟩))
    (pieces : ∀ entry ∈ entries, Clear entry.2) : Clear (Row.cells ⟨entries, rest⟩) := by
  induction entries with
  | nil => exact scans_padding valid.rest quiet []
  | cons entry entries ih =>
      obtain ⟨padding, piece⟩ := entry
      have behind := valid.tail
      have split : Row.cells ⟨(padding, piece) :: entries, rest⟩ =
          padding ++ (piece ++ Row.cells ⟨entries, rest⟩) := by
        simp [cells]
      rw [split] at quiet ⊢
      have quiet_behind : Quiet (Row.cells ⟨entries, rest⟩) :=
        fun cell member => quiet cell (by simp [member])
      have clear_behind := ih behind quiet_behind fun entry member => pieces entry (.tail _ member)
      have bland : Bland (chars (Row.cells ⟨entries, rest⟩)) := by
        intro char found
        rw [chars, List.head?_map] at found
        obtain ⟨cell, head, rfl⟩ := Option.map_eq_some_iff.mp found
        have padding := Valid.head_isPadding (by rwa [List.nil_append] :
          Row.Valid ⟨[] ++ (padding, piece) :: entries, rest⟩) cell head
        have code := Cell.code_of_isPadding padding
          (quiet_behind cell (List.mem_of_mem_head? head))
        exact Cell.bland_of_isPadding padding code cell.char rfl
      have padded := scans_padding (valid.padding (padding, piece) (by simp))
        fun cell member => quiet cell (by simp [member])
      exact (padded _).append ((pieces (padding, piece) (by simp)).append clear_behind bland)

/-- The elements of a row without comments are read on their own when the row is. -/
theorem clear_pieces {row : Row} (valid : row.Valid) (quiet : Quiet row.cells)
    (clear : Clear row.cells) : ∀ piece ∈ row.pieces, Clear piece := by
  intro piece member
  obtain ⟨⟨padding, piece⟩, inside, rfl⟩ := List.mem_map.mp member
  obtain ⟨entries, rest⟩ := row
  obtain ⟨front, back, rfl⟩ := List.append_of_mem inside
  have before := (valid.cut clear).1
  cases padding_last : padding.getLast? with
  | some last =>
      have found : last ∈ padding := List.mem_of_getLast? padding_last
      have code := Cell.code_of_isPadding (valid.padding (padding, piece) (by simp) last found)
        (quiet last (by simp [cells, found]))
      rw [← List.append_assoc] at before
      exact (Scans.cut_behind before (by simp [padding_last]) code).2.clear
  | none =>
      obtain rfl := List.getLast?_eq_none_iff.mp padding_last
      cases front with
      | nil => exact Scans.clear before
      | cons first front =>
          obtain ⟨comma, absurd, -⟩ := valid.parted ([], piece) (by simp)
          simp at absurd

end Row

/-- What is inside of an array without the elements that go. -/
structure Drops (old new : List Cell) (gone : List Cell → Bool) : Prop where
  balanced : Balanced new
  pieces : Source.piecesOf new = (Source.piecesOf old).filter (!gone ·)
  inside : ∀ cell ∈ new, cell ∈ old

theorem Drops.quiet {old new : List Cell} {gone : List Cell → Bool} (drops : Drops old new gone)
    (quiet : Quiet old) : Quiet new :=
  fun cell member => quiet cell (drops.inside cell member)

/-- What is left is read on its own when there are no comments. -/
theorem Drops.clear {old new : List Cell} {gone : List Cell → Bool} (drops : Drops old new gone)
    (balanced : Balanced old) (quiet : Quiet old) (clear : Clear old) : Clear new := by
  obtain ⟨row, valid, rfl⟩ := Row.exists_of_balanced balanced
  obtain ⟨⟨entries, rest⟩, other_valid, rfl⟩ := Row.exists_of_balanced drops.balanced
  have pieces := drops.pieces
  rw [Source.piecesOf_row valid, Source.piecesOf_row other_valid] at pieces
  refine Row.clear_of_pieces other_valid (drops.quiet quiet) fun entry member => ?_
  have inside : entry.2 ∈ Row.pieces ⟨entries, rest⟩ := List.mem_map_of_mem member
  rw [pieces] at inside
  exact Row.clear_pieces valid quiet clear entry.2 (List.mem_filter.mp inside).1

/-- What is left brings no labels along. -/
theorem Drops.milder {old new : List Cell} {gone : List Cell → Bool} (drops : Drops old new gone)
    (balanced : Balanced old) (quiet : Quiet old) (clear : Clear old) (field : Field) :
    Milder field old new := by
  have new_clear := drops.clear balanced quiet clear
  obtain ⟨row, valid, rfl⟩ := Row.exists_of_balanced balanced
  obtain ⟨other, other_valid, rfl⟩ := Row.exists_of_balanced drops.balanced
  have pieces := drops.pieces
  rw [Source.piecesOf_row valid, Source.piecesOf_row other_valid] at pieces
  refine .of_rows valid (valid.seamed clear) other_valid (other_valid.seamed new_clear) ?_
  intro piece member
  rw [pieces] at member
  exact .inl ⟨piece, (List.mem_filter.mp member).1, .refl field piece⟩

theorem Frame.deleteElements_fill (frame : Frame) {row : Row}
    (valid : row.Valid) {goes : Span → Bool}
    {cuts : List Span} (made : (frame.fill row.cells).cutsFrom (frame.span row.cells) goes none none
      (Row.spansFrom (frame.front.length + 1) row.entries) = cuts)
    {left : List Cell} (leaves : uncovered (Span.covers cuts)
      (frame.front.length + 1) row.cells = left) :
    (frame.fill row.cells).deleteElements (frame.span row.cells) goes =
      (frame.fill (if (Row.spansFrom (frame.front.length + 1) row.entries).all goes &&
        (chars left).allBlank then [] else left)).text := by
  have elements := Source.elements_row valid (frame.shows_fill row.cells)
  have text : (frame.fill row.cells).textIn (frame.span row.cells) = chars row.cells :=
    congrArg chars (frame.cellsIn_span row.cells)
  have within : (frame.span row.cells).stop ≤ (frame.fill row.cells).length := by
    have := frame.length_fill row.cells
    simp only [Frame.span]
    omega
  have stays : uncovered
      (Span.covers ((frame.fill row.cells).cutsFrom (frame.span row.cells) goes none none
      ((frame.fill row.cells).elements (frame.span row.cells)))) (frame.span row.cells).start
        ((frame.fill row.cells).textIn (frame.span row.cells)) = chars left := by
    rw [text, ← leaves, ← made, chars, chars, map_uncovered, Frame.span, elements]
  rw [← frame.replaceSpan_fill row.cells,
    Source.deleteElements_eq (Nat.le_add_right _ _) within stays, Frame.span, elements]
  congr 1
  split <;> rfl

/--
A deletion leaves the elements that stay, with all that its cuts do not cover or with nothing
else.
-/
theorem Frame.exists_drops_uncovered (frame : Frame) {row : Row} (valid : row.Valid)
    {query : Source → Span → Bool} (loc : Source.Local query) :
    ∃ new, Drops row.cells new (Source.read query) ∧
      (new = [] ∨ new = uncovered
        (Span.covers ((frame.fill row.cells).cutsFrom (frame.span row.cells)
        (query (frame.fill row.cells)) none none
          (Row.spansFrom (frame.front.length + 1) row.entries)))
          (frame.front.length + 1) row.cells) ∧
      (frame.fill row.cells).deleteElements (frame.span row.cells) (query (frame.fill row.cells)) =
        (frame.fill new).text := by
  have stands := frame.shows_fill row.cells
  have elements := Source.elements_row valid stands
  let cuts := (frame.fill row.cells).cutsFrom (frame.span row.cells) (query (frame.fill row.cells))
    none none (Row.spansFrom (frame.front.length + 1) row.entries)
  have swept : Row.Swept (Span.covers cuts) (Source.read query)
      (frame.front.length + 1) row.entries :=
    Row.swept_cutsFrom valid loc stands rfl
  let other := Row.sweep (Span.covers cuts) (Source.read query) row.rest (frame.front.length + 1) []
    row.entries
  have pieces : Source.piecesOf other.cells =
      (Source.piecesOf row.cells).filter (!Source.read query ·) := by
    rw [Source.piecesOf_row (valid.sweep swept), Source.piecesOf_row valid, Row.sweep_pieces]
    rfl
  have cells : other.cells = uncovered (Span.covers cuts) (frame.front.length + 1) row.cells :=
    Row.sweep_cells swept
  refine ⟨_, ?_, ?_, frame.deleteElements_fill valid rfl cells.symm⟩
  · split
    case isTrue bare =>
        have gone : ∀ piece ∈ row.pieces, Source.read query piece = true := by
          have same := loc.map_elements valid stands
          rw [elements] at same
          intro piece member
          have inside := List.mem_map_of_mem (f := Source.read query) member
          rw [← same] at inside
          obtain ⟨span, here, decides⟩ := List.mem_map.mp inside
          rw [← decides]
          exact List.all_eq_true.mp (Bool.and_eq_true_iff.mp bare).1 span here
        refine ⟨.nil, ?_, by simp⟩
        rw [Source.piecesOf_row valid, eq_comm]
        exact List.filter_eq_nil_iff.mpr fun piece member => by simp [gone piece member]
    case isFalse =>
        refine ⟨(valid.sweep swept).balanced, pieces, ?_⟩
        intro cell member
        rw [cells] at member
        exact mem_of_mem_uncovered member
  · split
    case isTrue => exact .inl rfl
    case isFalse => exact .inr cells

theorem Frame.exists_drops (frame : Frame) {inner : List Cell} (balanced : Balanced inner)
    {query : Source → Span → Bool} (loc : Source.Local query) :
    ∃ new, Drops inner new (Source.read query) ∧
      (frame.fill inner).deleteElements (frame.span inner) (query (frame.fill inner)) =
        (frame.fill new).text := by
  obtain ⟨row, valid, rfl⟩ := Row.exists_of_balanced balanced
  obtain ⟨new, drops, -, text⟩ := frame.exists_drops_uncovered valid loc
  exact ⟨new, drops, text⟩

end SwiftWorkspace
