import SwiftWorkspace.Proofs.Boundaries
import SwiftWorkspace.Proofs.Redirects
import SwiftWorkspace.Proofs.Search

/-!
# Cells put in

Adding a reference puts cells into a text.  The cells that were there stay in their
order, with their kinds, and nothing that is put in becomes a comment, unless a comment
goes over the place for the new element.
-/

namespace SwiftWorkspace

open Kind (Bland Clear Firm Scans chars cellsOf isClosed)

/-- Whether some cells are others with more put in, none of which is a comment. -/
inductive Inlaid : List Cell → List Cell → Prop where
  | nil : Inlaid [] []
  | keep (cell : Cell) {old new : List Cell} (inlaid : Inlaid old new) :
      Inlaid (cell :: old) (cell :: new)
  | inlay {cell : Cell} {old new : List Cell} (silent : cell.kind ≠ .comment)
      (inlaid : Inlaid old new) :
      Inlaid old (cell :: new)

namespace Inlaid

variable {old new first last front back : List Cell}

theorem refl (cells : List Cell) : Inlaid cells cells := by
  induction cells with
  | nil => exact .nil
  | cons cell cells ih => exact .keep cell ih

theorem of_silent (silent : ∀ cell ∈ new, cell.kind ≠ .comment) : Inlaid [] new := by
  induction new with
  | nil => exact .nil
  | cons cell new ih =>
      exact .inlay (silent cell (.head _)) (ih fun other member => silent other (.tail _ member))

theorem append (left : Inlaid first front) (right : Inlaid last back) :
    Inlaid (first ++ last) (front ++ back) := by
  induction left with
  | nil => exact right
  | keep cell _ ih => exact .keep cell ih
  | inlay silent _ ih => exact .inlay silent ih

theorem put (silent : ∀ cell ∈ new, cell.kind ≠ .comment) (inlaid : Inlaid first front) :
    Inlaid first (new ++ front) := (of_silent silent).append inlaid

theorem sublist (inlaid : Inlaid old new) : old.Sublist new := by
  induction inlaid with
  | nil => exact .slnil
  | keep cell _ ih => exact ih.cons_cons cell
  | inlay _ _ ih => exact ih.cons _

theorem comments (inlaid : Inlaid old new) :
    new.filter (·.kind = .comment) = old.filter (·.kind = .comment) := by
  induction inlaid with
  | nil => rfl
  | keep cell _ ih => simp [List.filter_cons, ih]
  | inlay silent _ ih => simp [silent, ih]

end Inlaid

theorem silent_gapCells (own : Option Text) : ∀ cell ∈ gapCells own, cell.kind ≠ .comment := by
  intro cell member
  rw [Row.gapCells_eq] at member
  simp [(Kind.mem_cellsOf.mp member).1]

namespace Row

variable {row : Row} {piece : List Cell} {own : Option Text}

theorem inlaid_append (valid : row.Valid) (silent : ∀ cell ∈ piece, cell.kind ≠ .comment) :
    Inlaid row.cells (row.append own piece).cells := by
  have comma : ∀ cell ∈ [commaCell], cell.kind ≠ .comment := by simp [commaCell]
  -- The gap and the element stand between two parts of what is behind the last element.
  have between (behind tail : List Cell) (tail_silent : ∀ cell ∈ tail, cell.kind ≠ .comment) :
      Inlaid behind (behind.take (stays own behind) ++ (gapCells own ++ (piece ++
        (tail ++ behind.drop (stays own behind))))) := by
    have inlaid := (Inlaid.refl (behind.take (stays own behind))).append
      (.put (silent_gapCells own)
        (.put silent (.put tail_silent (.refl (behind.drop (stays own behind))))))
    rwa [List.take_append_drop] at inlaid
  rcases padding_eq valid.rest with trivial | ⟨trivia, cell, behind, whole, trivial, isComma⟩
  · have parts : (row.append own piece).cells = flat row.entries ++ ([commaCell] ++
        (row.rest.take (stays own row.rest) ++ (gapCells own ++ (piece ++
          ([] ++ row.rest.drop (stays own row.rest)))))) := by
      simp [append_of_trivia trivial, extend, cells]
    rw [parts, cells]
    exact (Inlaid.refl _).append (.put comma (between row.rest [] (by simp)))
  · obtain rfl := eq_commaCell isComma
    have parts : (row.append own piece).cells = flat row.entries ++ (trivia ++ [commaCell] ++
        (behind.take (stays own behind) ++ (gapCells own ++ (piece ++
          ([commaCell] ++ behind.drop (stays own behind)))))) := by
      simp [append_of_comma whole trivial, extend, cells]
    have old : row.cells = flat row.entries ++ (trivia ++ [commaCell] ++ behind) := by
      simp [cells, whole]
    rw [parts, old]
    exact (Inlaid.refl _).append ((Inlaid.refl _).append (between behind [commaCell] comma))

end Row

theorem Kind.Clear.cut_blanks {kept blanks : List Cell} (clear : Clear (kept ++ blanks))
    (blank : ∀ cell ∈ blanks, isBlank cell.char) (closed : isClosed (chars kept)) : Clear kept := by
  have bland : ∀ char ∈ chars blanks, Bland [char] := by
    intro char member
    obtain ⟨cell, inside, rfl⟩ := List.mem_map.mp member
    exact Row.bland_of_isBlank (blank cell inside)
  have bland_blanks : Bland (chars blanks) := by
    intro char member
    simpa using bland char (List.mem_of_mem_head? member)
  have code : ∀ cell ∈ blanks, cell.kind = .code := by
    have kinds := clear.classifyFrom
    have behind := (Scans.plain bland []).classifyFrom
    simp only [chars_cellsOf, List.append_nil, classifyFrom_nil] at kinds behind
    rw [chars_append, ← classify, classify_append_of_isClosed closed bland_blanks,
      List.map_append, classify, classify, behind] at kinds
    have sizes : (classifyFrom .code (chars kept)).length = (kept.map Cell.kind).length := by
      simp [length_classifyFrom]
    have same := (List.append_inj kinds sizes).2
    intro cell member
    have inside : cell.kind ∈ blanks.map Cell.kind := List.mem_map_of_mem member
    rw [← same] at inside
    obtain ⟨other, plain, same_kind⟩ := List.mem_map.mp inside
    rw [← same_kind, (mem_cellsOf.mp plain).1]
  have seam : ∀ left ∈ kept.getLast?, ∀ right ∈ blanks.head?, left.kind = right.kind →
      left.kind = .code :=
    fun left _ right found same => same.trans (code right (List.mem_of_mem_head? found))
  obtain ⟨middle, front, back⟩ := Scans.split clear seam
  rcases blanks with - | ⟨right, blanks⟩
  · obtain rfl := back.of_nil
    exact front.clear
  · have settled := (back.of_head_code rfl (code right (.head _))).imp_right And.left
    obtain rfl := front.code_of_isClosed settled closed
    exact front.clear

namespace Source

/--
Whether a comment goes over the place for a new element of an array: no line comment is the
last thing in an array without elements, and the line of the last element, if it has one of
its own, does not end inside of a comment.
-/
structure Inviting (source : Source) (array : Span) : Prop where
  bare : source.elements array = [] → isClosed (source.textIn array).stripEnd
  filled : ∀ last ∈ (source.elements array).getLast?, source.startsLine last.start →
    source.cells[source.lineEndBehind array last]? ≠ some ⟨'\n', .comment⟩

instance (source : Source) (array : Span) : Decidable (source.Inviting array) :=
  decidable_of_iff ((source.elements array = [] → isClosed (source.textIn array).stripEnd) ∧
      ∀ last ∈ (source.elements array).getLast?, source.startsLine last.start →
        source.cells[source.lineEndBehind array last]? ≠ some ⟨'\n', .comment⟩)
    ⟨fun both => ⟨both.1, both.2⟩, fun inviting => ⟨inviting.bare, inviting.filled⟩⟩

end Source

namespace Frame

variable (frame : Frame) {row : Row} {inner old new piece : List Cell}

theorem inlaid_fill (inlaid : Inlaid old new) :
    Inlaid (frame.fill old).cells (frame.fill new).cells :=
  (Inlaid.refl frame.front).append (.keep _ (inlaid.append (.refl _)))

theorem endsLine_of_fill (valid : row.Valid) {last : Span}
    (stop : last.stop = frame.front.length + 1 + (Row.flat row.entries).length)
    (free : (frame.fill row.cells).cells[(frame.fill row.cells).lineEndBehind
      (frame.span row.cells) last]? ≠
      some ⟨'\n', .comment⟩) : row.EndsLine := by
  have stands : (frame.fill row.cells).Shows last.stop row.rest := by
    have stands := frame.shows_fill row.cells
    rw [Row.cells] at stands ⊢
    exact stop ▸ stands.right
  have size : (frame.span row.cells).stop = last.stop + row.rest.length := by
    simp only [span, stop, Row.cells, List.length_append]
    omega
  obtain ⟨front, -, -, shown, place⟩ := stands.exists_lineEndBehind valid.rest size
  intro found
  exact free (place ▸ shown.getElem? found)

/-- In an array without elements a first one goes behind what is kept of it. -/
theorem exists_inlaid_of_bare (valid : row.Valid) (bare : row.entries = [])
    (clear : Clear row.cells)
    (closed : isClosed (chars row.cells).stripEnd) (sturdy : Sturdy piece) :
    ∃ kept blanks new, row.cells = kept ++ blanks ∧
      (∀ cell ∈ blanks, isBlank cell.char) ∧ Clear new ∧
      Inlaid kept new ∧
      (frame.fill row.cells).appendElement (frame.span row.cells) (chars piece) .inline =
        (frame.fill new).text := by
  obtain ⟨blanks, split, blank⟩ := Text.exists_blanks (chars row.cells)
  obtain ⟨kept, rest, whole, kept_chars, rest_chars⟩ := List.map_eq_append_iff.mp split
  have kept_clear : Clear kept := by
    refine Kind.Clear.cut_blanks (whole ▸ clear) (fun cell member => ?_)
      (by rw [chars, kept_chars]; exact closed)
    exact List.all_eq_true.mp blank _ (rest_chars ▸ List.mem_map_of_mem member)
  have stripped : chars kept = (chars row.cells).stripEnd := kept_chars
  have code : ∀ cell ∈ cellsOf .code (frame.margins row .inline).1, cell.kind ≠ .comment := by
    intro cell member
    simp [(Kind.mem_cellsOf.mp member).1]
  refine ⟨kept, rest, kept ++ (cellsOf .code (frame.margins row .inline).1 ++ piece),
    whole, ?_, ?_, ?_, ?_⟩
  · exact fun cell member => List.all_eq_true.mp blank _ (rest_chars ▸ List.mem_map_of_mem member)
  · cases kept with
    | nil => simpa [margins, ← stripped, cellsOf] using sturdy.firm.clear
    | cons cell kept =>
        have gap : (frame.margins row .inline).1 = [' '] := by simp [margins, ← stripped]
        rw [gap]
        exact kept_clear.append (sturdy.firm.plain_append (by simp)).clear (by simp [cellsOf])
  · simpa using (Inlaid.refl kept).append
      (.of_silent fun cell member => (List.mem_append.mp member).elim (code cell)
        (sturdy.silent cell))
  · rw [frame.appendElement_fill_of_bare valid bare piece .inline]
    have text_eq (first last : List Cell) (same : chars first = chars last) :
        (frame.fill first).text = (frame.fill last).text := by
      simpa [fill, Source.text, chars] using same
    exact text_eq _ _ (by simp [Row.begin, Row.cells, margins, stripped])

/-- Where it invites a new element, an array gets it without a change to what is kept of it. -/
theorem exists_inlaid (sound : (frame.fill inner).Sound) (balanced : Balanced inner)
    (inviting : (frame.fill inner).Inviting (frame.span inner)) (sturdy : Sturdy piece) :
    ∃ kept blanks new, inner = kept ++ blanks ∧ (∀ cell ∈ blanks, isBlank cell.char) ∧
      (blanks ≠ [] → (frame.fill inner).elements (frame.span inner) = []) ∧ Clear new ∧
        Inlaid kept new ∧
      (frame.fill inner).appendElement (frame.span inner) (chars piece) .inline =
        (frame.fill new).text := by
  have clear := frame.clear_of_sound sound
  obtain ⟨row, valid, rfl⟩ := Row.exists_of_balanced balanced
  have elements : (frame.fill row.cells).elements (frame.span row.cells) =
      Row.spansFrom (frame.front.length + 1) row.entries :=
    Source.elements_row valid (frame.shows_fill row.cells)
  rcases row.entries.eq_nil_or_concat with bare | ⟨front, ⟨padding, last⟩, entries⟩
  · have none : (frame.fill row.cells).elements (frame.span row.cells) = [] := by
      rw [elements, bare, Row.spansFrom]
    have closed := inviting.bare none
    rw [Source.textIn, frame.cellsIn_span] at closed
    obtain ⟨kept, blanks, new, whole, blank, new_clear, inlaid, text⟩ :=
      frame.exists_inlaid_of_bare valid bare clear closed sturdy
    exact ⟨kept, blanks, new, whole, blank, fun _ => none, new_clear, inlaid, text⟩
  · rw [List.concat_eq_append] at entries
    have final : (frame.fill row.cells).elements (frame.span row.cells) =
        Row.spansFrom (frame.front.length + 1) front ++
          [⟨frame.front.length + 1 + (Row.flat front).length + padding.length,
            frame.front.length + 1 + (Row.flat front).length + padding.length + last.length⟩] := by
      rw [elements, entries, Row.spansFrom_append]
      rfl
    have ends_line (own : ((frame.fill row.cells).ownLine?
        (frame.front.length + 1 + (Row.flat front).length + padding.length)).isSome) :
          row.EndsLine := by
      refine frame.endsLine_of_fill valid ?_
        (inviting.filled _ (by rw [final, List.getLast?_concat]; rfl) ?_)
      · simp [entries, Nat.add_assoc]
      · simpa [Source.ownLine?] using own
    have appended := Row.appended_append valid (by simp [entries]) clear ends_line sturdy
      Source.mem_ownLine?
    exact ⟨row.cells, [], _, (List.append_nil _).symm, by simp, by simp, appended.clear,
      Row.inlaid_append valid sturdy.silent,
        frame.appendElement_fill_of_filled valid entries rfl piece .inline⟩

end Frame

theorem inlaid_argumentRow {front back : List (List Cell × List Cell)}
    {padding piece rest : List Cell}
    {dependency : Text} (own : Option Text) (noFeed : '\n' ∉ dependency) :
    Inlaid (Row.cells ⟨front ++ (padding, piece) :: back, rest⟩)
      (argumentRow front padding piece back rest own dependency).cells := by
  have silent : ∀ cell ∈ commaCell :: (gapCells own ++ dependenciesCells dependency),
      cell.kind ≠ .comment := by
    intro cell member
    rcases List.mem_cons.mp member with rfl | inside
    · simp [commaCell]
    · exact (List.mem_append.mp inside).elim (silent_gapCells own cell)
        ((sturdy_dependencies noFeed).silent cell)
  have old : Row.cells ⟨front ++ (padding, piece) :: back, rest⟩ =
      Row.flat front ++ (padding ++ piece) ++ (Row.flat back ++ rest) := by
    simp [Row.cells]
  rw [old, cells_argumentRow]
  exact (Inlaid.refl _).append (.put silent (.refl _))

/--
What adding a reference makes of a source.  Blanks at the end of an array without elements
can go, everything else stays, and nothing that is put in is a comment.
-/
structure Enlarged (source new : Source) (array? : Option Span) (blanks : List Cell) : Prop where
  sound : new.Sound
  blank : ∀ cell ∈ blanks, isBlank cell.char
  inlaid : ∃ front back, source.cells = front ++ (blanks ++ back) ∧
    Inlaid (front ++ back) new.cells ∧
    (blanks ≠ [] → ∃ array ∈ array?, source.elements array = [] ∧
      array.stop = (front ++ blanks).length)

namespace Source

variable {source : Source} {target : TargetCall} {dependency : Text}

theorem Sound.enlarged_appendElement (sound : source.Sound) (member : target ∈ source.targetCalls)
    (noFeed : '\n' ∉ dependency) {array : Span}
    (found : source.targetDependencies? target = some array) (inviting : source.Inviting array) :
    ∃ new blanks, source.appendElement array (Literal.encode dependency) .inline = new.text ∧
      Enlarged source new (some array) blanks := by
  obtain ⟨place, array_place, inner, rfl, holds, array_holds, rfl⟩ :=
    exists_dependencies member found
  rw [← place.fill_arrayFrame] at sound inviting ⊢
  obtain ⟨kept, blanks, new, rfl, blank, bare, clear, inlaid, text⟩ :=
    (place.arrayFrame array_place).exists_inlaid
    sound array_holds.inside inviting (sturdy_literal noFeed)
  rw [chars_literalCells] at text
  refine ⟨_, blanks, text, Frame.sound_fill _ sound clear, blank,
    (place.arrayFrame array_place).front ++
    (place.arrayFrame array_place).opening :: kept, (place.arrayFrame array_place).closing ::
      (place.arrayFrame array_place).back, ?_, ?_, fun filled => ⟨_, rfl, bare filled, ?_⟩⟩
  · simp [Frame.fill]
  · simpa [Frame.fill] using (place.arrayFrame array_place).inlaid_fill inlaid
  · simp only [Frame.span, List.length_append, List.length_cons]
    omega

theorem Sound.enlarged_addArgument (sound : source.Sound) (member : target ∈ source.targetCalls)
    (noFeed : '\n' ∉ dependency) {named : Argument}
    (found : source.labeledArgument? target.call.arguments Field.name.label = some named)
    (array? : Option Span) :
    ∃ new, source.addDependenciesArgument named (Literal.encode dependency) = new.text ∧
      Enlarged source new array? [] := by
  obtain ⟨place, list, rfl, holds⟩ := exists_place member
  obtain ⟨row, valid, rfl⟩ := Row.exists_of_balanced holds.call.inside
  rw [holds.arguments] at found
  obtain ⟨front, padding, head, value, back, start, entries, begins, -, -, -, span⟩ :=
    labeledArgument?_eq_some valid (place.shows_list row.cells) found
  obtain ⟨all, rest⟩ := row
  obtain rfl : all = front ++ (padding, head ++ value) :: back := entries
  obtain ⟨frame, -, same⟩ := TargetPlace.exists_listFrame holds.call
  rw [← same] at sound
  refine ⟨_, TargetPlace.addDependenciesArgument_row holds.call begins span dependency,
    ?_, by simp, [],
    (place.source (Row.cells ⟨front ++ (padding, head ++ value) :: back, rest⟩)).cells,
      rfl, ?_, by simp⟩
  · rw [← same]
    exact frame.sound_fill sound
      (clear_argumentRow mem_ownLine? valid (frame.clear_of_sound sound) noFeed)
  · rw [← same, ← same]
    exact frame.inlaid_fill (inlaid_argumentRow _ noFeed)

end Source

/--
Adding a reference leaves every comment and all the code as they are, where the array of the
target invites an element or the target has none.  What is cut is at most the blank end of an
array without elements.
-/
theorem inlaid_of_addToTarget {text target dependency result : Text}
    (terminates : Kind.terminates text) (noFeed : '\n' ∉ dependency)
    (inviting : ∀ found array, (Source.ofText text).findTarget target = .ok found →
      (Source.ofText text).targetDependencies? found = some array →
        (Source.ofText text).Inviting array)
    (added : Edit.addToTarget text target dependency = .ok result) :
    ∃ found front blanks back, (Source.ofText text).findTarget target = .ok found ∧
      (Source.ofText text).cells = front ++ (blanks ++ back) ∧
      Inlaid (front ++ back) (Source.ofText result).cells ∧ (∀ cell ∈ blanks, isBlank cell.char) ∧
      (blanks ≠ [] → ∃ array, (Source.ofText text).targetDependencies? found = some array ∧
        (Source.ofText text).elements array = [] ∧ array.stop = (front ++ blanks).length) := by
  have sound := Source.sound_ofText terminates
  cases search : (Source.ofText text).findTarget target with
  | error error =>
      rw [Edit.addToTarget] at added
      simp only [search] at added
      cases added
  | ok found =>
      have member := Source.mem_of_findTarget search
      rw [← Source.text_ofText text, sound.addToTarget_of_found search] at added
      obtain ⟨new, blanks, rfl, enlarged⟩ : ∃ new blanks, result = new.text ∧
          Enlarged (Source.ofText text) new
            ((Source.ofText text).targetDependencies? found) blanks := by
        split at added
        case h_1 array located =>
          obtain ⟨new, blanks, same, enlarged⟩ := sound.enlarged_appendElement member noFeed located
            (inviting found array search located)
          exact ⟨new, blanks, (Except.ok.inj added).symm.trans same, located ▸ enlarged⟩
        case h_2 =>
          split at added
          case isTrue => cases added
          case isFalse =>
            split at added
            case h_1 => cases added
            case h_2 named label =>
              obtain ⟨new, same, enlarged⟩ := sound.enlarged_addArgument member noFeed label _
              exact ⟨new, [], (Except.ok.inj added).symm.trans same, enlarged⟩
      obtain ⟨front, back, whole, inlaid, dropped⟩ := enlarged.inlaid
      rw [← enlarged.sound.ofText_text] at inlaid
      exact ⟨found, front, blanks, back, rfl, whole, inlaid, enlarged.blank, dropped⟩

/-- A manifest whose array of references has a comment of either sort. -/
def commentedManifest : Text :=
  "Package(name: \"p\", targets: [.target(name: \"t\", dependencies: [\n  \"a\", // first\n".toList
    ++
    "  /* and\n  */\n  \"b\" // last\n])])".toList

/-- With one more reference behind the comments of its last line. -/
def extendedManifest : Text :=
  "Package(name: \"p\", targets: [.target(name: \"t\", dependencies: [\n  \"a\", // first\n".toList
    ++
    "  /* and\n  */\n  \"b\", // last\n  \"c\"\n])])".toList

/-- Nothing of this manifest is lost or becomes another kind with the reference. -/
theorem inlaid_of_commentedManifest :
    Edit.addToTarget commentedManifest ['t'] ['c'] = .ok extendedManifest ∧
      Inlaid (Source.ofText commentedManifest).cells (Source.ofText extendedManifest).cells := by
  have added : Edit.addToTarget commentedManifest ['t'] ['c'] = .ok extendedManifest := by
    rw [Edit.addToTarget]
    simp only [Source.findTarget, ← Source.calls_eq]
    decide +kernel
  have arrays : ∀ target ∈ (Source.ofText commentedManifest).targetCalls,
      ∀ array ∈ (Source.ofText commentedManifest).targetDependencies? target,
        (Source.ofText commentedManifest).Inviting array ∧
          (Source.ofText commentedManifest).elements array ≠ [] := by
    rw [← Source.calls_eq]
    decide +kernel
  obtain ⟨target, front, blanks, back, found, whole, inlaid, -, dropped⟩ :=
    inlaid_of_addToTarget (by decide +kernel) (by decide)
      (fun target array found located =>
        (arrays target (Source.mem_of_findTarget found) array located).1) added
  have kept : blanks = [] := by
    by_contra filled
    obtain ⟨array, located, bare, -⟩ := dropped filled
    exact (arrays target (Source.mem_of_findTarget found) array located).2 bare
  rw [kept, List.nil_append] at whole
  rw [← whole] at inlaid
  exact ⟨added, inlaid⟩

end SwiftWorkspace
