import Mathlib.Data.List.DropRight
import SwiftWorkspace.Outcome
import SwiftWorkspace.Proofs.BracketWords
import SwiftWorkspace.Proofs.Changes
import SwiftWorkspace.Proofs.Search
import SwiftWorkspace.Proofs.Severing
import SwiftWorkspace.Proofs.Slots

/-!
# References taken away among comments

Removing the references to a name cuts cells out of one array.  Where no line feed that
is cut ends a line comment, the cells that stay keep their kinds, the array is closed by the
bracket that closed it, and the other elements are what they were.
-/

namespace SwiftWorkspace

open Kind (Clear Scans chars isClosed)

namespace Source

/--
Whether elements of an array can be cut out without a change to what stays: no line feed stands in
a comment, and no element that stays ends with a slash.  Where the last element goes and begins its
line, the line feed in front of the elements that go with it ends no line comment, or the line of
the last element ends with a line feed of the array.
-/
structure Severable (source : Source) (array : Span) (goes : Span → Bool) : Prop where
  feeds : ∀ cell ∈ source.cellsIn array, cell.kind = .comment → cell.char ≠ '\n'
  slashes : ∀ element ∈ source.elements array, goes element = false →
    source.at? (element.stop - 1) ≠ some ⟨'/', .code⟩
  ended : ∀ last ∈ (source.elements array).getLast?, source.startsLine last.start →
    ∀ stay ∈ ((source.elements array).rdropWhile goes).getLast?,
    ∀ first ∈ ((source.elements array).rtakeWhile goes).head?,
    ∀ feed ∈ source.lastLineFeed? stay.stop first.start,
      isClosed (source.textIn ⟨stay.stop, feed⟩) ∨
        source.at? (source.lineEndBehind array last) = some ⟨'\n', .code⟩

instance (source : Source) (array : Span) (goes : Span → Bool) :
    Decidable (source.Severable array goes) :=
  decidable_of_iff ((∀ cell ∈ source.cellsIn array, cell.kind = .comment → cell.char ≠ '\n') ∧
      (∀ element ∈ source.elements array, goes element = false →
        source.at? (element.stop - 1) ≠ some ⟨'/', .code⟩) ∧
      ∀ last ∈ (source.elements array).getLast?, source.startsLine last.start →
        ∀ stay ∈ ((source.elements array).rdropWhile goes).getLast?,
        ∀ first ∈ ((source.elements array).rtakeWhile goes).head?,
        ∀ feed ∈ source.lastLineFeed? stay.stop first.start,
          isClosed (source.textIn ⟨stay.stop, feed⟩) ∨
            source.at? (source.lineEndBehind array last) = some ⟨'\n', .code⟩)
    ⟨fun ⟨feeds, slashes, ended⟩ => ⟨feeds, slashes, ended⟩, fun severable =>
      ⟨severable.feeds, severable.slashes, severable.ended⟩⟩

/-- The elements that go at the end of an array are those behind the last one that stays. -/
theorem mem_run {goes : Span → Bool} {elements front behind : List Span} {stay first : Span}
    (split : elements = front ++ stay :: first :: behind) (staying : goes stay = false)
    (gone : ∀ element ∈ first :: behind, goes element = true) :
    stay ∈ (elements.rdropWhile goes).getLast? ∧ first ∈ (elements.rtakeWhile goes).head? := by
  have reversed : elements.reverse = (first :: behind).reverse ++ stay :: front.reverse := by
    simp [split]
  have all : ∀ element ∈ (first :: behind).reverse, goes element = true :=
    fun element member => gone element (List.mem_reverse.mp member)
  rw [List.rdropWhile, List.rtakeWhile, reversed, List.dropWhile_append_of_pos all,
    List.takeWhile_append_of_pos all]
  simp [staying]

variable {source : Source} {query : Source → Span → Bool} {row : Row}
    {position : Nat} {array : Span}

theorem Shows.behind_entry {front back : List (List Cell × List Cell)}
    {padding piece rest : List Cell}
    (stands : source.Shows position (Row.cells ⟨front ++ (padding, piece) :: back, rest⟩)) :
    source.Shows (position + (Row.flat front).length + padding.length + piece.length)
      (Row.flat back ++ rest) := by
  rw [Row.cells, Row.flat_append, Row.flat_cons, List.append_assoc, List.append_assoc,
    List.append_assoc] at stands
  exact stands.right.right.right

/--
A line feed that a search comes to stands in the cells it goes over, if none stands behind them.
-/
theorem Shows.getElem?_of_feed {cells : List Cell} (stands : source.Shows position cells)
    (behind : source.at? (position + cells.length) ≠ some ⟨'\n', .code⟩) {index : Nat}
    (within : index ≤ cells.length)
    (feed : source.at? (position + index) = some ⟨'\n', .code⟩) :
    cells[index]? = some ⟨'\n', .code⟩ := by
  rcases Nat.lt_or_eq_of_le within with inside | rfl
  · have found := stands.getElem? (List.getElem?_eq_getElem inside)
    rw [List.getElem?_eq_getElem inside, ← found]
    exact feed
  · exact absurd feed behind

theorem ne_slash_of_severable (valid : row.Valid) (loc : Local query)
    (stands : source.Shows position row.cells)
    (whole : array = ⟨position, position + row.cells.length⟩)
    (severable : source.Severable array (query source))
    {entry : List Cell × List Cell} (member : entry ∈ row.entries)
    (staying : read query entry.2 = false) : ∀ cell ∈ entry.2.getLast?, cell ≠ ⟨'/', .code⟩ := by
  rintro cell found rfl
  obtain ⟨padding, piece⟩ := entry
  obtain ⟨entries, rest⟩ := row
  obtain ⟨front, back, rfl⟩ := List.append_of_mem member
  obtain ⟨before, rfl⟩ := List.getLast?_eq_some_iff.mp found
  have decides := Row.query_spansFrom valid loc stands rfl
  refine severable.slashes _ ?_ (decides.trans staying) ?_
  · rw [whole, elements_row valid stands, Row.spansFrom_append, Row.spansFrom]
    exact List.mem_append_right _ (.head _)
  · have slash := stands.entry.getElem?
      (List.getElem?_concat_length (l := before) (a := ⟨'/', .code⟩))
    simpa [at?] using slash

/-- A run at the end of a row can lose its line feed when it can in the source. -/
theorem ended_of_severable (valid : row.Valid) (loc : Local query)
    (stands : source.Shows position row.cells)
    (whole : array = ⟨position, position + row.cells.length⟩)
    (severable : source.Severable array (query source))
    (closed : source.at? array.stop ≠ some ⟨'\n', .code⟩) {last : Span}
    (found : last ∈ (Row.spansFrom position row.entries).getLast?)
    (starts : source.startsLine last.start) : Row.Ended (read query) row.entries row.rest := by
  intro front stay padding next back split staying gone before line padded noFeed
  obtain ⟨lead, piece⟩ := stay
  obtain ⟨entries, rest⟩ := row
  obtain rfl : entries = front ++ (lead, piece) :: (padding, next) :: back := split
  have elements := elements_row valid stands
  rw [← whole] at elements
  have stays := Row.query_spansFrom valid loc stands rfl
  have stands_run := stands.behind_entry
  have goes_all := (loc.forall_spans_iff (fun entry member => (valid.solid entry
    (List.mem_append_right _ (.tail _ member))).unbroken.balanced) stands_run.left).mpr gone
  obtain ⟨last_stays, first_goes⟩ := mem_run (elements.trans (by
    rw [Row.spansFrom_append, Row.spansFrom, Row.spansFrom])) (stays.trans staying) goes_all
  -- The line feed in front of the run that goes, and the end of the line of its last element.
  have stands_gap : source.Shows _ (padding ++ next) := stands_run.left.left
  have stands_padding := stands_gap.left
  rw [padded] at stands_padding
  have feed : source.lastLineFeed? _ _ = some _ := stands_padding.lastLineFeed?_eq rfl noFeed rfl
  have stop := Row.stop_of_getLast?_spansFrom found
  have stands_rest : source.Shows last.stop rest := stop ▸ stands.right
  have size : array.stop = last.stop + rest.length := by
    simp only [whole, stop, Row.cells, List.length_append]
    omega
  obtain ⟨before_comma, parts, -, stands_behind, place⟩ :=
    stands_rest.exists_lineEndBehind valid.rest size
  have ends := severable.ended last (by rwa [elements]) starts _ last_stays _ first_goes
  rw [← padded] at feed
  rw [feed] at ends
  have ends := ends _ rfl
  rw [place, stands_padding.left.textIn] at ends
  refine ends.imp_right (stands_behind.getElem?_of_feed ?_ (endOfLine_le _))
  have whole_rest : last.stop + before_comma.length + (behindComma rest).length = array.stop := by
    rw [size, Nat.add_assoc, ← List.length_append, ← parts]
  rwa [whole_rest]

end Source

namespace Frame

variable (frame : Frame) {row : Row} {inner : List Cell} {query : Source → Span → Bool}

theorem at?_stop_ne_feed (inner : List Cell) :
    (frame.fill inner).at? (frame.span inner).stop ≠ some ⟨'\n', .code⟩ := by
  have parts : (frame.fill inner).cells =
      (frame.front ++ frame.opening :: inner) ++ frame.closing :: frame.back := by
    simp [fill]
  have place : (frame.span inner).stop = (frame.front ++ frame.opening :: inner).length := by
    simp only [span, List.length_append, List.length_cons]
    omega
  rw [Source.at?, parts, place, List.getElem?_append_right (Nat.le_refl _), Nat.sub_self]
  obtain ⟨shape, -, closes⟩ := frame.pairs
  intro feed
  have closing : frame.closing = ⟨'\n', .code⟩ := by simpa using feed
  rw [closing] at closes
  cases closes

/-- A severable array can lose the elements that go. -/
theorem exists_severed (sound : (frame.fill inner).Sound) (balanced : Balanced inner)
    (loc : Source.Local query)
    (severable : (frame.fill inner).Severable (frame.span inner) (query (frame.fill inner))) :
    ∃ new, Drops inner new (Source.read query) ∧ Clear new ∧ new.Sublist inner ∧
      (frame.fill inner).deleteElements (frame.span inner) (query (frame.fill inner)) =
        (frame.fill new).text := by
  obtain ⟨row, valid, rfl⟩ := Row.exists_of_balanced balanced
  obtain ⟨new, drops, left, text⟩ := frame.exists_drops_uncovered valid loc
  rcases left with rfl | rfl
  · exact ⟨[], drops, .nil, List.nil_sublist _, text⟩
  · refine ⟨_, drops, ?_, uncovered_sublist .., text⟩
    have stands := frame.shows_fill row.cells
    refine Row.clear_uncovered valid (frame.clear_of_sound sound) loc stands rfl
      (by simpa using severable.feeds)
      (fun entry => Source.ne_slash_of_severable valid loc stands rfl severable) fun last =>
        Source.ended_of_severable valid loc stands rfl severable (frame.at?_stop_ne_feed row.cells)

theorem closing?_fill_front (balanced : Balanced inner) :
    (frame.fill inner).closing? ((frame.span inner).start - 1) = some (frame.span inner).stop := by
  have stands : (frame.fill inner).cells.drop frame.front.length =
      frame.opening :: (inner ++ frame.closing :: frame.back) := List.drop_left
  exact Source.closing?_of_drop stands frame.pairs balanced

/-- The elements that stay are known from what is left. -/
theorem map_elements_of_drops {old new : List Cell} (balanced : Balanced old)
    (loc : Source.Local query) (drops : Drops old new (Source.read query)) :
    ((frame.fill new).elements (frame.span new)).map (frame.fill new).cellsIn =
      (((frame.fill old).elements (frame.span old)).filter (!query (frame.fill old) ·)).map
        (frame.fill old).cellsIn := by
  have pieces {inner : List Cell} (balanced : Balanced inner) :
      ((frame.fill inner).elements (frame.span inner)).map (frame.fill inner).cellsIn =
        Source.piecesOf inner := by
    have same := Source.local_cellsIn.elements balanced (frame.shows_fill inner)
    rwa [funext Source.read_cellsIn, List.map_id''] at same
    exact fun _ => rfl
  have answers := loc.elements balanced (frame.shows_fill old)
  rw [← pieces balanced, List.map_map] at answers
  have decides := List.map_inj_left.mp answers
  rw [pieces drops.balanced, drops.pieces, ← pieces balanced, List.filter_map]
  refine congrArg (List.map _) (List.filter_congr fun element member => ?_)
  rw [Function.comp_apply, decides element member, Function.comp_apply]

end Frame

/--
What cutting elements out of an array makes of a source.  The array is left with some of its
cells, among them those of the elements that stay, and is closed by the same bracket.
-/
structure Severed (source new : Source) (array left : Span) (goes : Span → Bool) : Prop where
  start : left.start = array.start
  cells : new.cells = source.cells.take array.start ++
    (new.cellsIn left ++ source.cells.drop array.stop)
  inside : (new.cellsIn left).Sublist (source.cellsIn array)
  elements : (new.elements left).map new.cellsIn =
    ((source.elements array).filter (!goes ·)).map source.cellsIn
  closed : source.closing? (array.start - 1) = some array.stop ∧
    new.closing? (array.start - 1) = some left.stop

namespace Source

theorem Sound.severed_deleteElements {source : Source} {target : TargetCall} {array : Span}
    {query : Source → Span → Bool} (sound : source.Sound) (member : target ∈ source.targetCalls)
    (found : source.targetDependencies? target = some array) (loc : Local query)
    (severable : source.Severable array (query source)) :
    ∃ left, Severed source (ofText (source.deleteElements array (query source))) array left
      (query source) := by
  obtain ⟨place, array_place, inner, rfl, holds, array_holds, rfl⟩ :=
    exists_dependencies member found
  rw [← place.fill_arrayFrame] at sound severable ⊢
  generalize place.arrayFrame array_place = frame at sound severable ⊢
  have balanced := array_holds.inside
  obtain ⟨new, drops, clear, sublist, text⟩ := frame.exists_severed sound balanced loc severable
  rw [text, (frame.sound_fill sound clear).ofText_text]
  refine ⟨frame.span new, rfl, ?_, ?_, frame.map_elements_of_drops balanced loc drops,
    frame.closing?_fill_front balanced, frame.closing?_fill_front drops.balanced⟩
  · rw [frame.cellsIn_span, frame.splice]
  · rwa [frame.cellsIn_span, frame.cellsIn_span]

end Source

/--
Removing the references to a name takes cells out of the array of one target only.  Where that array
is severable, every cell that stays keeps its kind, the array is closed by its bracket, and the
elements that do not refer to the name are left as they are, in their order.
-/
theorem severed_of_removeFromTarget {text target dependency result : Text}
    (terminates : Kind.terminates text)
    (severable : ∀ found array, (Source.ofText text).findTarget target = .ok found →
      (Source.ofText text).targetDependencies? found = some array →
        (Source.ofText text).Severable array ((Source.ofText text).refersTo dependency))
    (removed : Edit.removeFromTarget? text target dependency = .ok (some result)) :
    ∃ found array left, (Source.ofText text).findTarget target = .ok found ∧
      (Source.ofText text).targetDependencies? found = some array ∧
      Severed (Source.ofText text) (Source.ofText result) array left
        ((Source.ofText text).refersTo dependency) := by
  have sound := Source.sound_ofText terminates
  cases search : (Source.ofText text).findTarget target with
  | error error =>
      rw [Edit.removeFromTarget?] at removed
      simp only [search] at removed
      cases removed
  | ok found =>
      rw [← Source.text_ofText text, sound.removeFromTarget?_of_found search] at removed
      cases located : (Source.ofText text).targetDependencies? found with
      | none =>
          rw [located] at removed
          cases removed
      | some array =>
          rw [located] at removed
          simp only at removed
          split at removed
          case isFalse => cases removed
          case isTrue =>
            obtain rfl := Option.some.inj (Except.ok.inj removed)
            obtain ⟨left, severed⟩ :=
              sound.severed_deleteElements (Source.mem_of_findTarget search) located
              (Source.local_refersTo dependency) (severable found array search located)
            exact ⟨found, array, left, rfl, located, severed⟩

/-- A manifest with comments around the references that go and around those that stay. -/
def notedManifest : Text :=
  "targets: [.target(name: \"t\", dependencies: [\n  \"b\", // gone\n".toList ++
    "  \"a\" /* kept */, // as well\n  \"b\" // gone, too\n])]".toList

/-- What is left of it without these references. -/
def prunedManifest : Text :=
  "targets: [.target(name: \"t\", dependencies: [\n  \"a\" /* kept */ // as well\n])]".toList

/-- Two references go from this manifest, the second one with the line feed in front of its line. -/
theorem severed_of_notedManifest :
    Edit.removeFromTarget? notedManifest ['t'] ['b'] = .ok (some prunedManifest) ∧
      ∃ array left, Severed (Source.ofText notedManifest) (Source.ofText prunedManifest) array left
        ((Source.ofText notedManifest).refersTo ['b']) := by
  have terminates : Kind.terminates notedManifest := by decide +kernel
  have arrays : ∀ target ∈ (Source.ofText notedManifest).targetCalls,
      (Source.ofText notedManifest).targetDependencies? target = some ⟨44, 108⟩ := by
    rw [← Source.calls_eq]
    decide +kernel
  have deleted : (Source.ofText notedManifest).deleteElements ⟨44, 108⟩
      ((Source.ofText notedManifest).refersTo ['b']) = prunedManifest := by
    rw [Source.deleteElements_eq (by decide) (by decide +kernel) rfl]
    decide +kernel
  have refers : ((Source.ofText notedManifest).elements ⟨44, 108⟩).any
      ((Source.ofText notedManifest).refersTo ['b']) = true := by
    decide +kernel
  obtain ⟨target, search⟩ :=
    Outcome.exists_of_isOk ((Source.ofText notedManifest).findTarget ['t']) (by
    simp only [Source.findTarget, ← Source.calls_eq]
    decide +kernel)
  have removed : Edit.removeFromTarget? notedManifest ['t'] ['b'] = .ok (some prunedManifest) := by
    rw [← Source.text_ofText notedManifest,
      (Source.sound_ofText terminates).removeFromTarget?_of_found search,
      arrays target (Source.mem_of_findTarget search)]
    simp only [refers, deleted, if_true]
  obtain ⟨found, array, left, -, -, severed⟩ :=
    severed_of_removeFromTarget terminates (fun target array found located => by
      rw [arrays target (Source.mem_of_findTarget found)] at located
      obtain rfl := Option.some.inj located
      decide +kernel) removed
  exact ⟨removed, array, left, severed⟩

end SwiftWorkspace
