import SwiftWorkspace.Proofs.Changes
import SwiftWorkspace.Proofs.Undoing

/-!
# Arrays of several targets

The arrays of dependencies of several targets can be exchanged at once.  In which
order this is done makes no difference, because each element is changed on its own.
-/

namespace SwiftWorkspace

open Kind (Clear chars)

namespace Source

/-- The inside of the array of dependencies, in an element that declares a target. -/
def slot? (source : Source) (element : Span) : Option Span :=
  (source.callIn? element).bind fun call =>
    source.argumentArray? call.arguments Field.dependencies.label

end Source

def changeSlot (change : List Cell → List Cell) (piece : List Cell) : List Cell :=
  match Source.read Source.slot? piece with
  | none => piece
  | some span =>
      piece.take span.start ++ (change (Source.cellsIn ⟨piece⟩ span) ++ piece.drop span.stop)

/-- Other cells in the place of those in the gap fill it. -/
theorem Frame.splice (frame : Frame) (old new : List Cell) :
    (frame.fill old).cells.take (frame.span old).start ++
        (new ++ (frame.fill old).cells.drop (frame.span old).stop) = (frame.fill new).cells := by
  have front : (frame.fill old).cells =
      (frame.front ++ [frame.opening]) ++ (old ++ frame.closing :: frame.back) := by
    simp [fill]
  have whole : (frame.fill old).cells =
      (frame.front ++ frame.opening :: old) ++ frame.closing :: frame.back := by
    simp [fill]
  have first : (frame.fill old).cells.take (frame.span old).start =
      frame.front ++ [frame.opening] := by
    rw [front]
    exact List.take_left' (by simp [span])
  have last : (frame.fill old).cells.drop (frame.span old).stop = frame.closing :: frame.back := by
    rw [whole]
    refine List.drop_left' ?_
    simp only [span, List.length_append, List.length_cons]
    omega
  rw [first, last]
  simp [fill]

section Slot

variable {head tail inner : List Cell} {array : ArrayPlace} {keyword : Text}

def slotFrame (head tail : List Cell) (array : ArrayPlace) : Frame where
  front := head ++ (Row.flat array.front ++ (array.padding ++ array.head))
  opening := array.opening
  closing := array.closing
  back := array.tail ++ (Row.flat array.back ++ (array.rest ++ tail))
  pairs := array.pairs

theorem fill_slotFrame (head tail : List Cell) (array : ArrayPlace) (inner : List Cell) :
    ((slotFrame head tail array).fill inner).cells = head ++ (array.list inner ++ tail) := by
  simp [slotFrame, Frame.fill, ArrayPlace.list, ArrayPlace.row, ArrayPlace.value, Row.cells]

theorem changeSlot_call
    (call : IsCall (head ++ (array.list inner ++ tail)) keyword head (array.list inner) tail)
    (holds : array.Holds Field.dependencies.label inner) (change : List Cell → List Cell) :
    changeSlot change (head ++ (array.list inner ++ tail)) =
      head ++ (array.list (change inner) ++ tail) := by
  have stands := Source.shows_alone (head ++ (array.list inner ++ tail))
  have found := Source.callIn?_of_isCall call stands
  have slot := Source.argumentArray?_of_holds holds (call.stands stands) rfl
  have span : Source.read Source.slot? (head ++ (array.list inner ++ tail)) =
      some ((slotFrame head tail array).span inner) := by
    rw [Nat.zero_add] at found
    rw [Source.read, Source.slot?, found, Option.bind_some, slot]
    refine congrArg some ?_
    have start : 0 + head.length + (Row.flat array.front).length + array.padding.length +
        array.head.length + 1 = (slotFrame head tail array).front.length + 1 := by
      simp only [slotFrame, List.length_append]
      omega
    rw [start]
    rfl
  have inside : Source.cellsIn ⟨head ++ (array.list inner ++ tail)⟩
      ((slotFrame head tail array).span inner) = inner := by
    rw [← fill_slotFrame]
    exact (slotFrame head tail array).cellsIn_span inner
  rw [changeSlot, span]
  simp only [inside]
  rw [← fill_slotFrame, ← fill_slotFrame]
  exact (slotFrame head tail array).splice inner (change inner)

theorem exists_declaration {piece : List Cell} {form : TargetForm}
    (declared : Source.read Source.formIn? piece = some form) :
    ∃ keyword head row tail, row.Valid ∧ IsCall piece keyword head (Row.cells row) tail ∧
      Source.formFrom? keyword row.cells = some form := by
  rw [Source.read_formIn?] at declared
  obtain ⟨⟨keyword, list⟩, parts, reads⟩ := Option.bind_eq_some_iff.mp declared
  obtain ⟨head, tail, call⟩ := Source.exists_isCall parts
  obtain ⟨row, valid, rfl⟩ := Row.exists_of_balanced call.inside
  exact ⟨keyword, head, row, tail, valid, call, reads⟩

theorem exists_slot {piece : List Cell} {form : TargetForm}
    (declared : Source.read Source.formIn? piece = some form)
    (dependencies : form.dependencies = some inner) :
    ∃ keyword head tail, ∃ array : ArrayPlace, piece = head ++ (array.list inner ++ tail) ∧
      IsCall piece keyword head (array.list inner) tail ∧
      array.Holds Field.dependencies.label inner := by
  obtain ⟨keyword, head, row, tail, valid, call, reads⟩ := exists_declaration declared
  have content : Source.arrayValue? Field.dependencies.label row.cells = some inner := by
    rw [← dependencies]
    exact (Source.formFrom?_eq_some reads).2.2.symm
  rw [← Source.read_argumentArray? _ valid.balanced, Source.read] at content
  obtain ⟨span, found, inside⟩ := Option.map_eq_some_iff.mp content
  have stands := Source.shows_alone row.cells
  obtain ⟨array, other, rfl, holds, start, whole⟩ := Source.argumentArray?_eq_some valid stands
    (by rwa [Nat.zero_add])
  have place : span = array.frame.span other := by
    have first : span.start = array.frame.front.length + 1 := by
      simp only [start, ArrayPlace.frame, List.length_append]
      omega
    rw [whole, first]
    rfl
  have same : other = inner := by
    have cells : (array.row other).cells = (array.frame.fill other).cells :=
      (array.fill_frame other).symm
    rw [← inside, place, cells]
    exact (array.frame.cellsIn_span other).symm
  subst same
  exact ⟨keyword, head, tail, array, call.whole, call, holds⟩

end Slot

namespace Row

def mapPieces (change : List Cell → List Cell) (row : Row) : Row :=
  ⟨row.entries.map fun entry => (entry.1, change entry.2), row.rest⟩

end Row

def changeTargets (names : List Text) (change : List Cell → List Cell) (piece : List Cell) :
    List Cell :=
  if ((Source.read Source.formIn? piece).any fun form => names.elem form.name) then
    changeSlot change piece
  else piece

theorem changeTargets_of_none {names : List Text} {change : List Cell → List Cell}
    {piece : List Cell} (other : ∀ form ∈ Source.read Source.formIn? piece, form.name ∉ names) :
    changeTargets names change piece = piece := by
  rw [changeTargets, if_neg]
  cases declared : Source.read Source.formIn? piece with
  | none => simp
  | some form => simpa using other form declared

theorem changeTargets_of_mem {names : List Text} {change : List Cell → List Cell}
    {piece : List Cell}
    {form : TargetForm} (declared : Source.read Source.formIn? piece = some form)
    (member : form.name ∈ names) : changeTargets names change piece = changeSlot change piece := by
  rw [changeTargets, if_pos]
  simpa [declared] using member

theorem changeTargets_cons {name : Text} {names : List Text} {change : List Cell → List Cell}
    {piece : List Cell} (other : ∀ form ∈ Source.read Source.formIn? piece, form.name ≠ name) :
    changeTargets (name :: names) change piece = changeTargets names change piece := by
  rw [changeTargets, changeTargets]
  cases declared : Source.read Source.formIn? piece with
  | none => rfl
  | some form => simp [other form declared]

namespace TargetPlace

variable (place : TargetPlace)

theorem exists_holds {list : List Cell} {keyword : Text}
    (located : (place.source list).targetsSpan? = some (place.frame.span (place.row list).cells))
    (valid : (place.row list).Valid)
    (call : IsCall (place.piece list) keyword place.head list place.tail) {form : TargetForm}
    (declared : Source.read Source.formIn? (place.piece list) = some form) :
    ∃ target ∈ (place.source list).targetCalls, place.Holds list target ∧
      (place.source list).formOf target = form := by
  have shown := place.shows_piece list
  have balanced : Balanced (place.piece list) :=
    (valid.solid (place.padding, place.piece list) (by simp [row])).unbroken.balanced
  have found := Source.local_formIn? (place.source list) place.start
    (place.piece list) balanced shown
  rw [declared, Source.formIn?] at found
  obtain ⟨target, called, same⟩ := Option.map_eq_some_iff.mp found
  have member : target ∈ (place.source list).targetCalls := by
    rw [Source.targetCalls, located]
    refine List.mem_filterMap.mpr
      ⟨⟨place.start, place.start + (place.piece list).length⟩, ?_, called⟩
    rw [source, Frame.span, Source.elements_row valid (place.frame.shows_fill _), row,
      Row.spansFrom_append]
    exact List.mem_append_right _ (.head _)
  have parts := called
  rw [Source.targetCallOf?, Source.callIn?_of_isCall call shown, Option.bind_eq_bind,
    Option.bind_some] at parts
  obtain ⟨kind, -, parts⟩ := Option.bind_eq_some_iff.mp parts
  obtain ⟨name, -, parts⟩ := Option.bind_eq_some_iff.mp parts
  obtain rfl := Option.some.inj parts
  exact ⟨_, member, ⟨located, valid, call, declared.trans (congrArg some same.symm), rfl⟩, same⟩

theorem targetDependencies?_of_holds {array : ArrayPlace} {inner : List Cell} {target : TargetCall}
    (holds : place.Holds (array.list inner) target)
    (array_holds : array.Holds Field.dependencies.label inner) :
    (place.source (array.list inner)).targetDependencies? target =
      some ((place.arrayFrame array).span inner) := by
  have start : place.start + place.head.length + (Row.flat array.front).length +
      array.padding.length + array.head.length + 1 = (place.arrayFrame array).front.length + 1 := by
    simp only [TargetPlace.start, arrayFrame, List.length_append, List.length_cons]
    omega
  rw [Source.targetDependencies?, holds.arguments,
    Source.argumentArray?_of_holds array_holds (place.shows_list _) rfl, start]
  rfl

theorem addToTarget_of_appends {place : TargetPlace} {array : ArrayPlace} {inner new : List Cell}
    {target : TargetCall} {dependency : Text} (holds : place.Holds (array.list inner) target)
    (array_holds : array.Holds Field.dependencies.label inner)
    (orderly : (place.source (array.list inner)).Orderly)
    (inside : target ∈ (place.source (array.list inner)).targetCalls)
    (appends : ((place.arrayFrame array).fill inner).appendElement
      ((place.arrayFrame array).span inner)
      (chars (literalCells dependency)) .inline = ((place.arrayFrame array).fill new).text) :
    Edit.addToTarget (place.source (array.list inner)).text target.name dependency =
      .ok (place.source (array.list new)).text := by
  rw [place.fill_arrayFrame, place.fill_arrayFrame, chars_literalCells] at appends
  rw [orderly.sound.addToTarget_of_found (orderly.findTarget_of_mem inside),
    place.targetDependencies?_of_holds holds array_holds]
  exact congrArg Except.ok appends

end TargetPlace

end SwiftWorkspace
