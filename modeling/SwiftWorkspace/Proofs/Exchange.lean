import SwiftWorkspace.Proofs.Orderly

/-!
# Exchanging the dependencies of a target

When what is inside of the array of a target's dependencies is exchanged, or the
argument list of its declaration is, the target keeps its other properties, the
other targets keep all of theirs, and so do the other arrays.
-/

namespace SwiftWorkspace

open Kind (Clear)

theorem Row.Valid.exchange {front back : List (List Cell × List Cell)}
    {padding piece rest : List Cell}
    (valid : Row.Valid ⟨front ++ (padding, piece) :: back, rest⟩) {other : List Cell}
    (solid : Solid other) : Row.Valid ⟨front ++ (padding, other) :: back, rest⟩ := by
  refine ⟨fun entry member => ?_, fun entry member => ?_, fun entry member => ?_, valid.rest⟩
  · rcases List.mem_append.mp member with before | after
    · exact valid.solid entry (by simp [before])
    · rcases List.mem_cons.mp after with rfl | behind
      · exact solid
      · exact valid.solid entry (by simp [behind])
  · rcases List.mem_append.mp member with before | after
    · exact valid.padding entry (by simp [before])
    · rcases List.mem_cons.mp after with rfl | behind
      · exact valid.padding (padding, piece) (by simp)
      · exact valid.padding entry (by simp [behind])
  · cases front with
    | nil => exact valid.parted entry member
    | cons first front =>
        have parted := valid.parted
        simp only [List.cons_append, List.tail_cons, List.mem_append,
          List.mem_cons] at parted member
        rcases member with before | rfl | behind
        · exact parted entry (.inl before)
        · exact parted (padding, piece) (.inr (.inl rfl))
        · exact parted entry (.inr (.inr behind))

theorem Cell.plain_of_isTrivia {cell : Cell} (trivial : cell.isTrivia) :
    cell.opens? = none ∧ cell.closes? = none ∧ cell.isComma = false := by
  obtain ⟨noOpening, noClosing⟩ := noBrackets_of_isTrivia trivial
  refine ⟨noOpening, noClosing, ?_⟩
  obtain ⟨char, kind⟩ := cell
  cases comma : isComma ⟨char, kind⟩ with
  | false => rfl
  | true =>
      simp only [isComma, isCodeChar, isCode, Bool.and_eq_true, decide_eq_true_eq] at comma
      obtain ⟨rfl, rfl⟩ := comma
      revert trivial
      decide

theorem Cell.plain_of_isIdentifierChar {cell : Cell} (word : Source.isIdentifierChar cell.char) :
    cell.opens? = none ∧ cell.closes? = none ∧ cell.isComma = false := by
  obtain ⟨noOpening, noClosing⟩ := noBrackets_of_isIdentifierChar word
  refine ⟨noOpening, noClosing, ?_⟩
  obtain ⟨char, kind⟩ := cell
  cases comma : isComma ⟨char, kind⟩ with
  | false => rfl
  | true =>
      simp only [isComma, isCodeChar, isCode, Bool.and_eq_true, decide_eq_true_eq] at comma
      obtain ⟨rfl, rfl⟩ := comma
      revert word
      decide

/-- A call stays an element when its argument list is exchanged. -/
theorem IsCall.solid_exchange {piece head inner tail other : List Cell} {keyword : Text}
    (call : IsCall piece keyword head inner tail) (solid : Solid piece)
    (balanced : Balanced other) : Solid (head ++ (other ++ tail)) := by
  obtain ⟨rfl, inside, dot, word, trivia, opening, closing, rest, rfl, rfl, isDot, identifier, -,
    trivial, -, pairs⟩ := call
  have whole (list : List Cell) :
      dot :: (word ++ (trivia ++ [opening])) ++ (list ++ closing :: rest) =
      (dot :: (word ++ trivia)) ++ opening :: (list ++ closing :: rest) := by simp
  rw [whole] at solid ⊢
  refine solid.exchange (.of_plain fun cell member => ?_) pairs inside balanced
  simp only [List.mem_cons, List.mem_append] at member
  rcases member with rfl | member | member
  · obtain ⟨char, kind⟩ := cell
    simp only [Cell.isCodeChar, Cell.isCode, Bool.and_eq_true, decide_eq_true_eq] at isDot
    obtain ⟨rfl, rfl⟩ := isDot
    decide
  · exact Cell.plain_of_isIdentifierChar (identifier.inside cell member)
  · exact Cell.plain_of_isTrivia (trivial cell member)

/-- There are no commas and no brackets in front of the value of an argument. -/
theorem IsLabeled.unbroken_head {piece head value : List Cell} {label : Text}
    (labeled : IsLabeled piece label head value) : Unbroken head := by
  obtain ⟨word, trivia, colon, gap, rfl, identifier, -, trivial, isColon, gap_trivial⟩ :=
    labeled.headed
  refine .of_plain fun cell member => ?_
  simp only [List.mem_append, List.mem_cons] at member
  rcases member with member | member | rfl | member
  · exact Cell.plain_of_isIdentifierChar (identifier.inside cell member)
  · exact Cell.plain_of_isTrivia (trivial cell member)
  · obtain ⟨char, kind⟩ := cell
    simp only [Cell.isCodeChar, Cell.isCode, Bool.and_eq_true, decide_eq_true_eq] at isColon
    obtain ⟨rfl, rfl⟩ := isColon
    decide
  · exact Cell.plain_of_isTrivia (gap_trivial cell member)

namespace ArrayPlace

variable (array : ArrayPlace) {label : Text} {inner new : List Cell}

/-- The array stays that of the argument when its inside is exchanged. -/
theorem Holds.exchange {array : ArrayPlace} (holds : array.Holds label inner)
    (balanced : Balanced new) : array.Holds label new := by
  refine ⟨?_, holds.first, ?_, holds.square, balanced⟩
  · refine holds.valid.exchange ?_
    exact (holds.valid.solid (array.padding, array.head ++ array.value inner)
      (by simp [row])).exchange holds.labeled.unbroken_head array.pairs holds.inside balanced
  · exact holds.labeled.exchange fun cell found => by
      obtain rfl : array.opening = cell := by simpa [value] using found
      exact array.pairs.isTrivia_opening

def frame : Frame where
  front := Row.flat array.front ++ (array.padding ++ array.head)
  opening := array.opening
  closing := array.closing
  back := array.tail ++ (Row.flat array.back ++ array.rest)
  pairs := array.pairs

theorem fill_frame (inner : List Cell) : (array.frame.fill inner).cells = array.list inner := by
  simp [frame, Frame.fill, list, row, value, Row.cells]

theorem valueIn?_self (holds : array.Holds label inner) :
    Source.valueIn? label (array.list inner) = some (array.value inner) := by
  have front : (array.front.map fun entry => Source.argumentParts entry.2).find?
      (·.1 = some label) = none := by
    rw [List.find?_eq_none]
    intro parts member
    obtain ⟨entry, inside, rfl⟩ := List.mem_map.mp member
    simpa using holds.first entry inside
  have pieces := Source.piecesOf_row holds.valid
  rw [Source.valueIn?, list, pieces, Row.pieces, row]
  simp [List.map_append, Function.comp_def, front,
    Source.argumentParts_of_isLabeled holds.labeled]

theorem valueIn?_other (holds : array.Holds label inner) (balanced : Balanced new) {other : Text}
    (differs : other ≠ label) :
    Source.valueIn? other (array.list new) = Source.valueIn? other (array.list inner) := by
  have whole {inside : List Cell} (holds : array.Holds label inside) :
      Source.valueIn? other (array.list inside) =
        (((array.front.map fun entry => Source.argumentParts entry.2) ++
          array.back.map fun entry => Source.argumentParts entry.2).find?
            (·.1 = some other)).map (·.2) := by
    have pieces := Source.piecesOf_row holds.valid
    rw [Source.valueIn?, list, pieces, Row.pieces, row]
    simp [List.map_append, Function.comp_def, List.find?_append,
      Source.argumentParts_of_isLabeled holds.labeled, Ne.symm differs]
  rw [whole holds, whole (holds.exchange balanced)]

theorem formFrom?_exchange (holds : array.Holds Field.dependencies.label inner)
    (balanced : Balanced new) (keyword : Text) :
    Source.formFrom? keyword (array.list new) =
      (Source.formFrom? keyword (array.list inner)).map fun form =>
        { form with dependencies := some new } := by
  have holds' := holds.exchange balanced
  have name : Source.valueIn? Field.name.label (array.list new) = _ :=
    array.valueIn?_other holds balanced (by decide)
  have path : Source.valueIn? "path".toList (array.list new) = _ :=
    array.valueIn?_other holds balanced (by decide)
  simp only [Source.formFrom?, Source.stringValue?, Source.arrayValue?, name, path,
    array.valueIn?_self holds, array.valueIn?_self holds', Option.isSome_some, Option.bind_some,
    Source.arrayPart?_of_isArray (array.isArray holds),
      Source.arrayPart?_of_isArray (array.isArray holds')]
  simp only [TargetForm.of?]
  cases TargetKind.ofKeyword? keyword with
  | none => rfl
  | some kind =>
      cases filled? ((Source.valueIn? Field.name.label (array.list inner)).bind
        (Source.read Source.stringIn?)) <;> rfl

end ArrayPlace

def updateForm (name : Text) (update : TargetForm → TargetForm) (forms : List TargetForm) :
    List TargetForm :=
  forms.map fun form => if form.name = name then update form else form

theorem updateForm_middle {front back : List TargetForm} {form : TargetForm}
    {update : TargetForm → TargetForm}
    (distinct : ((front ++ form :: back).map TargetForm.name).Nodup) :
    updateForm form.name update (front ++ form :: back) = front ++ update form :: back := by
  have differs : ∀ other ∈ front ++ back, other.name ≠ form.name := by
    rw [List.map_append, List.map_cons, List.nodup_append, List.nodup_cons] at distinct
    obtain ⟨-, ⟨behind, -⟩, before⟩ := distinct
    intro other member same
    rcases List.mem_append.mp member with inside | inside
    · exact before other.name (List.mem_map_of_mem inside) form.name (by simp) same
    · exact behind (same ▸ List.mem_map_of_mem inside)
  have stays {forms : List TargetForm} (others : ∀ other ∈ forms, other.name ≠ form.name) :
      updateForm form.name update forms = forms := by
    conv => rhs; rw [← List.map_id forms]
    exact List.map_congr_left fun other member => if_neg (others other member)
  rw [updateForm, List.map_append, List.map_cons, if_pos rfl]
  congr 1
  · exact stays fun other member => differs other (by simp [member])
  · congr 1
    exact stays fun other member => differs other (by simp [member])

namespace TargetPlace

variable (place : TargetPlace) {list other : List Cell} {target : TargetCall}

theorem forms_row {form : TargetForm} (valid : (place.row list).Valid)
    (here : Source.read Source.formIn? (place.piece list) = some form) :
    Outline.elements Source.formIn? (some (place.row list).cells) =
      (place.front.filterMap fun entry => Source.read Source.formIn? entry.2) ++
        form :: place.back.filterMap fun entry => Source.read Source.formIn? entry.2 := by
  rw [Outline.elements, Option.map_some, Option.getD_some, Source.piecesOf_row valid,
    Row.pieces, row]
  rw [List.map_append, List.map_cons, List.filterMap_append, List.filterMap_cons_some here,
    List.filterMap_map, List.filterMap_map]
  rfl

/-- The array of targets is milder when an argument list is. -/
theorem milder_row {field : Field} {keyword : Text} (valid : (place.row list).Valid)
    (clear : Clear (place.row list).cells) (other_valid : (place.row other).Valid)
    (other_clear : Clear (place.row other).cells)
    (call : IsCall (place.piece list) keyword place.head list place.tail)
    (balanced : Balanced other) (milder : Milder field list other) :
    Milder field (place.row list).cells (place.row other).cells := by
  obtain ⟨-, inside, dot, word, trivia, opening, closing, rest, head, tail, -, -, -, -, -, pairs⟩ :=
    call
  have framed (list : List Cell) : place.piece list =
      (Frame.fill ⟨dot :: (word ++ trivia), opening, closing, rest, pairs⟩ list).cells := by
    simp [piece, head, tail, Frame.fill]
  refine .of_rows valid (valid.seamed clear) other_valid (other_valid.seamed other_clear)
    fun piece member => .inl ?_
  have parts : piece = place.piece other ∨ piece ∈ (place.row list).pieces := by
    simp only [Row.pieces, row, List.map_append, List.map_cons, List.mem_append, List.mem_cons] at *
    rcases member with before | here | behind
    · exact .inr (.inl before)
    · exact .inl here
    · exact .inr (.inr (.inr behind))
  rcases parts with rfl | old
  · refine ⟨place.piece list, by simp [Row.pieces, row], ?_⟩
    rw [framed, framed]
    exact Frame.milder_fill _ inside balanced milder
  · exact ⟨piece, old, .refl field piece⟩

/-- When the argument list of a target is exchanged, all other targets and arrays stay. -/
theorem exchange (holds : place.Holds list target) (orderly : (place.source list).Orderly)
    (balanced : Balanced other) (sound : (place.source other).Sound)
    (milder : ∀ field, field ≠ .dependencies → Milder field list other)
    {update : TargetForm → TargetForm} (named : ∀ form, (update form).name = form.name)
    (form : Source.formFrom? target.call.keyword other =
      (Source.formFrom? target.call.keyword list).map update) :
    (place.source list).Follows (place.source other) ∧
      (place.source other).targetsSpan? = some (place.frame.span (place.row other).cells) ∧
      (place.source other).outline =
        { (place.source list).outline with targets := some (place.row other).cells } ∧
      (place.source other).outline.forms =
        updateForm target.name update (place.source list).outline.forms := by
  have solid := holds.call.solid_exchange (holds.valid.solid (place.padding, place.piece list)
    (by simp [row])) balanced
  have valid : (place.row other).Valid := holds.valid.exchange solid
  have call := holds.call.exchange balanced
  have old_form := holds.form
  rw [Source.read_formIn?_of_isCall holds.call] at old_form
  have new_form : Source.read Source.formIn? (place.piece other) =
      some (update ((place.source list).formOf target)) := by
    rw [piece, Source.read_formIn?_of_isCall call, form, old_form, Option.map_some]
  have old_forms := place.forms_row holds.valid holds.form
  have new_forms := place.forms_row valid new_form
  have outline : (place.source list).outline.targets = some (place.row list).cells := by
    rw [Source.outline, holds.located]
    exact congrArg some (place.frame.cellsIn_span _)
  have distinct := orderly.distinct
  rw [Outline.forms, outline, old_forms] at distinct
  have forms : Outline.elements Source.formIn? (some (place.row other).cells) =
      updateForm target.name update (place.source list).outline.forms := by
    rw [Outline.forms, outline, old_forms, new_forms]
    exact (updateForm_middle distinct).symm
  have names : (Outline.elements Source.formIn? (some (place.row other).cells)).map
      TargetForm.name = (place.source list).outline.forms.map TargetForm.name := by
    rw [Outline.forms, outline, old_forms, new_forms]
    simp [named]
  have more : ∀ field, field ≠ .dependencies →
      Milder field (place.row list).cells (place.row other).cells := fun field differs =>
    place.milder_row holds.valid (place.frame.clear_of_sound orderly.sound) valid
      (place.frame.clear_of_sound sound) holds.call balanced (milder field differs)
  obtain ⟨result, located, whole⟩ := place.frame.orderly_fill_targets orderly holds.valid.balanced
    valid.balanced (place.frame.clear_of_sound sound) more holds.located (by
      rw [names]
      exact orderly.distinct)
  refine ⟨result, located, whole, ?_⟩
  rw [source, whole]
  exact forms

/-- When the inside of the array of a target's dependencies is exchanged, only that changes. -/
theorem exchange_array {array : ArrayPlace} {inner new : List Cell}
    (holds : place.Holds (array.list inner) target)
    (array_holds : array.Holds Field.dependencies.label inner)
    (orderly : (place.source (array.list inner)).Orderly) (balanced : Balanced new)
    (clear : Clear new) (milder : ∀ field, field ≠ .dependencies → Milder field inner new) :
    (place.source (array.list inner)).Follows (place.source (array.list new)) ∧
      (place.source (array.list new)).targetsSpan? =
        some (place.frame.span (place.row (array.list new)).cells) ∧
      (place.source (array.list new)).outline =
        { (place.source (array.list inner)).outline with
          targets := some (place.row (array.list new)).cells } ∧
      (place.source (array.list new)).outline.forms =
        updateForm target.name (fun form => { form with dependencies := some new })
          (place.source (array.list inner)).outline.forms := by
  have list_balanced : Balanced (array.list new) := (array_holds.exchange balanced).valid.balanced
  have sound := orderly.sound
  rw [← place.fill_arrayFrame array] at sound
  have sound := (place.arrayFrame array).sound_fill sound clear
  rw [place.fill_arrayFrame array] at sound
  refine place.exchange holds orderly list_balanced sound (fun field differs => ?_) (fun _ => rfl)
    (array.formFrom?_exchange array_holds balanced target.call.keyword)
  rw [← array.fill_frame, ← array.fill_frame]
  exact array.frame.milder_fill array_holds.inside balanced (milder field differs)

end TargetPlace

end SwiftWorkspace
