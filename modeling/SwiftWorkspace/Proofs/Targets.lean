import SwiftWorkspace.Proofs.Outline

/-!
# Declarations of targets

A target is declared by a call in the array of targets, and its dependencies are
the array of an argument of that call.  When the arguments are exchanged, the
form of this target changes, and those of the others stay.
-/

namespace SwiftWorkspace

/-- A source around the argument list of a target's declaration. -/
structure TargetPlace where
  frame : Frame
  front : List (List Cell × List Cell)
  padding : List Cell
  head : List Cell
  tail : List Cell
  back : List (List Cell × List Cell)
  rest : List Cell

namespace TargetPlace

variable (place : TargetPlace)

def piece (list : List Cell) : List Cell := place.head ++ (list ++ place.tail)

def row (list : List Cell) : Row :=
  ⟨place.front ++ (place.padding, place.piece list) :: place.back, place.rest⟩

def source (list : List Cell) : Source := place.frame.fill (place.row list).cells

/-- Where the declaration begins. -/
def start : Nat :=
  place.frame.front.length + 1 + (Row.flat place.front).length + place.padding.length

structure Holds (list : List Cell) (target : TargetCall) : Prop where
  located : (place.source list).targetsSpan? = some (place.frame.span (place.row list).cells)
  valid : (place.row list).Valid
  call : IsCall (place.piece list) target.call.keyword place.head list place.tail
  form : Source.read Source.formIn? (place.piece list) = some ((place.source list).formOf target)
  arguments : target.call.arguments =
    ⟨place.start + place.head.length, place.start + place.head.length + list.length⟩

theorem shows_piece (list : List Cell) : (place.source list).Shows place.start (place.piece list) :=
  (place.frame.shows_fill (place.row list).cells).entry

theorem shows_list (list : List Cell) :
    (place.source list).Shows (place.start + place.head.length) list :=
  (place.shows_piece list).right.left

end TargetPlace

namespace Source

theorem exists_place {source : Source} {target : TargetCall}
    (member : target ∈ source.targetCalls) :
    ∃ (place : TargetPlace) (list : List Cell), source = place.source list ∧
      place.Holds list target := by
  rw [targetCalls] at member
  cases located : source.targetsSpan? with
  | none => simp [located] at member
  | some span =>
      simp only [located] at member
      obtain ⟨frame, inner, rfl, balanced, rfl⟩ := exists_frame located
      obtain ⟨⟨entries, rest⟩, valid, rfl⟩ := Row.exists_of_balanced balanced
      obtain ⟨element, inside, found⟩ := List.mem_filterMap.mp member
      have elements := elements_row valid (frame.shows_fill _)
      rw [Frame.span, elements] at inside
      obtain ⟨before, behind, split⟩ := List.append_of_mem inside
      obtain ⟨front, padding, piece, back, all, -, start, whole⟩ := Row.spansFrom_eq_append split
      obtain rfl : entries = front ++ (padding, piece) :: back := all
      have shown : (frame.fill (Row.cells ⟨front ++ (padding, piece) :: back, rest⟩)).Shows
          element.start piece := start ▸ (frame.shows_fill _).entry
      have balanced := (valid.solid (padding, piece) (by simp)).unbroken.balanced
      have form := local_formIn? _ element.start piece balanced shown
      rw [← whole, formIn?, found, Option.map_some] at form
      have parts := found
      rw [targetCallOf?, whole] at parts
      obtain ⟨call, calls, more⟩ := Option.bind_eq_some_iff.mp parts
      obtain ⟨kind, -, more⟩ := Option.bind_eq_some_iff.mp more
      obtain ⟨name, -, more⟩ := Option.bind_eq_some_iff.mp more
      obtain rfl := Option.some.inj more
      obtain ⟨head, list, tail, shape, -, arguments⟩ := callIn?_eq_some shown calls
      obtain rfl := shape.whole
      refine ⟨⟨frame, front, padding, head, tail, back, rest⟩, list, rfl,
        ⟨located, valid, shape, form.symm, ?_⟩⟩
      rw [arguments, start]
      rfl

end Source

/-- An argument list around the inside of the array of one of its arguments. -/
structure ArrayPlace where
  front : List (List Cell × List Cell)
  padding : List Cell
  head : List Cell
  opening : Cell
  closing : Cell
  tail : List Cell
  back : List (List Cell × List Cell)
  rest : List Cell
  pairs : Pairs opening closing

namespace ArrayPlace

variable (array : ArrayPlace)

def value (inner : List Cell) : List Cell :=
  array.opening :: (inner ++ array.closing :: array.tail)

def row (inner : List Cell) : Row :=
  ⟨array.front ++ (array.padding, array.head ++ array.value inner) :: array.back, array.rest⟩

def list (inner : List Cell) : List Cell := (array.row inner).cells

structure Holds (label : Text) (inner : List Cell) : Prop where
  valid : (array.row inner).Valid
  first : ∀ entry ∈ array.front, (Source.argumentParts entry.2).1 ≠ some label
  labeled : IsLabeled (array.head ++ array.value inner) label array.head (array.value inner)
  square : array.opening.char = '['
  inside : Balanced inner

theorem isArray {label : Text} {inner : List Cell} (holds : array.Holds label inner) :
    IsArray (array.value inner) inner (array.closing :: array.tail) :=
  ⟨holds.inside, array.opening, array.closing, array.tail, rfl, rfl, holds.square, array.pairs⟩

end ArrayPlace

namespace Source

theorem argumentArray?_eq_some {row : Row} (valid : row.Valid) {source : Source} {position : Nat}
    (stands : source.Shows position row.cells) {label : Text} {span : Span}
    (found : source.argumentArray? ⟨position, position + row.cells.length⟩ label = some span) :
    ∃ (array : ArrayPlace) (inner : List Cell), row = array.row inner ∧ array.Holds label inner ∧
      span.start = position + (Row.flat array.front).length + array.padding.length +
        array.head.length + 1 ∧
      span = ⟨span.start, span.start + inner.length⟩ := by
  rw [argumentArray?] at found
  obtain ⟨value, labeled, opens⟩ := Option.bind_eq_some_iff.mp found
  obtain ⟨argument, first, rfl⟩ := Option.map_eq_some_iff.mp labeled
  obtain ⟨front, padding, head, value, back, start, entries, rfl, others, shape, whole, -⟩ :=
    labeledArgument?_eq_some valid stands first
  obtain ⟨all, rest⟩ := row
  obtain rfl : all = front ++ (padding, head ++ value) :: back := entries
  rw [whole] at opens
  have piece_balanced := (valid.solid (padding, head ++ value) (by simp)).unbroken.balanced
  obtain ⟨inner, tail, array, rfl⟩ := arrayOf?_eq_some (shape.balanced_value piece_balanced)
    (shape.stands stands.entry) opens
  obtain ⟨inside, opening, closing, tail, rfl, rfl, square, pairs⟩ := array
  exact ⟨⟨front, padding, head, opening, closing, tail, back, rest, pairs⟩, inner, rfl,
    ⟨valid, others, shape, square, inside⟩, rfl, rfl⟩

theorem argumentArray?_of_holds {array : ArrayPlace} {label : Text} {inner : List Cell}
    (holds : array.Holds label inner) {source : Source} {position : Nat}
    (stands : source.Shows position (array.list inner)) {start : Nat}
    (place : start = position + (Row.flat array.front).length + array.padding.length +
      array.head.length + 1) :
    source.argumentArray? ⟨position, position + (array.list inner).length⟩ label =
      some ⟨start, start + inner.length⟩ := by
  have found : source.labeledArgument? ⟨position, position + (array.list inner).length⟩
      label = some _ :=
    labeledArgument?_of_first holds.valid holds.first holds.labeled stands rfl
  rw [argumentArray?, labeledValue?, found, place]
  exact arrayOf?_of_isArray (array.isArray holds) (holds.labeled.stands (Shows.entry stands))

end Source

namespace TargetPlace

variable (place : TargetPlace) (array : ArrayPlace)

def arrayFrame : Frame where
  front := place.frame.front ++ place.frame.opening :: (Row.flat place.front ++ (place.padding ++
    (place.head ++ (Row.flat array.front ++ (array.padding ++ array.head)))))
  opening := array.opening
  closing := array.closing
  back := array.tail ++ (Row.flat array.back ++ (array.rest ++ (place.tail ++
    (Row.flat place.back ++ (place.rest ++ place.frame.closing :: place.frame.back)))))
  pairs := array.pairs

theorem fill_arrayFrame (inner : List Cell) :
    (place.arrayFrame array).fill inner = place.source (array.list inner) := by
  simp [arrayFrame, Frame.fill, source, row, piece, ArrayPlace.list, ArrayPlace.row,
    ArrayPlace.value, Row.cells]

end TargetPlace

namespace Source

theorem mem_of_findTarget {source : Source} {target : TargetCall} {name : Text}
    (found : source.findTarget name = .ok target) : target ∈ source.targetCalls := by
  rw [findTarget] at found
  split at found
  case h_1 search => exact Except.ok.inj found ▸ List.mem_of_find?_eq_some search
  case h_2 => cases found

/-- The array of a target's dependencies stands at some place of its declaration. -/
theorem exists_dependencies {source : Source} {target : TargetCall} {span : Span}
    (member : target ∈ source.targetCalls) (found : source.targetDependencies? target = some span) :
    ∃ (place : TargetPlace) (array : ArrayPlace) (inner : List Cell),
      source = place.source (array.list inner) ∧ place.Holds (array.list inner) target ∧
        array.Holds Field.dependencies.label inner ∧
        span = (place.arrayFrame array).span inner := by
  obtain ⟨place, list, rfl, holds⟩ := exists_place member
  obtain ⟨row, valid, rfl⟩ := Row.exists_of_balanced holds.call.inside
  rw [targetDependencies?, holds.arguments] at found
  obtain ⟨array, inner, rfl, fits, start, whole⟩ :=
    argumentArray?_eq_some valid (place.shows_list _) found
  refine ⟨place, array, inner, rfl, holds, fits, ?_⟩
  have position : span.start = (place.arrayFrame array).front.length + 1 := by
    simp only [start, TargetPlace.start, TargetPlace.arrayFrame, List.length_append,
      List.length_cons]
    omega
  rw [whole, position]
  rfl

/-- What a query says about a target's dependencies is known from the target's form. -/
theorem map_dependencies {β : Type} {query : Source → Span → β} (loc : Local query)
    {source : Source} {target : TargetCall} {span : Span} (member : target ∈ source.targetCalls)
    (found : source.targetDependencies? target = some span) :
    (source.elements span).map (query source) =
      (source.formOf target).pieces.map (read query) := by
  have pieces : (source.formOf target).pieces = piecesOf (source.cellsIn span) := by
    rw [TargetForm.pieces, formOf, found]
    rfl
  obtain ⟨place, array, inner, rfl, -, holds, rfl⟩ := exists_dependencies member found
  rw [pieces, ← place.fill_arrayFrame array]
  have stands := (place.arrayFrame array).shows_fill inner
  have cells : ((place.arrayFrame array).fill inner).cellsIn ((place.arrayFrame array).span inner) =
      inner := stands.cellsIn
  rw [cells]
  exact loc.elements holds.inside stands

theorem pieces_of_no_dependencies {source : Source} {target : TargetCall}
    (missing : source.targetDependencies? target = none) : (source.formOf target).pieces = [] := by
  rw [TargetForm.pieces, formOf, missing]
  rfl

/-- The same of the elements that a target has, which are none without an array. -/
theorem map_referenceElements {β : Type} {query : Source → Span → β} (loc : Local query)
    {source : Source} {target : TargetCall} (member : target ∈ source.targetCalls) :
    (source.referenceElements target).map (query source) =
      (source.formOf target).pieces.map (read query) := by
  rw [referenceElements]
  cases found : source.targetDependencies? target with
  | none => rw [pieces_of_no_dependencies found]; rfl
  | some span => exact map_dependencies loc member found

theorem countP_referenceElements {holds : Source → Span → Bool} (loc : Local holds)
    {source : Source} {target : TargetCall} (member : target ∈ source.targetCalls) :
    (source.referenceElements target).countP (holds source) =
      (source.formOf target).pieces.countP (read holds) := by
  have each := congrArg (List.countP id) (map_referenceElements loc member)
  simpa only [List.countP_map, Function.id_comp] using each

theorem targetOf_eq {source : Source} {target : TargetCall} (member : target ∈ source.targetCalls) :
    source.targetOf target = (source.formOf target).target := by
  have strings : (source.targetOf target).dependencies =
      (source.formOf target).pieces.filterMap (read stringIn?) := by
    have each := congrArg (List.filterMap id) (map_referenceElements local_stringIn? member)
    simp only [List.filterMap_map, Function.id_comp] at each
    rw [← each, targetOf, referenceElements]
    cases source.targetDependencies? target <;> rfl
  rw [TargetForm.target, ← strings]
  rfl

def referencesIn (source : Source) (name : Text) (target : TargetCall) : Nat :=
  match source.targetDependencies? target with
  | none => 0
  | some array => (source.elements array).countP (source.refersTo name)

theorem usageCount_eq_sum (source : Source) (name : Text) :
    source.usageCount name = (source.targetCalls.map (source.referencesIn name)).sum := by
  rw [usageCount, List.countP_flatMap]
  refine congrArg List.sum (List.map_congr_left fun target _ => ?_)
  rw [Function.comp_apply, referenceElements, referencesIn]
  cases source.targetDependencies? target <;> rfl

theorem usageCount_formOf {source : Source} {target : TargetCall}
    (member : target ∈ source.targetCalls) (name : Text) :
    (source.formOf target).usageCount name = source.referencesIn name target := by
  rw [TargetForm.usageCount, ← countP_referenceElements (local_refersTo name) member,
    referenceElements, referencesIn]
  cases source.targetDependencies? target <;> rfl

/-- How often a name is referred to is known from the outline. -/
theorem usageCount_outline (source : Source) (name : Text) :
    source.usageCount name = source.outline.usageCount name := by
  rw [usageCount_eq_sum, Outline.usageCount, forms_outline, List.map_map]
  exact congrArg List.sum (List.map_congr_left fun _ member =>
    (usageCount_formOf member name).symm)

theorem manifest_outline (source : Source) :
    Manifest.ofSource source = source.outline.manifest source.packageName := by
  have targets : source.targets = source.outline.forms.map TargetForm.target := by
    rw [targets, forms_outline, List.map_map]
    exact List.map_congr_left fun target member => targetOf_eq member
  have dependencies : source.dependencies =
      Outline.elements dependencyIn? source.outline.dependencies := by
    rw [dependencies, outline]
    cases found : source.dependenciesSpan? with
    | none => rfl
    | some span => exact filterMap_elements local_dependencyIn? found
  have products : source.products = Outline.elements productIn? source.outline.products := by
    rw [products, outline]
    cases found : source.productsSpan? with
    | none => rfl
    | some span => exact filterMap_elements local_productIn? found
  have platforms : source.platforms? = (source.outline.manifest source.packageName).platforms := by
    rw [platforms?, Outline.manifest, outline]
    cases found : source.platformsSpan? with
    | none => rfl
    | some span =>
        have each := filterMap_elements local_platformIn? found
        simp only [Option.map_some, Option.getD_some, Option.bind_eq_bind, Option.bind_some,
          Outline.elements, each]
        rfl
  rw [Manifest.ofSource, targets, dependencies, products, platforms]
  rfl

end Source

end SwiftWorkspace
