import SwiftWorkspace.Proofs.Readings

/-!
# Parts of elements

A call has a keyword and an argument list, an argument a label and a value, an
array its inside.  What a query says about an element that is such a shape is
what it says about the parts.
-/

namespace SwiftWorkspace

namespace Source

variable {piece head inner value tail : List Cell} {keyword label : Text}

def callParts? (piece : List Cell) : Option (Text × List Cell) :=
  read (fun source span =>
    (source.callIn? span).map fun call => (call.keyword, source.cellsIn call.arguments)) piece

def argumentParts (piece : List Cell) : Option Text × List Cell :=
  read (fun source span =>
    ((source.argumentOf span).label, source.cellsIn (source.argumentOf span).value)) piece

def arrayPart? (value : List Cell) : Option (List Cell) :=
  read (fun source span => (source.arrayOf? span).map source.cellsIn) value

def valueIn? (label : Text) (list : List Cell) : Option (List Cell) :=
  (((piecesOf list).map argumentParts).find? (·.1 = some label)).map (·.2)

theorem callParts?_of_isCall (call : IsCall piece keyword head inner tail) :
    callParts? piece = some (keyword, inner) := by
  have found := callIn?_of_isCall call (shows_alone piece)
  have cells := (call.stands (shows_alone piece)).cellsIn
  rw [Nat.zero_add] at found
  simp only [callParts?, read, found, Option.map_some, cells]

theorem argumentParts_of_isLabeled (labeled : IsLabeled piece label head value) :
    argumentParts piece = (some label, value) := by
  have found := argumentOf_of_isLabeled labeled (shows_alone piece)
  have cells := (labeled.stands (shows_alone piece)).cellsIn
  rw [Nat.zero_add] at found
  simp only [argumentParts, read, found, cells]

theorem argumentParts_of_not_isLabeled
    (unlabeled : ¬∃ label head value, IsLabeled piece label head value) :
    argumentParts piece = (none, piece) := by
  have found := argumentOf_of_not_isLabeled unlabeled (shows_alone piece)
  have cells := (shows_alone piece).cellsIn
  rw [Nat.zero_add] at found cells
  simp only [argumentParts, read, found, cells]

theorem exists_isLabeled (found : (argumentParts piece).1 = some label) :
    ∃ head value, IsLabeled piece label head value := by
  by_cases labeled : ∃ label head value, IsLabeled piece label head value
  · obtain ⟨other, head, value, labeled⟩ := labeled
    rw [argumentParts_of_isLabeled labeled] at found
    obtain rfl : other = label := by simpa using found
    exact ⟨head, value, labeled⟩
  · rw [argumentParts_of_not_isLabeled labeled] at found
    cases found

theorem arrayPart?_of_isArray (array : IsArray value inner tail) :
    arrayPart? value = some inner := by
  have found := arrayOf?_of_isArray array (shows_alone value)
  have cells := (array.stands (shows_alone value)).cellsIn
  rw [Nat.zero_add] at found
  rw [Nat.zero_add] at found
  rw [Nat.zero_add] at cells
  simp only [arrayPart?, read, found, Option.map_some, cells]

theorem exists_isCall {list : List Cell} (found : callParts? piece = some (keyword, list)) :
    ∃ head tail, IsCall piece keyword head list tail := by
  by_cases shape : ∃ keyword head inner tail, IsCall piece keyword head inner tail
  · obtain ⟨other, head, inner, tail, call⟩ := shape
    rw [callParts?_of_isCall call] at found
    obtain ⟨rfl, rfl⟩ : other = keyword ∧ inner = list := by simpa using found
    exact ⟨head, tail, call⟩
  · have missing := callIn?_eq_none shape (shows_alone piece)
    rw [Nat.zero_add] at missing
    simp [callParts?, read, missing] at found

section Reading

variable {β : Type}

theorem read_onCall {query : Text → Source → Span → β} (loc : ∀ keyword, Local (query keyword))
    (piece : List Cell) :
    read (fun source span =>
        (source.callIn? span).map fun call => query call.keyword source call.arguments) piece =
      (callParts? piece).map fun parts => read (query parts.1) parts.2 := by
  by_cases shape : ∃ keyword head inner tail, IsCall piece keyword head inner tail
  · obtain ⟨keyword, head, inner, tail, call⟩ := shape
    have found := callIn?_of_isCall call (shows_alone piece)
    have inside := loc keyword _ _ inner call.inside (call.stands (shows_alone piece))
    rw [Nat.zero_add] at found
    simp only [callParts?_of_isCall call, read, found, Option.map_some]
    exact congrArg some inside
  · have missing := callIn?_eq_none shape (shows_alone piece)
    rw [Nat.zero_add] at missing
    simp only [callParts?, read, missing, Option.map_none]

theorem read_onArgument {query : Option Text → Source → Span → β}
    (loc : ∀ label, Local (query label)) (balanced : Balanced piece) :
    read (fun source span =>
        query (source.argumentOf span).label source (source.argumentOf span).value) piece =
      read (query (argumentParts piece).1) (argumentParts piece).2 := by
  by_cases labeled : ∃ label head value, IsLabeled piece label head value
  · obtain ⟨label, head, value, labeled⟩ := labeled
    have found := argumentOf_of_isLabeled labeled (shows_alone piece)
    have inside := loc label _ _ value (labeled.balanced_value balanced)
      (labeled.stands (shows_alone piece))
    rw [Nat.zero_add] at found
    simp only [argumentParts_of_isLabeled labeled, read, found]
    exact inside
  · have found := argumentOf_of_not_isLabeled labeled (shows_alone piece)
    rw [Nat.zero_add] at found
    simp only [argumentParts_of_not_isLabeled labeled, read, found]

/-- What a query says about the value of the first argument with a label. -/
theorem read_onLabeled {query : Source → Span → β} (loc : Local query) (label : Text)
    {list : List Cell} (balanced : Balanced list) :
    read (fun source span => (source.labeledValue? span label).map (query source)) list =
      (valueIn? label list).map (read query) := by
  let labeled (label : Option Text) (source : Source) (value : Span) := (label, query source value)
  have argument : Local fun source span =>
      labeled (source.argumentOf span).label source (source.argumentOf span).value :=
    .onArgument fun label => loc.map (Prod.mk label)
  have each (piece : List Cell) (member : piece ∈ piecesOf list) :
      read (fun source span =>
          labeled (source.argumentOf span).label source (source.argumentOf span).value) piece =
        ((argumentParts piece).1, read query (argumentParts piece).2) :=
    read_onArgument (fun label => loc.map (Prod.mk label))
      (solid_of_mem_piecesOf balanced member).unbroken.balanced
  have whole := argument.elements balanced (shows_alone list)
  rw [Nat.zero_add, List.map_congr_left each] at whole
  have first := congrArg (fun found => (found.find? (·.1 = some label)).map (·.2)) whole
  simp only [List.find?_map, Option.map_map] at first
  simp only [read, labeledValue?, labeledArgument?, arguments, valueIn?, List.find?_map,
    Option.map_map]
  exact first

end Reading

def stringValue? (label : Text) (list : List Cell) : Option Text :=
  (valueIn? label list).bind (read stringIn?)

theorem read_labeledString? (label : Text) {list : List Cell} (balanced : Balanced list) :
    read (fun source span => source.labeledString? span label) list = stringValue? label list := by
  have whole := congrArg Option.join (read_onLabeled local_stringIn? label balanced)
  simp only [← Option.bind_id_eq_join, Option.bind_map, Function.id_comp, read] at whole
  exact whole

def arrayValue? (label : Text) (list : List Cell) : Option (List Cell) :=
  (valueIn? label list).bind arrayPart?

theorem read_argumentArray? (label : Text) {list : List Cell} (balanced : Balanced list) :
    read (fun source span => (source.argumentArray? span label).map source.cellsIn) list =
      arrayValue? label list := by
  have whole := congrArg Option.join (read_onLabeled local_cellsIn.onArray label balanced)
  simp only [← Option.bind_id_eq_join, Option.bind_map, Function.id_comp, read] at whole
  simp only [read, argumentArray?, Option.map_bind]
  exact whole

theorem isSome_labeledValue? (label : Text) {list : List Cell} (balanced : Balanced list) :
    read (fun source span => (source.labeledValue? span label).isSome) list =
      (valueIn? label list).isSome := by
  have whole := congrArg Option.isSome (read_onLabeled local_cellsIn label balanced)
  simpa only [read, Option.isSome_map] using whole

theorem local_label : Local fun source span => (source.argumentOf span).label :=
  Local.onArgument (fun label => (local_cellsIn.map fun _ => label))

theorem labeledArgument?_eq_some {row : Row} (valid : row.Valid) {source : Source} {position : Nat}
    (stands : source.Shows position row.cells) {argument : Argument}
    (found : source.labeledArgument? ⟨position, position + row.cells.length⟩ label =
      some argument) :
    ∃ front padding head value back start,
      row.entries = front ++ (padding, head ++ value) :: back ∧
        start = position + (Row.flat front).length + padding.length ∧
        (∀ entry ∈ front, (argumentParts entry.2).1 ≠ some label) ∧
        IsLabeled (head ++ value) label head value ∧
        argument.value = ⟨start + head.length, start + head.length + value.length⟩ ∧
        argument.span = ⟨start, start + (head ++ value).length⟩ := by
  rw [labeledArgument?, arguments, elements_row valid stands, List.find?_map] at found
  obtain ⟨span, first, rfl⟩ := Option.map_eq_some_iff.mp found
  obtain ⟨labeled, before, behind, split, others⟩ := List.find?_eq_some_iff_append.mp first
  obtain ⟨front, padding, piece, back, entries, rfl, start, whole⟩ := Row.spansFrom_eq_append split
  obtain ⟨all, rest⟩ := row
  obtain rfl : all = front ++ (padding, piece) :: back := entries
  have shown : source.Shows span.start piece := start ▸ stands.entry
  have here : (argumentParts piece).1 = some label := by
    have same := local_label source span.start piece
      (valid.solid (padding, piece) (by simp)).unbroken.balanced shown
    rw [← whole] at same
    exact same.symm.trans (by simpa using labeled)
  obtain ⟨head, value, shape⟩ := exists_isLabeled here
  have read := argumentOf_of_isLabeled shape shown
  rw [← whole] at read
  obtain rfl := shape.whole
  refine ⟨front, padding, head, value, back, span.start, rfl, start, ?_, shape, ?_, ?_⟩
  · have early : source.Shows position (Row.flat front) := by
      rw [Row.cells, Row.flat_append, List.append_assoc] at stands
      exact stands.left
    have labels := local_label.map_spans (fun entry member =>
      (valid.solid entry (by simp [member])).unbroken.balanced) early
    intro entry member same
    obtain ⟨other, inside, other_label⟩ : ∃ other ∈ Row.spansFrom position front,
        (source.argumentOf other).label = some label := by
      have : some label ∈ front.map fun entry => (argumentParts entry.2).1 :=
        List.mem_map.mpr ⟨entry, member, same⟩
      rw [← show _ = front.map fun entry => (argumentParts entry.2).1 from labels] at this
      exact List.mem_map.mp this
    simpa [other_label] using others other inside
  · rw [read]
  · rw [read]
    exact whole

theorem labeledArgument?_of_first {front back : List (List Cell × List Cell)}
    {padding rest : List Cell} (valid : Row.Valid ⟨front ++ (padding, head ++ value) :: back, rest⟩)
    (first : ∀ entry ∈ front, (argumentParts entry.2).1 ≠ some label)
    (labeled : IsLabeled (head ++ value) label head value) {source : Source} {position start : Nat}
    (stands : source.Shows position (Row.cells ⟨front ++ (padding, head ++ value) :: back, rest⟩))
    (begins : start = position + (Row.flat front).length + padding.length) :
    source.labeledArgument?
        ⟨position, position + (Row.cells ⟨front ++ (padding, head ++ value) :: back, rest⟩).length⟩
          label =
      some ⟨some label, ⟨start + head.length, start + head.length + value.length⟩,
        ⟨start, start + (head ++ value).length⟩⟩ := by
  have early : source.Shows position (Row.flat front) := by
    rw [Row.cells, Row.flat_append, List.append_assoc] at stands
    exact stands.left
  have labels := local_label.map_spans (fun entry member =>
    (valid.solid entry (by simp [member])).unbroken.balanced) early
  have none_before : (Row.spansFrom position front).find?
      (fun span => (source.argumentOf span).label = some label) = none := by
    rw [List.find?_eq_none]
    intro span member named
    have inside := List.mem_map_of_mem (f := fun span => (source.argumentOf span).label) member
    rw [labels] at inside
    obtain ⟨entry, here, same⟩ := List.mem_map.mp inside
    exact first entry here (same.trans (by simpa using named))
  have here := argumentOf_of_isLabeled labeled stands.entry
  rw [← begins] at here
  rw [labeledArgument?, arguments, elements_row valid stands, List.find?_map, Row.spansFrom_append,
    List.find?_append]
  simp only [Function.comp_def, none_before, Option.none_or, Row.spansFrom, List.find?_cons,
    ← begins, here, decide_true, Option.map_some]

end Source

end SwiftWorkspace
