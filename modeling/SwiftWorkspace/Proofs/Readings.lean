import SwiftWorkspace.Edit.Target
import SwiftWorkspace.Manifest.Reading
import SwiftWorkspace.Proofs.Shapes

/-!
# Readings of elements

What an element of a manifest's array says depends on its own cells alone.  A
dependency, a target, a product or a platform is therefore read in the same way
wherever its declaration stands.
-/

namespace SwiftWorkspace

namespace Source

variable {source : Source} {position : Nat} {piece inner : List Cell}

theorem Shows.textIn (stands : source.Shows position piece) :
    source.textIn ⟨position, position + piece.length⟩ = Kind.chars piece := by
  rw [Source.textIn, stands.cellsIn, Kind.chars]

theorem read_textIn (piece : List Cell) : read textIn piece = Kind.chars piece := by
  have alone := (shows_alone piece).textIn
  rwa [Nat.zero_add] at alone

theorem local_textIn : Local textIn :=
  fun _ _ piece _ stands => stands.textIn.trans (read_textIn piece).symm

theorem map_textIn_elements {row : Row} (valid : row.Valid)
    (stands : source.Shows position row.cells) :
    (source.elements ⟨position, position + row.cells.length⟩).map source.textIn =
      row.pieces.map Kind.chars := by
  rw [local_textIn.map_elements valid stands, funext read_textIn]

theorem elementTexts_row {row : Row} (valid : row.Valid)
    (alone : ofText (Kind.chars row.cells) = ⟨row.cells⟩) :
    elementTexts (Kind.chars row.cells) = row.pieces.map Kind.chars := by
  have texts := map_textIn_elements valid (shows_alone row.cells)
  rw [Nat.zero_add] at texts
  rw [elementTexts, alone]
  exact texts

theorem Shows.stringIn? (stands : source.Shows position piece) :
    source.stringIn? ⟨position, position + piece.length⟩ = read Source.stringIn? piece := by
  have alone := shows_alone piece
  have text := alone.textIn
  have cells := alone.cellsIn
  rw [Nat.zero_add] at text cells
  rw [read, Source.stringIn?, stands.cellsIn, stands.textIn, Source.stringIn?, cells, text]

theorem local_stringIn? : Local stringIn? := fun _ _ _ _ stands => stands.stringIn?

theorem Local.map {β γ : Type} {query : Source → Span → β} (loc : Local query) (combine : β → γ) :
    Local fun source span => combine (query source span) :=
  fun source position piece balanced stands =>
    congrArg combine (loc source position piece balanced stands)

theorem Local.zip {β γ : Type} {first : Source → Span → β} {second : Source → Span → γ}
    (left : Local first) (right : Local second) :
    Local fun source span => (first source span, second source span) :=
  fun source position piece balanced stands =>
    Prod.ext (left source position piece balanced stands)
      (right source position piece balanced stands)

theorem Local.of_eq {β : Type} {query other : Source → Span → β} (loc : Local other)
    (same : ∀ source span, query source span = other source span) : Local query := by
  obtain rfl : query = other := funext fun source => funext (same source)
  exact loc

/-- Queries about the elements of balanced cells make a local query. -/
theorem Local.onElements {β γ : Type} {query : Source → Span → β} (loc : Local query)
    (combine : List β → γ) :
    Local fun source span => combine ((source.elements span).map (query source)) := by
  intro source position piece balanced stands
  have alone := loc.elements balanced (shows_alone piece)
  rw [Nat.zero_add] at alone
  exact congrArg combine ((loc.elements balanced stands).trans alone.symm)

theorem Local.onArgument {β : Type} {query : Option Text → Source → Span → β}
    (loc : ∀ label, Local (query label)) : Local fun source span =>
      query (source.argumentOf span).label source (source.argumentOf span).value := by
  intro source position piece balanced stands
  by_cases labeled : ∃ label head value, IsLabeled piece label head value
  · obtain ⟨label, head, value, labeled⟩ := labeled
    have balanced_value := labeled.balanced_value balanced
    have alone := argumentOf_of_isLabeled labeled (shows_alone piece)
    have here := loc label source _ value balanced_value (labeled.stands stands)
    have there := loc label _ _ value balanced_value (labeled.stands (shows_alone piece))
    rw [Nat.zero_add] at alone
    simp only [argumentOf_of_isLabeled labeled stands, read, alone]
    exact here.trans there.symm
  · have alone := argumentOf_of_not_isLabeled labeled (shows_alone piece)
    rw [Nat.zero_add] at alone
    simp only [argumentOf_of_not_isLabeled labeled stands, read, alone]
    exact loc none source position piece balanced stands

/-- A query about the argument list of a call is local if the list's part in it is. -/
theorem Local.onCall {β : Type} {query : Text → Source → Span → β}
    (loc : ∀ keyword, Local (query keyword)) : Local fun source span =>
      (source.callIn? span).map fun call => query call.keyword source call.arguments := by
  intro source position piece balanced stands
  by_cases shape : ∃ keyword head inner tail, IsCall piece keyword head inner tail
  · obtain ⟨keyword, head, inner, tail, call⟩ := shape
    have alone := callIn?_of_isCall call (shows_alone piece)
    have here := loc keyword source _ inner call.inside (call.stands stands)
    have there := loc keyword _ _ inner call.inside (call.stands (shows_alone piece))
    rw [Nat.zero_add] at alone
    simp only [callIn?_of_isCall call stands, read, alone, Option.map_some]
    exact congrArg some (here.trans there.symm)
  · have alone := callIn?_eq_none shape (shows_alone piece)
    rw [Nat.zero_add] at alone
    simp only [callIn?_eq_none shape stands, read, alone, Option.map_none]

/-- A query about the inside of an array is local if the inside's part in it is. -/
theorem Local.onArray {β : Type} {query : Source → Span → β} (loc : Local query) :
    Local fun source span => (source.arrayOf? span).map (query source) := by
  intro source position piece balanced stands
  by_cases shape : ∃ inner tail, IsArray piece inner tail
  · obtain ⟨inner, tail, array⟩ := shape
    have alone := arrayOf?_of_isArray array (shows_alone piece)
    have here := loc source _ inner array.inside (array.stands stands)
    have there := loc _ _ inner array.inside (array.stands (shows_alone piece))
    rw [Nat.zero_add] at alone there
    simp only [arrayOf?_of_isArray array stands, read, alone, Option.map_some, Nat.zero_add]
    exact congrArg some (here.trans there.symm)
  · have missing (source : Source) (position : Nat) (stands : source.Shows position piece) :
        source.arrayOf? ⟨position, position + piece.length⟩ = none := by
      cases found : source.arrayOf? ⟨position, position + piece.length⟩ with
      | none => rfl
      | some found' =>
          obtain ⟨inner, tail, array, -⟩ := arrayOf?_eq_some balanced stands found
          exact absurd ⟨inner, tail, array⟩ shape
    have alone := missing ⟨piece⟩ 0 (shows_alone piece)
    rw [Nat.zero_add] at alone
    simp only [missing source position stands, read, alone, Option.map_none]

theorem local_stringElements : Local stringElements := by
  have whole := local_stringIn?.onElements (List.filterMap id)
  simp only [List.filterMap_map, Function.id_comp] at whole
  exact whole

theorem Local.onLabeled {β : Type} {query : Source → Span → β} (loc : Local query) (label : Text) :
    Local fun source span => (source.labeledValue? span label).map (query source) := by
  let labeled (label : Option Text) (source : Source) (value : Span) := (label, query source value)
  have argument : Local fun source span =>
      labeled (source.argumentOf span).label source (source.argumentOf span).value :=
    .onArgument fun label => loc.map (Prod.mk label)
  have whole := argument.onElements fun arguments =>
    (arguments.find? (·.1 = some label)).map (·.2)
  simp only [List.find?_map, Option.map_map] at whole
  simp only [labeledValue?, labeledArgument?, arguments, List.find?_map, Option.map_map]
  exact whole

theorem local_labeledString? (label : Text) :
    Local fun source span => source.labeledString? span label := by
  have whole := (local_stringIn?.onLabeled label).map Option.join
  simp only [← Option.bind_id_eq_join, Option.bind_map, Function.id_comp] at whole
  exact whole

theorem Local.onArgumentArray {β : Type} {query : Source → Span → β} (loc : Local query)
    (label : Text) :
    Local fun source span => (source.argumentArray? span label).map (query source) := by
  have whole := (loc.onArray.onLabeled label).map Option.join
  simp only [← Option.bind_id_eq_join, Option.bind_map, Function.id_comp] at whole
  simp only [argumentArray?, Option.map_bind]
  exact whole

theorem local_positionalVersion? : Local positionalVersion? := by
  have nested := Local.onCall fun _ : Text =>
    (local_labeledString? "from".toList).zip local_stringElements
  refine ((nested.zip local_textIn).map fun
    | (some (lower, strings), _) => (filled? lower).orElse fun _ => strings.head?
    | (none, written) =>
        if written.contains ['.', '.'] then
          some (written.filter fun char => char ≠ '"' && !isBlank char)
        else none).of_eq fun source span => ?_
  rw [positionalVersion?]
  cases source.callIn? span <;> rfl

theorem local_qualifiers : Local qualifiers := by
  have argument := Local.onArgument fun label => (local_positionalVersion?.zip local_stringIn?).map
    fun (positional, value) => (label, positional, value)
  refine (argument.onElements fun arguments => arguments.foldl (fun qualifiers argument =>
    match argument with
    | (none, positional, _) =>
        (filled? positional).elim qualifiers fun version =>
          { qualifiers with version := some version }
    | (some label, _, value) =>
        if label = "from".toList || label = "exact".toList then
          { qualifiers with version := value }
        else if label = "branch".toList then { qualifiers with branch := value }
        else if label = "revision".toList then { qualifiers with commit := value }
        else qualifiers) {}).of_eq fun source span => ?_
  rw [qualifiers, arguments, List.foldl_map, List.foldl_map]
  congr 1
  funext qualifiers element
  rw [qualify]
  cases (source.argumentOf element).label with
  | some label => rfl
  | none =>
      dsimp only
      cases filled? (source.positionalVersion? (source.argumentOf element).value) <;> rfl

theorem local_dependencyIn? : Local dependencyIn? := by
  have parts := Local.onCall fun keyword : Text => ((local_labeledString? "name".toList).zip
    ((local_labeledString? "url".toList).zip ((local_labeledString? "path".toList).zip
      local_qualifiers))).map fun found => (keyword, found)
  refine (parts.map fun
    | none => none
    | some (keyword, name, url, path, asked) =>
        if keyword ≠ "package".toList then none
        else
          (filled? url).elim
            ((filled? path).bind fun path =>
              Dependency.ofFields? { name := name.getD [], path := some path })
            fun url => Dependency.ofFields?
              { name := name.getD [], url := some url, version := asked.version,
                branch := asked.branch, commit := asked.commit }).of_eq fun source span => ?_
  rw [dependencyIn?]
  cases source.callIn? span with
  | none => rfl
  | some call =>
      dsimp only [Option.map_some]
      cases filled? (source.labeledString? call.arguments "url".toList) with
      | some url => rfl
      | none => cases filled? (source.labeledString? call.arguments "path".toList) <;> rfl

theorem local_platformIn? : Local platformIn? := by
  have token := (local_stringIn?.zip local_textIn).onElements (List.head?)
  refine ((Local.onCall fun keyword : Text => token.map fun found => (keyword, found)).map
    fun call => do
      let (keyword, first) ← call
      let (literal, written) ← first
      let token ← filled? <| some <| literal.getD (Text.strip (Text.trimStart (· = '.') written))
      pure (keyword, Platform.versionOf token)).of_eq fun source span => ?_
  rw [platformIn?]
  cases source.callIn? span with
  | none => rfl
  | some call =>
      simp only [List.head?_map]
      cases h : (source.elements call.arguments).head? <;> simp [h]

theorem local_productIn? : Local productIn? := by
  have parts := Local.onCall fun keyword : Text =>
    ((local_labeledString? Field.name.label).zip
      (local_stringElements.onArgumentArray Field.targets.label)).map fun found => (keyword, found)
  refine (parts.map fun call => do
    let (keyword, name, targets) ← call
    let kind ← ProductKind.ofKeyword? keyword
    let name ← filled? name
    pure { name, kind, targets := targets.getD [] }).of_eq fun source span => ?_
  rw [productIn?]
  cases source.callIn? span with
  | none => rfl
  | some call =>
      cases array : source.argumentArray? call.arguments Field.targets.label <;> simp [array]

theorem local_refersTo (name : Text) : Local fun source span => source.refersTo name span := by
  have named := Local.onCall fun keyword : Text =>
    ((local_labeledString? "name".toList).zip (local_labeledString? "package".toList)).map
      fun found => (keyword, found)
  refine ((local_stringIn?.zip named).map fun
    | (literal, none) => decide (literal = some name)
    | (literal, some (keyword, first, second)) => decide (literal = some name) ||
        (isReferenceKeyword keyword && (first = some name || second = some name))).of_eq
          fun source span => ?_
  rw [refersTo]
  cases source.callIn? span with
  | none => simp
  | some call => rw [Option.map_some]

end Source

end SwiftWorkspace
