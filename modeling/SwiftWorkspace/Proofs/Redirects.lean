import Mathlib.Data.List.Nodup
import SwiftWorkspace.Proofs.References

/-!
# New references of targets

A reference is added to a target at the end of the array of its dependencies.
When the target has no such array yet, it gets an argument with one behind its
name.  All other targets and arrays stay as they are.
-/

namespace SwiftWorkspace

open Kind (Clear Firm Scans Bland chars cellsOf)

namespace TargetForm

def withDependencies (form : TargetForm) (inner : List Cell) : TargetForm :=
  { form with asks := true, dependencies := some inner }

def content (form : TargetForm) : List Cell := form.dependencies.getD []

theorem content_eq {form : TargetForm} {inner : List Cell}
    (found : form.dependencies = some inner) : form.content = inner := by
  rw [content, found, Option.getD_some]

def Accepts (form : TargetForm) : Prop := form.asks = false ∨ form.dependencies.isSome

instance (form : TargetForm) : Decidable form.Accepts := inferInstanceAs (Decidable (_ ∨ _))

theorem pieces_eq (form : TargetForm) : form.pieces = Source.piecesOf form.content := by
  cases found : form.dependencies with
  | none => simp [pieces, content, found]; rfl
  | some inner => simp [pieces, content, found]

end TargetForm

namespace Source

/-- A source in which one target has other dependencies, and nothing else is different. -/
structure Redirects (old new : Source) (name : Text) (inner : List Cell) : Prop where
  follows : old.Follows new
  outline : ∃ targets, new.outline = { old.outline with targets := targets }
  forms : new.outline.forms = updateForm name (·.withDependencies inner) old.outline.forms

@[simp] theorem name_formOf (source : Source) (target : TargetCall) :
    (source.formOf target).name = target.name := rfl

section Find

variable {source : Source} {name : Text}

theorem Orderly.form_unique (orderly : source.Orderly) {form other : TargetForm}
    (member : form ∈ source.outline.forms) (other_member : other ∈ source.outline.forms)
    (same : form.name = other.name) : form = other :=
  List.inj_on_of_nodup_map orderly.distinct member other_member same

theorem Orderly.findTarget_of_mem (orderly : source.Orderly) {target : TargetCall}
    (member : target ∈ source.targetCalls) : source.findTarget target.name = .ok target := by
  have distinct : (source.targetCalls.map TargetCall.name).Nodup := by
    have names := orderly.distinct
    rwa [source.forms_outline, List.map_map] at names
  rw [Source.findTarget]
  cases search : source.targetCalls.find? (·.name = target.name) with
  | none =>
      have differs := List.find?_eq_none.mp search target member
      simp at differs
  | some found =>
      have same : found.name = target.name := by simpa using List.find?_some search
      rw [List.inj_on_of_nodup_map distinct (List.mem_of_find?_eq_some search) member same]

theorem Orderly.findTarget (orderly : source.Orderly) {form : TargetForm}
    (member : form ∈ source.outline.forms) :
    ∃ target, source.findTarget form.name = .ok target ∧ target ∈ source.targetCalls ∧
      source.formOf target = form := by
  rw [source.forms_outline] at member
  obtain ⟨target, inside, rfl⟩ := List.mem_map.mp member
  exact ⟨target, orderly.findTarget_of_mem inside, inside, rfl⟩

theorem findTarget_of_missing (missing : ∀ form ∈ source.outline.forms, form.name ≠ name) :
    source.findTarget name = .error (.targetNotFound name) := by
  have search : source.targetCalls.find? (·.name = name) = none := by
    refine List.find?_eq_none.mpr fun target inside => ?_
    have forms := source.forms_outline
    simpa using missing (source.formOf target) (forms ▸ List.mem_map_of_mem inside)
  rw [findTarget, search]

end Find

end Source

namespace TargetPlace

variable {place : TargetPlace} {target : TargetCall}

theorem redirects_array {array : ArrayPlace} {inner new : List Cell}
    (holds : place.Holds (array.list inner) target)
    (member : target ∈ (place.source (array.list inner)).targetCalls)
    (array_holds : array.Holds Field.dependencies.label inner)
    (orderly : (place.source (array.list inner)).Orderly) (balanced : Balanced new)
    (clear : Clear new) (milder : ∀ field, field ≠ .dependencies → Milder field inner new) :
    (place.source (array.list inner)).Redirects
      (place.source (array.list new)) target.name new := by
  obtain ⟨follows, -, outline, forms⟩ :=
    place.exchange_array holds array_holds orderly balanced clear milder
  refine ⟨follows, ⟨_, outline⟩, ?_⟩
  rw [forms]
  refine List.map_congr_left fun form inside => ?_
  split
  case isFalse => rfl
  case isTrue named =>
      have here : (place.source (array.list inner)).formOf target = form := by
        refine orderly.form_unique ?_ inside named.symm
        rw [Source.forms_outline]
        exact List.mem_map_of_mem member
      have asks : form.asks = true := by
        have reads := holds.form
        rw [Source.read_formIn?_of_isCall holds.call, here] at reads
        rw [(Source.formFrom?_eq_some reads).2.1, array.valueIn?_self array_holds,
          Option.isSome_some]
      change { form with dependencies := some new } = form.withDependencies new
      rw [TargetForm.withDependencies, ← asks]

end TargetPlace

def argumentRow (front : List (List Cell × List Cell)) (padding piece : List Cell)
    (back : List (List Cell × List Cell)) (rest : List Cell) (own : Option Text)
    (dependency : Text) : Row :=
  ⟨front ++ (padding, piece) :: (commaCell :: gapCells own, dependenciesCells dependency) ::
    back, rest⟩

section Argument

variable {front back : List (List Cell × List Cell)} {padding piece rest gap : List Cell}
  {own : Option Text} {dependency : Text}

theorem cells_argumentRow : (argumentRow front padding piece back rest own dependency).cells =
    Row.flat front ++ (padding ++ piece) ++
      (commaCell :: (gapCells own ++ dependenciesCells dependency) ++ (Row.flat back ++ rest)) := by
  simp [argumentRow, Row.cells]

section Own

variable (tabs : ∀ indent ∈ own, ∀ char ∈ indent, char = ' ' ∨ char = '\t')

include tabs

theorem valid_argumentRow (valid : Row.Valid ⟨front ++ (padding, piece) :: back, rest⟩)
    (noFeed : '\n' ∉ dependency) :
    (argumentRow front padding piece back rest own dependency).Valid := by
  refine valid.insert (sturdy_dependencies noFeed).solid ?_ ⟨commaCell, by simp, rfl⟩
  intro cell member
  rcases List.mem_cons.mp member with rfl | inside
  · rfl
  · exact Row.isPadding_gap tabs inside

theorem clear_argumentRow (valid : Row.Valid ⟨front ++ (padding, piece) :: back, rest⟩)
    (clear : Clear (Row.cells ⟨front ++ (padding, piece) :: back, rest⟩))
    (noFeed : '\n' ∉ dependency) :
    Clear (argumentRow front padding piece back rest own dependency).cells := by
  have bland : ∀ char ∈ chars (commaCell :: gapCells own), Bland [char] := by
    intro char member
    rcases List.mem_cons.mp member with rfl | inside
    · simp [commaCell]
    · exact Row.bland_gap tabs inside
  have firm := (sturdy_dependencies noFeed).firm.plain_append bland
  rw [Kind.chars_cons, cellsOf, List.map_cons, ← cellsOf, ← Row.gapCells_eq] at firm
  rw [cells_argumentRow]
  exact valid.clear_insert clear firm

end Own

/-- Behind a name, an argument for dependencies is the first one of its label if there was none. -/
theorem formFrom?_insert (valid : Row.Valid ⟨front ++ (padding, piece) :: back, rest⟩)
    (other_valid : Row.Valid
      ⟨front ++ (padding, piece) :: (gap, dependenciesCells dependency) :: back, rest⟩)
    (noFeed : '\n' ∉ dependency)
    (missing : Source.valueIn? Field.dependencies.label
      (Row.cells ⟨front ++ (padding, piece) :: back, rest⟩) = none) (keyword : Text) :
    Source.formFrom? keyword
        (Row.cells ⟨front ++ (padding, piece) :: (gap, dependenciesCells dependency) ::
          back, rest⟩) =
      (Source.formFrom? keyword (Row.cells ⟨front ++ (padding, piece) :: back, rest⟩)).map
        (·.withDependencies (literalCells dependency)) := by
  have parts := Source.argumentParts_of_isLabeled (isLabeled_dependencies dependency)
  have stays {label : Text} (differs : label ≠ Field.dependencies.label) :
      Source.valueIn? label (Row.cells
        ⟨front ++ (padding, piece) :: (gap, dependenciesCells dependency) :: back, rest⟩) =
      Source.valueIn? label (Row.cells ⟨front ++ (padding, piece) :: back, rest⟩) := by
    rw [Source.valueIn?, Source.valueIn?, Source.piecesOf_row valid,
      Source.piecesOf_row other_valid]
    simp [Row.pieces, List.find?_append, List.find?_cons, parts, differs.symm]
  have found : Source.valueIn? Field.dependencies.label (Row.cells
      ⟨front ++ (padding, piece) :: (gap, dependenciesCells dependency) :: back, rest⟩) =
      some (⟨'[', .code⟩ :: (literalCells dependency ++ cellsOf .code [']'])) := by
    rw [Source.valueIn?, Source.piecesOf_row valid, Option.map_eq_none_iff,
      List.find?_eq_none] at missing
    have early : (front.map fun entry => Source.argumentParts entry.2).find?
        (·.1 = some Field.dependencies.label) = none := by
      refine List.find?_eq_none.mpr fun parts member => missing parts ?_
      simp only [Row.pieces, List.map_append, List.map_map, List.mem_append]
      exact .inl member
    have here := missing (Source.argumentParts piece) (by simp [Row.pieces])
    rw [Source.valueIn?, Source.piecesOf_row other_valid]
    simp only [Bool.not_eq_true] at here
    simp [Row.pieces, List.find?_append, Function.comp_def, early, here, parts]
  have array := Source.arrayPart?_of_isArray (isArray_dependencies noFeed)
  have name := stays (by decide : Field.name.label ≠ Field.dependencies.label)
  have path := stays (by decide : "path".toList ≠ Field.dependencies.label)
  simp only [Source.formFrom?, Source.stringValue?, Source.arrayValue?, name, path, found,
    Option.isSome_some, Option.bind_some, array]
  simp only [TargetForm.of?]
  cases TargetKind.ofKeyword? keyword with
  | none => rfl
  | some kind =>
      cases filled? ((Source.valueIn? Field.name.label
        (Row.cells ⟨front ++ (padding, piece) :: back, rest⟩)).bind
          (Source.read Source.stringIn?)) <;> rfl

/-- A new argument for dependencies brings only its own label along. -/
theorem milder_insert (valid : Row.Valid ⟨front ++ (padding, piece) :: back, rest⟩)
    (clear : Clear (Row.cells ⟨front ++ (padding, piece) :: back, rest⟩))
    (other_valid : Row.Valid
      ⟨front ++ (padding, piece) :: (gap, dependenciesCells dependency) :: back, rest⟩)
    (other_clear : Clear (Row.cells
      ⟨front ++ (padding, piece) :: (gap, dependenciesCells dependency) :: back, rest⟩))
    {field : Field} (differs : field ≠ .dependencies) :
    Milder field (Row.cells ⟨front ++ (padding, piece) :: back, rest⟩)
      (Row.cells ⟨front ++ (padding, piece) :: (gap, dependenciesCells dependency) ::
        back, rest⟩) := by
  refine .of_rows valid (valid.seamed clear) other_valid (other_valid.seamed other_clear) ?_
  intro other member
  have parts : other = dependenciesCells dependency ∨
      other ∈ Row.pieces ⟨front ++ (padding, piece) :: back, rest⟩ := by
    simp only [Row.pieces, List.map_append, List.map_cons, List.mem_append,
      List.mem_cons] at member ⊢
    grind
  rcases parts with rfl | old
  · exact .inr (hits_of_not_mentions (mentions_dependencies differs dependency))
  · exact .inl ⟨other, old, .refl field other⟩

end Argument

namespace TargetPlace

variable {place : TargetPlace} {list : List Cell} {target : TargetCall}

theorem exists_listFrame {keyword : Text}
    (call : IsCall (place.piece list) keyword place.head list place.tail) :
    ∃ frame : Frame, frame.front.length + 1 = place.start + place.head.length ∧
      ∀ list, frame.fill list = place.source list := by
  obtain ⟨-, -, dot, word, trivia, opening, closing, rest, head, tail, -, -, -, -, -, pairs⟩ := call
  refine ⟨⟨place.frame.front ++ place.frame.opening :: (Row.flat place.front ++ (place.padding ++
    dot :: (word ++ trivia))), opening, closing, rest ++ (Row.flat place.back ++ (place.rest ++
      place.frame.closing :: place.frame.back)), pairs⟩, ?_, fun list => ?_⟩
  · simp [start, head]
    omega
  · simp [Frame.fill, source, row, piece, head, tail, Row.cells]

section Insert

variable {front back : List (List Cell × List Cell)} {padding piece rest : List Cell}
    {own : Option Text}
  {dependency : Text} (tabs : ∀ indent ∈ own, ∀ char ∈ indent, char = ' ' ∨ char = '\t')

include tabs in
theorem exchange_argument
    (holds : place.Holds (Row.cells ⟨front ++ (padding, piece) :: back, rest⟩) target)
    (orderly : (place.source (Row.cells ⟨front ++ (padding, piece) :: back, rest⟩)).Orderly)
    (valid : Row.Valid ⟨front ++ (padding, piece) :: back, rest⟩) (noFeed : '\n' ∉ dependency)
    (missing : Source.valueIn? Field.dependencies.label
      (Row.cells ⟨front ++ (padding, piece) :: back, rest⟩) = none) :
    (place.source (Row.cells ⟨front ++ (padding, piece) :: back, rest⟩)).Follows
        (place.source (argumentRow front padding piece back rest own dependency).cells) ∧
      (place.source (argumentRow front padding piece back rest own dependency).cells).targetsSpan? =
        some (place.frame.span
          (place.row (argumentRow front padding piece back rest own dependency).cells).cells) ∧
      (place.source (argumentRow front padding piece back rest own dependency).cells).outline =
        { (place.source (Row.cells ⟨front ++ (padding, piece) :: back, rest⟩)).outline with
          targets :=
            some (place.row (argumentRow front padding piece back rest own dependency).cells).cells
            } ∧
      (place.source (argumentRow front padding piece back rest own
        dependency).cells).outline.forms =
        updateForm target.name (·.withDependencies (literalCells dependency))
          (place.source (Row.cells ⟨front ++ (padding, piece) :: back, rest⟩)).outline.forms := by
  obtain ⟨frame, -, same⟩ := exists_listFrame holds.call
  have sound := orderly.sound
  rw [← same] at sound
  have clear := frame.clear_of_sound sound
  have other_valid := valid_argumentRow tabs valid noFeed
  have other_clear := clear_argumentRow tabs valid clear noFeed
  have other_sound := frame.sound_fill sound other_clear
  rw [same] at other_sound
  exact place.exchange holds orderly other_valid.balanced other_sound
    (fun field differs => milder_insert valid clear other_valid other_clear differs)
    (fun _ => rfl : ∀ form : TargetForm,
      (form.withDependencies (literalCells dependency)).name = form.name)
    (formFrom?_insert valid other_valid noFeed missing target.call.keyword)

/-- The new argument stands in the row of the arguments, on a line of its own if the name does. -/
theorem addDependenciesArgument_row {keyword : Text} {start : Nat} {named : Argument}
    (call : IsCall (place.piece (Row.cells ⟨front ++ (padding, piece) :: back, rest⟩))
      keyword place.head
      (Row.cells ⟨front ++ (padding, piece) :: back, rest⟩) place.tail)
    (begins : start = place.start + place.head.length + (Row.flat front).length + padding.length)
    (span : named.span = ⟨start, start + piece.length⟩) (dependency : Text) :
    (place.source (Row.cells ⟨front ++ (padding, piece) :: back, rest⟩)).addDependenciesArgument
      named
        (Literal.encode dependency) =
      (place.source (argumentRow front padding piece back rest
        ((place.source (Row.cells ⟨front ++ (padding, piece) :: back, rest⟩)).ownLine? start)
        dependency).cells).text := by
  obtain ⟨frame, size, same⟩ := exists_listFrame call
  have separator : chars (commaCell :: gapCells
        ((place.source (Row.cells ⟨front ++ (padding, piece) :: back, rest⟩)).ownLine? start)) =
      if (place.source (Row.cells ⟨front ++ (padding, piece) :: back, rest⟩)).startsLine start then
        ',' :: '\n' ::
          (place.source (Row.cells ⟨front ++ (padding, piece) :: back, rest⟩)).lineIndent start
      else [',', ' '] := by
    simp only [Source.ownLine?]
    split <;> simp [gapCells, commaCell]
  rw [Source.addDependenciesArgument, span, ← separator, ← same, ← same, cells_argumentRow]
  refine frame.insertAt_fill ?_ ?_ ?_
  · simp [Row.cells]
  · simp only [begins, size, List.length_append]
    omega
  · rw [← List.cons_append, Kind.chars_append, chars_dependenciesCells]

end Insert

theorem redirects_argument (holds : place.Holds list target)
    (orderly : (place.source list).Orderly) {named : Argument} {dependency : Text}
    (noFeed : '\n' ∉ dependency)
    (missing : Source.valueIn? Field.dependencies.label list = none)
    (found : (place.source list).labeledArgument? target.call.arguments Field.name.label =
      some named) :
    ∃ other, (place.source list).Redirects (place.source other) target.name
      (literalCells dependency) ∧
      (place.source list).addDependenciesArgument named (Literal.encode dependency) =
        (place.source other).text := by
  obtain ⟨row, valid, rfl⟩ := Row.exists_of_balanced holds.call.inside
  rw [holds.arguments] at found
  obtain ⟨front, padding, head, value, back, start, entries, begins, -, -, -, span⟩ :=
    Source.labeledArgument?_eq_some valid (place.shows_list row.cells) found
  obtain ⟨all, rest⟩ := row
  obtain rfl : all = front ++ (padding, head ++ value) :: back := entries
  obtain ⟨follows, -, outline, forms⟩ :=
    exchange_argument Source.mem_ownLine? holds orderly valid noFeed missing
  exact ⟨_, ⟨follows, ⟨_, outline⟩, forms⟩,
    addDependenciesArgument_row holds.call begins span dependency⟩

end TargetPlace

theorem piecesOf_nil : Source.piecesOf [] = [] := rfl

theorem piecesOf_solid {piece : List Cell} (solid : Solid piece) :
    Source.piecesOf piece = [piece] := by
  have valid : Row.Valid ⟨[([], piece)], []⟩ := ⟨by simpa using solid, by simp, by simp, by simp⟩
  have pieces := Source.piecesOf_row valid
  simpa [Row.cells, Row.pieces] using pieces

theorem extends_nil {piece : List Cell} (sturdy : Sturdy piece) : Extends [] piece piece where
  balanced := sturdy.solid.unbroken.balanced
  clear := sturdy.firm.clear
  receptive := Quiet.receptive sturdy.silent
  pieces := by rw [piecesOf_solid sturdy.solid, piecesOf_nil, List.nil_append]
  comments := fun cell member comment => absurd comment (sturdy.silent cell member)

namespace Source

variable {source : Source} {target : TargetCall} {dependency : Text}

theorem exists_labeledArgument? {position : Nat} {list : List Cell} {label : Text}
    (balanced : Balanced list) (stands : source.Shows position list)
    (found : valueIn? label list ≠ none) :
    ∃ argument, source.labeledArgument? ⟨position, position + list.length⟩ label =
      some argument := by
  have value := (local_cellsIn.onLabeled label) source position list balanced stands
  rw [read_onLabeled local_cellsIn label balanced] at value
  cases search : source.labeledArgument? ⟨position, position + list.length⟩ label with
  | none =>
      simp only [labeledValue?, search, Option.map_none] at value
      exact absurd (Option.map_eq_none_iff.mp value.symm) found
  | some argument => exact ⟨argument, rfl⟩

theorem asks_formOf : (source.formOf target).asks =
    (source.labeledValue? target.call.arguments Field.dependencies.label).isSome := rfl

theorem dependencies_formOf : (source.formOf target).dependencies =
    (source.targetDependencies? target).map source.cellsIn := rfl

/-- A reference goes to the end of the array of a target's dependencies. -/
theorem Orderly.appendReference (orderly : source.Orderly) (member : target ∈ source.targetCalls)
    {span : Span} (array : source.targetDependencies? target = some span)
    (receptive : Receptive (source.formOf target).content) (noFeed : '\n' ∉ dependency) :
    ∃ new inner, source.Redirects new target.name inner ∧
      Extends (source.formOf target).content inner (literalCells dependency) ∧
      source.appendElement span (Literal.encode dependency) .inline = new.text := by
  obtain ⟨place, array_place, inner, rfl, holds, array_holds, rfl⟩ :=
    exists_dependencies member array
  have sound := orderly.sound
  rw [← place.fill_arrayFrame] at sound
  have clear := Frame.clear_of_sound _ sound
  have content : ((place.source (array_place.list inner)).formOf target).content = inner := by
    rw [TargetForm.content, dependencies_formOf, array, Option.map_some, Option.getD_some,
      ← place.fill_arrayFrame]
    exact Frame.cellsIn_span ..
  rw [content] at receptive ⊢
  obtain ⟨new, more, milder, text⟩ :=
    (place.arrayFrame array_place).exists_extends array_holds.inside
    clear receptive (sturdy_literal noFeed) .inline
  refine ⟨place.source (array_place.list new), new, ?_, more, ?_⟩
  · refine TargetPlace.redirects_array holds member array_holds orderly more.balanced more.clear ?_
    exact fun field _ => milder field (mentions_literalCells field dependency)
  · rw [← place.fill_arrayFrame, ← place.fill_arrayFrame, ← text, chars_literalCells]

theorem Orderly.addArgument (orderly : source.Orderly) (member : target ∈ source.targetCalls)
    (missing : (source.formOf target).asks = false) (noFeed : '\n' ∉ dependency) :
    ∃ new named, source.Redirects new target.name (literalCells dependency) ∧
      source.labeledArgument? target.call.arguments Field.name.label = some named ∧
      source.addDependenciesArgument named (Literal.encode dependency) = new.text := by
  obtain ⟨place, list, rfl, holds⟩ := exists_place member
  have reads := holds.form
  rw [read_formIn?_of_isCall holds.call] at reads
  obtain ⟨value, asks, -⟩ := formFrom?_eq_some reads
  rw [missing, eq_comm, Option.isSome_eq_false_iff, Option.isNone_iff_eq_none] at asks
  obtain ⟨named, found⟩ := exists_labeledArgument? holds.call.inside (place.shows_list list) value
  rw [← holds.arguments] at found
  obtain ⟨other, redirects, text⟩ := place.redirects_argument holds orderly noFeed asks found
  exact ⟨place.source other, named, redirects, found, text⟩

theorem Sound.addToTarget_of_found (sound : source.Sound) {name : Text}
    (found : source.findTarget name = .ok target) :
    Edit.addToTarget source.text name dependency =
      match source.targetDependencies? target with
      | some array => .ok (source.appendElement array (Literal.encode dependency) .inline)
      | none =>
          if (source.formOf target).asks then .error (.dependenciesNotArray name)
          else
            match source.labeledArgument? target.call.arguments Field.name.label with
            | none => .error (.targetUnnamed name)
            | some named =>
                .ok (source.addDependenciesArgument named (Literal.encode dependency)) := by
  simp only [Edit.addToTarget, sound.ofText_text, found]
  rfl

theorem Orderly.addToTarget_of_bare (orderly : source.Orderly)
    (member : target ∈ source.targetCalls)
    (bare : (source.formOf target).asks = false) {named : Argument}
    (found : source.labeledArgument? target.call.arguments Field.name.label = some named) :
    Edit.addToTarget source.text target.name dependency =
      .ok (source.addDependenciesArgument named (Literal.encode dependency)) := by
  have array : source.targetDependencies? target = none := by
    rw [asks_formOf, Option.isSome_eq_false_iff, Option.isNone_iff_eq_none] at bare
    rw [targetDependencies?, argumentArray?, bare, Option.bind_none]
  rw [orderly.sound.addToTarget_of_found (orderly.findTarget_of_mem member), array]
  simp only [bare, found, Bool.false_eq_true, if_false]

theorem Orderly.addToTarget (orderly : source.Orderly) {form : TargetForm}
    (member : form ∈ source.outline.forms) (accepts : form.Accepts)
    (receptive : Receptive form.content) (noFeed : '\n' ∉ dependency) :
    ∃ new inner, Edit.addToTarget source.text form.name dependency = .ok new.text ∧
      source.Redirects new form.name inner ∧
      Extends form.content inner (literalCells dependency) := by
  obtain ⟨target, found, inside, rfl⟩ := orderly.findTarget member
  cases array : source.targetDependencies? target with
  | some span =>
      obtain ⟨new, inner, redirects, more, text⟩ :=
        orderly.appendReference inside array receptive noFeed
      rw [orderly.sound.addToTarget_of_found found, array]
      exact ⟨new, inner, congrArg Except.ok text, redirects, more⟩
  | none =>
      have missing : (source.formOf target).asks = false := by
        simpa [TargetForm.Accepts, dependencies_formOf, array] using accepts
      obtain ⟨new, named, redirects, label, text⟩ := orderly.addArgument inside missing noFeed
      have content : (source.formOf target).content = [] := by
        rw [TargetForm.content, dependencies_formOf, array, Option.map_none, Option.getD_none]
      refine ⟨new, literalCells dependency, ?_, redirects, ?_⟩
      · rw [name_formOf, orderly.addToTarget_of_bare inside missing label, text]
      · rw [content]
        exact extends_nil (sturdy_literal noFeed)

/-- A target whose dependencies are not written as an array gets no reference. -/
theorem Orderly.addToTarget_rejected (orderly : source.Orderly) {form : TargetForm}
    (member : form ∈ source.outline.forms) (rejects : ¬form.Accepts) :
    Edit.addToTarget source.text form.name dependency =
      .error (.dependenciesNotArray form.name) := by
  obtain ⟨target, found, inside, rfl⟩ := orderly.findTarget member
  obtain ⟨asks, missing⟩ := not_or.mp rejects
  have array : source.targetDependencies? target = none := by
    simpa [dependencies_formOf] using missing
  rw [orderly.sound.addToTarget_of_found found, array]
  simp [asks]

theorem Orderly.addToTarget_missing (orderly : source.Orderly) {name : Text}
    (missing : ∀ form ∈ source.outline.forms, form.name ≠ name) :
    Edit.addToTarget source.text name dependency = .error (.targetNotFound name) := by
  simp only [Edit.addToTarget, orderly.sound.ofText_text, findTarget_of_missing missing]
  rfl

end Source

end SwiftWorkspace
