import Mathlib.Algebra.GroupWithZero.Nat
import SwiftWorkspace.Proofs.Locate
import SwiftWorkspace.Proofs.Parts

/-!
# Outlines of manifests

What a manifest says is known from the cells inside of its four arrays, wherever
they stand, and from the name of the package.
-/

namespace SwiftWorkspace

structure TargetForm where
  name : Text
  kind : TargetKind
  path : Option Text
  /-- Whether there is an argument for the dependencies, whatever its value is. -/
  asks : Bool
  /-- What is inside of the array of the dependencies. -/
  dependencies : Option (List Cell)

namespace TargetForm

def of? (keyword : Text) (name path : Option Text) (asks : Bool)
    (dependencies : Option (List Cell)) : Option TargetForm := do
  let kind ← TargetKind.ofKeyword? keyword
  let name ← filled? name
  pure { name, kind, path, asks, dependencies }

def pieces (form : TargetForm) : List (List Cell) :=
  (form.dependencies.map Source.piecesOf).getD []

def target (form : TargetForm) : Target where
  name := form.name
  kind := form.kind
  dependencies := form.pieces.filterMap (Source.read Source.stringIn?)
  path := form.path

/-- The number of elements that refer to the name. -/
def usageCount (name : Text) (form : TargetForm) : Nat :=
  form.pieces.countP (Source.read (·.refersTo name))

theorem usageCount_eq_zero_iff {name : Text} {form : TargetForm} :
    form.usageCount name = 0 ↔
      ∀ piece ∈ form.pieces, Source.read (·.refersTo name) piece = false := by
  rw [usageCount, List.countP_eq_zero]
  simp

end TargetForm

namespace Source

def formOf (source : Source) (target : TargetCall) : TargetForm where
  name := target.name
  kind := target.kind
  path := source.labeledString? target.call.arguments "path".toList
  asks := (source.labeledValue? target.call.arguments Field.dependencies.label).isSome
  dependencies := (source.targetDependencies? target).map source.cellsIn

def formIn? (source : Source) (element : Span) : Option TargetForm :=
  (source.targetCallOf? element).map source.formOf

theorem formIn?_eq (source : Source) (element : Span) :
    source.formIn? element = ((source.callIn? element).map fun call =>
      TargetForm.of? call.keyword (source.labeledString? call.arguments Field.name.label)
        (source.labeledString? call.arguments "path".toList)
        (source.labeledValue? call.arguments Field.dependencies.label).isSome
        ((source.argumentArray? call.arguments Field.dependencies.label).map
          source.cellsIn)).join := by
  rw [formIn?, targetCallOf?]
  cases source.callIn? element with
  | none => rfl
  | some call =>
      cases kind : TargetKind.ofKeyword? call.keyword with
      | none => simp [TargetForm.of?, kind]
      | some kind =>
          cases name : filled? (source.labeledString? call.arguments Field.name.label) <;>
            simp [TargetForm.of?, kind, name, formOf, targetDependencies?]

theorem local_formArguments (keyword : Text) : Local fun source span =>
    TargetForm.of? keyword (source.labeledString? span Field.name.label)
      (source.labeledString? span "path".toList)
      (source.labeledValue? span Field.dependencies.label).isSome
      ((source.argumentArray? span Field.dependencies.label).map source.cellsIn) := by
  have asks := (local_stringIn?.onLabeled Field.dependencies.label).map Option.isSome
  simp only [Option.isSome_map] at asks
  exact ((local_labeledString? Field.name.label).zip ((local_labeledString? "path".toList).zip
    (asks.zip (local_cellsIn.onArgumentArray Field.dependencies.label)))).map
      fun (name, path, asks, dependencies) => TargetForm.of? keyword name path asks dependencies

theorem local_formIn? : Local formIn? :=
  ((Local.onCall local_formArguments).map Option.join).of_eq formIn?_eq

def formFrom? (keyword : Text) (list : List Cell) : Option TargetForm :=
  TargetForm.of? keyword (stringValue? Field.name.label list) (stringValue? "path".toList list)
    (valueIn? Field.dependencies.label list).isSome (arrayValue? Field.dependencies.label list)

theorem read_formIn? (piece : List Cell) :
    read formIn? piece = (callParts? piece).bind fun parts => formFrom? parts.1 parts.2 := by
  have whole := congrArg Option.join (read_onCall local_formArguments piece)
  rw [read, formIn?_eq]
  refine whole.trans ?_
  cases found : callParts? piece with
  | none => rfl
  | some parts =>
      obtain ⟨head, tail, call⟩ := exists_isCall found
      have name := read_labeledString? Field.name.label call.inside
      have path := read_labeledString? "path".toList call.inside
      have asks := isSome_labeledValue? Field.dependencies.label call.inside
      have array := read_argumentArray? Field.dependencies.label call.inside
      simp only [read] at name path asks array
      simp only [Option.map_some, Option.join_some, Option.bind_some, read, formFrom?,
        name, path, asks, array]

theorem read_formIn?_of_isCall {piece head list tail : List Cell} {keyword : Text}
    (call : IsCall piece keyword head list tail) : read formIn? piece = formFrom? keyword list := by
  rw [read_formIn?, callParts?_of_isCall call, Option.bind_some]

theorem formFrom?_eq_some {keyword : Text} {list : List Cell} {form : TargetForm}
    (found : formFrom? keyword list = some form) :
    valueIn? Field.name.label list ≠ none ∧
      form.asks = (valueIn? Field.dependencies.label list).isSome ∧
      form.dependencies = arrayValue? Field.dependencies.label list := by
  simp only [formFrom?, TargetForm.of?] at found
  obtain ⟨kind, -, found⟩ := Option.bind_eq_some_iff.mp found
  obtain ⟨name, filled, found⟩ := Option.bind_eq_some_iff.mp found
  obtain rfl := Option.some.inj found
  refine ⟨fun absent => ?_, rfl, rfl⟩
  simp [stringValue?, absent, filled?] at filled

end Source

/-- What is inside of the arrays of a manifest. -/
structure Outline where
  platforms : Option (List Cell)
  products : Option (List Cell)
  dependencies : Option (List Cell)
  targets : Option (List Cell)

namespace Outline

/-- What a query says about the elements of an array. -/
def elements {β : Type} (query : Source → Span → Option β) (content : Option (List Cell)) :
    List β :=
  ((content.map Source.piecesOf).getD []).filterMap (Source.read query)

def forms (outline : Outline) : List TargetForm := elements Source.formIn? outline.targets

/-- The number of elements that refer to the name, over the dependencies of all targets. -/
def usageCount (outline : Outline) (name : Text) : Nat :=
  (outline.forms.map (TargetForm.usageCount name)).sum

def manifest (outline : Outline) (name : Text) : Manifest where
  name := name
  platforms := outline.platforms.bind fun content =>
    let found := (elements Source.platformIn? content).foldl
      (fun platforms (platform, version) => Platform.assign platforms platform version) []
    if found.isEmpty then none else some found
  dependencies := elements Source.dependencyIn? outline.dependencies
  targets := outline.forms.map TargetForm.target
  products := elements Source.productIn? outline.products

end Outline

namespace Source

def outline (source : Source) : Outline where
  platforms := source.platformsSpan?.map source.cellsIn
  products := source.productsSpan?.map source.cellsIn
  dependencies := source.dependenciesSpan?.map source.cellsIn
  targets := source.targetsSpan?.map source.cellsIn

theorem exists_frame {source : Source} {label : Text} {excluded : List Span} {span : Span}
    (found : source.labeledArray? label excluded = some span) :
    ∃ (frame : Frame) (inner : List Cell), source = frame.fill inner ∧ Balanced inner ∧
      span = frame.span inner := by
  rw [labeledArray?_eq] at found
  obtain ⟨site, -, array⟩ := Option.bind_eq_some_iff.mp found
  rw [arrayBehind?] at array
  split at array
  · rename_i opens
    obtain ⟨opening, inner, closing, behind, whole, pairs, balanced, rfl, -⟩ :=
      insideBefore?_eq_some array
    generalize source.skipTrivia site.position source.length = position at *
    have before : position < source.length := by
      simp only [Bool.and_eq_true, decide_eq_true_eq] at opens
      exact opens.1
    have size : (source.cells.take position).length = position := by
      rw [List.length_take]
      exact Nat.min_eq_left (Nat.le_of_lt before)
    refine ⟨⟨source.cells.take position, opening, closing, behind, pairs⟩, inner, ?_, balanced, ?_⟩
    · rw [Frame.fill, ← whole, List.take_append_drop]
    · simp [Frame.span, size]
  · cases array

theorem filterMap_elements {β : Type} {query : Source → Span → Option β} (loc : Local query)
    {source : Source} {label : Text} {excluded : List Span} {span : Span}
    (found : source.labeledArray? label excluded = some span) :
    (source.elements span).filterMap (query source) =
      (piecesOf (source.cellsIn span)).filterMap (read query) := by
  obtain ⟨frame, inner, rfl, balanced, rfl⟩ := exists_frame found
  have cells : (frame.fill inner).cellsIn (frame.span inner) = inner :=
    (frame.shows_fill inner).cellsIn
  have whole := loc.elements balanced (frame.shows_fill inner)
  have mapped := congrArg (List.filterMap id) whole
  simp only [List.filterMap_map, Function.id_comp] at mapped
  rw [cells]
  exact mapped

theorem forms_outline (source : Source) :
    source.outline.forms = source.targetCalls.map source.formOf := by
  rw [Outline.forms, outline, targetCalls]
  cases found : source.targetsSpan? with
  | none => rfl
  | some span =>
      have each := filterMap_elements local_formIn? found
      rw [List.map_filterMap]
      exact each.symm

end Source

end SwiftWorkspace
