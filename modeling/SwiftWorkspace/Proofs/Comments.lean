import SwiftWorkspace.Manifest.Reading
import SwiftWorkspace.Proofs.Blanking
import SwiftWorkspace.Proofs.Qualifiers

/-!
# What is read between comments

The name of a package, its targets and its products, and the addresses of its dependencies
are read as if blanks stood in place of the comments.  So is all of the manifest when no
comment stands where a text is taken over as it is written: in the version of a platform
and in a range of versions without quotation marks around it.
-/

namespace SwiftWorkspace

/-- What a dependency is, apart from the version it asks for. -/
def Dependency.unversioned (dependency : Dependency) : DependencyFields :=
  { dependency.toDependencyFields with version := none }

theorem Dependency.unversioned_ofFields? {fields other : DependencyFields}
    (same : { fields with version := none } = { other with version := none }) :
    (ofFields? fields).map unversioned = (ofFields? other).map unversioned := by
  have drop (fields : DependencyFields) :
      (ofFields? fields).map unversioned =
        (ofFields? { fields with version := none }).map unversioned := by
    have addressed : DependencyFields.isAddressed { fields with version := none } =
      fields.isAddressed := rfl
    by_cases here : fields.isAddressed = true
    · rw [ofFields?, ofFields?, dif_pos here, dif_pos (addressed.trans here), Option.map_some,
        Option.map_some]
      simp only [unversioned, DependencyFields.named]
      split <;> rfl
    · rw [ofFields?, ofFields?, dif_neg here, dif_neg (addressed ▸ here)]
  rw [drop fields, drop other, same]

namespace Source

theorem exists_significant_of_mem {depth position : Nat} {current : Option Span} {cells : List Cell}
    {element : Span} (member : element ∈ elementsFrom depth position current cells) :
    (∃ span ∈ current, element.start = span.start) ∨
      ∃ offset cell, element.start = position + offset ∧ cells[offset]? = some cell ∧
        cell.isSignificant := by
  have further {position : Nat} {cell : Cell} {cells : List Cell}
      (found : ∃ offset cell, element.start = position + 1 + offset ∧ cells[offset]? = some cell ∧
        cell.isSignificant) :
      ∃ offset other, element.start = position + offset ∧ (cell :: cells)[offset]? = some other ∧
        other.isSignificant := by
    obtain ⟨offset, other, place, there, significant⟩ := found
    exact ⟨offset + 1, other, by omega, there, significant⟩
  fun_induction elementsFrom depth position current cells with
  | case1 depth position current => exact .inl ⟨element, Option.mem_toList.mp member, rfl⟩
  | case2 depth position current cell cells _ ih =>
      rcases List.mem_append.mp member with here | member
      · exact .inl ⟨element, Option.mem_toList.mp here, rfl⟩
      · rcases ih member with ⟨span, held, -⟩ | found
        · cases held
        · exact .inr (further found)
  | case3 depth position current cell cells _ significant ih =>
      rcases ih member with ⟨span, held, place⟩ | found
      · obtain rfl := Option.some.inj held
        cases current with
        | some span => exact .inl ⟨span, rfl, place⟩
        | none => exact .inr ⟨0, cell, place, rfl, significant⟩
      · exact .inr (further found)
  | case4 depth position current cell cells _ _ ih => exact (ih member).imp_right further

theorem isSignificant_of_mem_elements {source : Source} {span element : Span}
    (member : element ∈ source.elements span) :
    ∃ cell, source.at? element.start = some cell ∧ cell.isSignificant := by
  rcases exists_significant_of_mem member with ⟨_, held, -⟩ |
    ⟨offset, cell, place, there, significant⟩
  · cases held
  · refine ⟨cell, ?_, significant⟩
    rw [cellsIn, List.getElem?_take, List.getElem?_drop] at there
    rw [place]
    exact (Option.ite_none_right_eq_some.mp there).2

theorem isTrivia_at_skipTrivia {source : Source} {start stop : Nat}
    (early : source.skipTrivia start stop < stop)
    {cell : Cell} (there : source.at? (source.skipTrivia start stop) = some cell) :
    cell.isTrivia = false := by
  have reached : source.skipTrivia start stop =
      start + ((source.cells.drop start).takeWhile Cell.isTrivia).length := by
    rw [skipTrivia] at early ⊢
    omega
  rw [at?, reached, ← List.getElem?_drop, getElem?_length_takeWhile] at there
  have none := List.head?_dropWhile_not Cell.isTrivia (source.cells.drop start)
  rw [there] at none
  exact none

variable {source : Source}

@[simp] theorem at?_uncommented (position : Nat) :
    source.uncommented.at? position = (source.at? position).map Cell.uncommented :=
  List.getElem?_map

@[simp] theorem cellsIn_uncommented (span : Span) :
    source.uncommented.cellsIn span = (source.cellsIn span).map Cell.uncommented := by
  rw [cellsIn, uncommented, ← List.map_drop, ← List.map_take, ← cellsIn]

@[simp] theorem length_uncommented : source.uncommented.length = source.length := List.length_map _

@[simp] theorem skipTrivia_uncommented (start stop : Nat) :
    source.uncommented.skipTrivia start stop = source.skipTrivia start stop := by
  have same : Cell.isTrivia ∘ Cell.uncommented = Cell.isTrivia := funext Cell.isTrivia_uncommented
  rw [skipTrivia, skipTrivia, uncommented, ← List.map_drop, List.takeWhile_map,
    List.length_map, same]

theorem isString_comp_uncommented :
    (fun cell : Cell => decide (cell.kind = .string)) ∘ Cell.uncommented = fun cell =>
      decide (cell.kind = .string) :=
  funext fun cell => decide_eq_decide.mpr cell.kind_uncommented_string

@[simp] theorem stringIn?_uncommented (span : Span) :
    source.uncommented.stringIn? span = source.stringIn? span := by
  cases string : (source.cellsIn span).all (·.kind = .string) with
  | true =>
      have same : source.uncommented.cellsIn span = source.cellsIn span := by
        rw [cellsIn_uncommented]
        refine (List.map_congr_left fun cell member => ?_).trans (List.map_id _)
        have kind := of_decide_eq_true (List.all_eq_true.mp string cell member)
        exact Cell.uncommented_of_ne (by simp [kind])
      rw [stringIn?, stringIn?, textIn, textIn, same]
  | false =>
      have none {source : Source} (other : (source.cellsIn span).all (·.kind = .string) = false) :
          source.stringIn? span = none := by
        rw [stringIn?]
        split
        · rfl
        · rename_i cells
          rw [cells] at other
          simp only [other, Bool.and_false, Bool.false_eq_true, if_false]
      rw [none string, none]
      rw [cellsIn_uncommented, List.all_map, isString_comp_uncommented, string]

@[simp] theorem literalAt?_uncommented (position : Nat) :
    source.uncommented.literalAt? position = source.literalAt? position := by
  rw [literalAt?, literalAt?, at?_uncommented]
  cases source.at? position with
  | none => rfl
  | some first =>
      by_cases string : first.kind = .string
      · have same : first.uncommented = first := Cell.uncommented_of_ne (by simp [string])
        simp only [Option.map_some, same, uncommented, ← List.map_drop, List.takeWhile_map,
          List.length_map, isString_comp_uncommented]
      · have other : first.uncommented.kind ≠ .string :=
          fun same => string (first.kind_uncommented_string.mp same)
        simp [string, other]

theorem hasCharAt_uncommented {position : Nat}
    (outside : ∀ cell ∈ source.at? position, cell.kind ≠ .comment)
    (char : Char) :
    source.uncommented.hasCharAt position char = source.hasCharAt position char := by
  rw [hasCharAt, hasCharAt, at?_uncommented]
  cases there : source.at? position with
  | none => rfl
  | some cell => rw [Option.map_some, Cell.uncommented_of_ne (outside cell there)]

end Source

def Opens (cell : Option Cell) : Prop := ∀ found ∈ cell, found.kind = .comment → found.char = '/'

/-- An identifier that does not begin inside of a comment ends in front of one. -/
theorem identifierChars_uncommented {cells : List Cell} (joined : List.IsChain Joined cells)
    (opens : Opens cells.head?) :
    ((cells.map Cell.uncommented).takeWhile fun cell => Source.isIdentifierChar cell.char) =
      cells.takeWhile fun cell => Source.isIdentifierChar cell.char := by
  induction cells with
  | nil => rfl
  | cons cell cells ih =>
      by_cases comment : cell.kind = .comment
      · have slash : Source.isIdentifierChar cell.char = false := by
          rw [opens cell rfl comment]
          decide
        have blank : Source.isIdentifierChar ' ' = false := by decide
        simp [Cell.uncommented_of_comment comment, slash, blank]
      · have next : Opens cells.head? := by
          intro found there isComment
          obtain ⟨rest, rfl⟩ := List.head?_eq_some_iff.mp there
          exact joined.rel.slashed isComment comment
        rw [List.map_cons, Cell.uncommented_of_ne comment, List.takeWhile_cons, List.takeWhile_cons,
          ih joined.of_cons next]

theorem identifierOf?_uncommented {cells : List Cell} (joined : List.IsChain Joined cells)
    (opens : Opens cells.head?) :
    Source.identifierOf? (cells.map Cell.uncommented) = Source.identifierOf? cells := by
  have run := identifierChars_uncommented joined opens
  cases cells with
  | nil => rfl
  | cons cell cells =>
      by_cases comment : cell.kind = .comment
      · have slash : Source.isIdentifierStart cell.char = false := by
          rw [opens cell rfl comment]
          decide
        have blank : Source.isIdentifierStart ' ' = false := by decide
        simp [Source.identifierOf?, Cell.uncommented_of_comment comment, slash, blank]
      · rw [List.map_cons, Cell.uncommented_of_ne comment] at run ⊢
        rw [Source.identifierOf?, Source.identifierOf?, run]

namespace Source

section Parts

variable {source : Source} (alike : Alike source source.uncommented)
include alike

theorem identifierAt?_uncommented {position : Nat} (opens : Opens (source.at? position)) :
    source.uncommented.identifierAt? position = source.identifierAt? position := by
  obtain ⟨before, _, -, abreast, -, -⟩ := alike.exists_before position
  rw [identifierAt?, identifierAt?, uncommented, ← List.map_drop]
  refine identifierOf?_uncommented abreast.joined.of_cons ?_
  rw [List.head?_drop]
  exact opens

/-- Behind code a comment begins where it stands. -/
theorem opens_behind {position : Nat} {char : Char} (code : source.hasCodeAt position char) :
    Opens (source.at? (position + 1)) := by
  obtain ⟨before, there, here⟩ := (Option.any_eq_true _ _).mp code
  have there' : source.uncommented.at? position = some before.uncommented := by
    rw [at?_uncommented, there, Option.map_some]
  have joined := (alike.abreast.drop there there').joined
  intro cell found comment
  rw [at?, ← List.head?_drop] at found
  obtain ⟨rest, split⟩ := List.head?_eq_some_iff.mp found
  rw [split] at joined
  refine joined.rel.slashed comment ?_
  simp only [Cell.isCodeChar, Cell.isCode, Bool.and_eq_true, decide_eq_true_eq] at here
  simp [here.1]

omit alike in
/-- Behind trivia that end before the end of a range the same character stands. -/
theorem hasCharAt_skipTrivia {start stop : Nat} (early : source.skipTrivia start stop < stop)
    (char : Char) : source.uncommented.hasCharAt (source.skipTrivia start stop) char =
      source.hasCharAt (source.skipTrivia start stop) char := by
  refine hasCharAt_uncommented (fun cell there comment => ?_) char
  have solid := isTrivia_at_skipTrivia early there
  simp [Cell.isTrivia, comment] at solid

theorem callIn?_uncommented (span : Span) :
    source.uncommented.callIn? span = source.callIn? span := by
  have dot : isBlank '.' = false := by decide
  rw [callIn?, callIn?, ← alike.hasCodeAt_eq span.start dot]
  cases code : source.hasCodeAt span.start '.' with
  | false => simp
  | true =>
      rw [identifierAt?_uncommented alike (opens_behind alike code)]
      cases source.identifierAt? (span.start + 1) with
      | none => rfl
      | some keyword =>
          simp only [skipTrivia_uncommented, ← alike.insideBefore?_eq]
          by_cases late : span.stop ≤ source.skipTrivia (span.start + 1 + keyword.length) span.stop
          · simp [late]
          · rw [hasCharAt_skipTrivia (Nat.lt_of_not_le late)]

theorem argumentOf_uncommented {element : Span} {cell : Cell}
    (there : source.at? element.start = some cell)
    (significant : cell.isSignificant) :
    source.uncommented.argumentOf element = source.argumentOf element := by
  have colon : isBlank ':' = false := by decide
  have opens : Opens (source.at? element.start) := by
    intro found held comment
    obtain rfl := Option.some.inj (there.symm.trans held)
    simp [Cell.isSignificant, Cell.isCode, comment] at significant
  simp only [argumentOf, identifierAt?_uncommented alike opens, skipTrivia_uncommented,
    ← alike.hasCodeAt_eq _ colon]

theorem arguments_uncommented (span : Span) :
    source.uncommented.arguments span = source.arguments span := by
  rw [arguments, arguments, ← alike.elements_eq]
  refine List.map_congr_left fun element member => ?_
  obtain ⟨cell, there, significant⟩ := isSignificant_of_mem_elements member
  exact argumentOf_uncommented alike there significant

theorem labeledString?_uncommented (span : Span) (label : Text) :
    source.uncommented.labeledString? span label = source.labeledString? span label := by
  have strings : source.uncommented.stringIn? = source.stringIn? := funext stringIn?_uncommented
  rw [labeledString?, labeledString?, labeledValue?, labeledValue?, labeledArgument?,
    labeledArgument?, arguments_uncommented alike, strings]

theorem stringElements_uncommented (span : Span) :
    source.uncommented.stringElements span = source.stringElements span := by
  have strings : source.uncommented.stringIn? = source.stringIn? := funext stringIn?_uncommented
  rw [stringElements, stringElements, ← alike.elements_eq, strings]

omit alike in
theorem noComment_value {span : Span} {argument : Argument}
    (member : argument ∈ source.arguments span)
    (filled : argument.value.isEmpty = false) :
    ∀ cell ∈ source.at? argument.value.start, cell.kind ≠ .comment := by
  obtain ⟨element, inside, rfl⟩ := List.mem_map.mp member
  have atStart : ∀ cell ∈ source.at? element.start, cell.kind ≠ .comment := by
    obtain ⟨first, there, significant⟩ := isSignificant_of_mem_elements inside
    intro cell held comment
    obtain rfl := Option.some.inj (there.symm.trans held)
    simp [Cell.isSignificant, Cell.isCode, comment] at significant
  rw [argumentOf] at filled ⊢
  split
  · exact atStart
  · rename_i label named
    simp only [named] at filled
    dsimp only
    split
    · rename_i colon
      rw [if_pos colon] at filled
      have early : source.skipTrivia
          (source.skipTrivia (element.start + label.length) element.stop + 1) element.stop <
          element.stop := by simpa [Span.isEmpty] using filled
      intro cell held comment
      have solid := isTrivia_at_skipTrivia early held
      simp [Cell.isTrivia, comment] at solid
    · exact atStart

theorem argumentArray?_uncommented (span : Span) (label : Text) :
    source.uncommented.argumentArray? span label = source.argumentArray? span label := by
  rw [argumentArray?, argumentArray?, labeledValue?, labeledValue?, labeledArgument?,
    labeledArgument?, arguments_uncommented alike]
  cases found : (source.arguments span).find? (·.label = some label) with
  | none => rfl
  | some argument =>
      rw [Option.map_some, Option.bind_some, Option.bind_some, arrayOf?, arrayOf?,
        ← alike.closing?_eq]
      cases empty : argument.value.isEmpty with
      | true => rfl
      | false =>
          rw [hasCharAt_uncommented (noComment_value (List.mem_of_find?_eq_some found) empty)]

end Parts

section Manifests

variable {source : Source} (alike : Alike source source.uncommented)
include alike

theorem packageName_uncommented : source.uncommented.packageName = source.packageName := by
  have strings : source.uncommented.stringIn? = source.stringIn? := funext stringIn?_uncommented
  rw [packageName, packageName, whole, whole, ← alike.labelSites_eq (isLabel_field .name),
    length_uncommented]
  simp only [skipTrivia_uncommented, literalAt?_uncommented, strings]

theorem targets_uncommented : source.uncommented.targets = source.targets := by
  have calls : source.uncommented.targetCalls = source.targetCalls := by
    have each : source.uncommented.targetCallOf? = source.targetCallOf? := by
      funext element
      rw [targetCallOf?, targetCallOf?, callIn?_uncommented alike]
      simp only [labeledString?_uncommented alike]
    rw [targetCalls, targetCalls, ← alike.targetsSpan?_eq]
    cases source.targetsSpan? with
    | none => rfl
    | some span => simp only [each, alike.elements_eq]
  rw [targets, targets, calls]
  refine List.map_congr_left fun target _ => ?_
  rw [targetOf, targetOf, labeledString?_uncommented alike, targetDependencies?,
    targetDependencies?, argumentArray?_uncommented alike]
  simp only [stringElements_uncommented alike]

theorem products_uncommented : source.uncommented.products = source.products := by
  have each : source.uncommented.productIn? = source.productIn? := by
    funext element
    rw [productIn?, productIn?, callIn?_uncommented alike]
    simp only [labeledString?_uncommented alike, argumentArray?_uncommented alike,
      stringElements_uncommented alike]
  rw [products, products, ← alike.productsSpan?_eq]
  cases source.productsSpan? with
  | none => rfl
  | some span => simp only [each, alike.elements_eq]

end Manifests

def hasComment (source : Source) (span : Span) : Bool :=
  (source.cellsIn span).any (·.kind = .comment)

/-- The versions of platforms that are no literals: what is written there is taken over. -/
def writtenTokens (source : Source) : List Span :=
  (source.platformsSpan?.toList.flatMap source.elements).filterMap fun element => do
    let call ← source.callIn? element
    let first ← (source.elements call.arguments).head?
    if source.stringIn? first = none then some first else none

/--
The ranges of versions that dependencies ask for without a label: what is written there is taken
over.
-/
def writtenRanges (source : Source) : List Span :=
  (source.dependenciesSpan?.toList.flatMap source.elements).flatMap fun element =>
    (source.callIn? element).toList.flatMap fun call =>
      ((source.arguments call.arguments).filter fun argument =>
        argument.label = none && source.callIn? argument.value = none &&
          (source.textIn argument.value).contains ['.', '.']).map Argument.value

theorem textIn_uncommented {source : Source} {span : Span}
    (quiet : source.hasComment span = false) :
    source.uncommented.textIn span = source.textIn span := by
  rw [textIn, textIn, cellsIn_uncommented]
  refine congrArg (List.map Cell.char)
    ((List.map_congr_left fun cell member => ?_).trans (List.map_id _))
  have noComment := List.any_eq_false.mp quiet cell member
  exact Cell.uncommented_of_ne (by simpa using noComment)

theorem contains_of_uncommented {source : Source} {span : Span} {part : Text} (solid : ' ' ∉ part)
    (found : (source.uncommented.textIn span).contains part) :
    (source.textIn span).contains part := by
  have faded : Kind.Faded (source.textIn span) (source.uncommented.textIn span) := by
    rw [textIn, textIn, cellsIn_uncommented, List.map_map]
    refine List.forall₂_map_left_iff.mpr
      (List.forall₂_map_right_iff.mpr (List.forall₂_same.mpr fun cell _ => ?_))
    by_cases comment : cell.kind = .comment
    · exact .inr (congrArg Cell.char (Cell.uncommented_of_comment comment))
    · exact .inl (congrArg Cell.char (Cell.uncommented_of_ne comment))
  obtain ⟨⟨before, behind⟩, broken⟩ := Option.isSome_iff_exists.mp found
  have rest := List.forall₂_drop before.length faded
  rw [Requirement.breakAt?_eq_some broken, List.drop_left] at rest
  obtain ⟨tail, there⟩ := Kind.Faded.startsWith part solid rest rfl
  refine Text.contains_of_infix ⟨(source.textIn span).take before.length, tail, ?_⟩
  rw [List.append_assoc, ← there, List.take_append_drop]

section Dependencies

variable {source : Source} (alike : Alike source source.uncommented)
include alike

/--
The version that an argument asks for is the same, if there is no comment in a range taken over.
-/
theorem positionalVersion?_uncommented {value : Span}
    (quiet : source.callIn? value = none → (source.textIn value).contains ['.', '.'] →
      source.hasComment value = false) :
    source.uncommented.positionalVersion? value = source.positionalVersion? value := by
  rw [positionalVersion?, positionalVersion?, callIn?_uncommented alike]
  cases nested : source.callIn? value with
  | some call => simp only [labeledString?_uncommented alike, stringElements_uncommented alike]
  | none =>
      cases dotted : (source.textIn value).contains ['.', '.'] with
      | true => simp only [textIn_uncommented (quiet nested dotted), dotted]
      | false =>
          have undotted : (source.uncommented.textIn value).contains ['.', '.'] = false :=
            Bool.eq_false_iff.mpr
              fun found => by simp [contains_of_uncommented (by decide) found] at dotted
          simp only [dotted, undotted]
          rfl

theorem qualify_uncommented {argument : Argument}
    (quiet : argument.label = none → source.callIn? argument.value = none →
      (source.textIn argument.value).contains ['.', '.'] → source.hasComment argument.value = false)
    (qualifiers : Qualifiers) :
    source.uncommented.qualify qualifiers argument = source.qualify qualifiers argument := by
  rw [qualify, qualify]
  cases label : argument.label with
  | none => simp only [positionalVersion?_uncommented alike (quiet label)]
  | some label => simp only [stringIn?_uncommented]

theorem qualifiers_uncommented {span : Span}
    (quiet : ∀ argument ∈ source.arguments span, argument.label = none →
      source.callIn? argument.value = none →
      (source.textIn argument.value).contains ['.', '.'] →
        source.hasComment argument.value = false) :
    source.uncommented.qualifiers span = source.qualifiers span := by
  rw [qualifiers, qualifiers, arguments_uncommented alike]
  exact List.foldl_ext _ _ _ fun qualifiers argument member =>
    qualify_uncommented alike (quiet argument member) qualifiers

theorem unversioned_qualifiers_uncommented (span : Span) :
    (source.uncommented.qualifiers span).branch = (source.qualifiers span).branch ∧
      (source.uncommented.qualifiers span).commit = (source.qualifiers span).commit := by
  rw [qualifiers, qualifiers, arguments_uncommented alike]
  refine List.foldl_rel (r := fun left right : Qualifiers => left.branch = right.branch ∧
    left.commit = right.commit) ⟨rfl, rfl⟩ ?_
  rintro argument - left right ⟨branch, commit⟩
  rw [qualify, qualify]
  cases argument.label with
  | none =>
      cases filled? (source.uncommented.positionalVersion? argument.value) <;>
        cases filled? (source.positionalVersion? argument.value) <;> exact ⟨branch, commit⟩
  | some label =>
      simp only [stringIn?_uncommented]
      split_ifs
      · exact ⟨branch, commit⟩
      · exact ⟨rfl, commit⟩
      · exact ⟨branch, rfl⟩
      · exact ⟨branch, commit⟩

/-- The dependency that an element declares is the same apart from its version. -/
theorem unversioned_dependencyIn?_uncommented (element : Span) :
    (source.uncommented.dependencyIn? element).map Dependency.unversioned =
      (source.dependencyIn? element).map Dependency.unversioned := by
  rw [dependencyIn?, dependencyIn?, callIn?_uncommented alike]
  cases source.callIn? element with
  | none => rfl
  | some call =>
      obtain ⟨branch, commit⟩ := unversioned_qualifiers_uncommented alike call.arguments
      simp only [labeledString?_uncommented alike, branch, commit]
      split
      · rfl
      · split
        · exact Dependency.unversioned_ofFields? rfl
        · rfl

/--
The dependency that an element declares is the same, if there is no comment in a range taken
over.
-/
theorem dependencyIn?_uncommented {element : Span}
    (quiet : ∀ call ∈ source.callIn? element, ∀ argument ∈ source.arguments call.arguments,
      argument.label = none →
      source.callIn? argument.value = none → (source.textIn argument.value).contains ['.', '.'] →
        source.hasComment argument.value = false) :
    source.uncommented.dependencyIn? element = source.dependencyIn? element := by
  rw [dependencyIn?, dependencyIn?, callIn?_uncommented alike]
  cases called : source.callIn? element with
  | none => rfl
  | some call =>
      simp only [labeledString?_uncommented alike, qualifiers_uncommented alike (quiet call called)]

theorem unversioned_dependencies_uncommented :
    source.uncommented.dependencies.map Dependency.unversioned =
      source.dependencies.map Dependency.unversioned := by
  rw [dependencies, dependencies, ← alike.dependenciesSpan?_eq]
  cases source.dependenciesSpan? with
  | none => rfl
  | some span =>
      simp only [List.map_filterMap, ← alike.elements_eq,
        unversioned_dependencyIn?_uncommented alike]

theorem dependencies_uncommented
    (quiet : ∀ span ∈ source.writtenRanges, source.hasComment span = false) :
    source.uncommented.dependencies = source.dependencies := by
  rw [dependencies, dependencies, ← alike.dependenciesSpan?_eq]
  cases array : source.dependenciesSpan? with
  | none => rfl
  | some span =>
      simp only [← alike.elements_eq]
      refine List.filterMap_congr fun element inside => dependencyIn?_uncommented alike ?_
      intro call called argument member label nested dotted
      refine quiet argument.value ?_
      simp only [writtenRanges, array, Option.toList_some, List.flatMap_singleton]
      refine List.mem_flatMap.mpr
        ⟨element, inside, List.mem_flatMap.mpr ⟨call, Option.mem_toList.mpr called, ?_⟩⟩
      refine List.mem_map_of_mem (List.mem_filter.mpr ⟨member, ?_⟩)
      simp [label, nested, dotted]

theorem platforms?_uncommented
    (quiet : ∀ span ∈ source.writtenTokens, source.hasComment span = false) :
    source.uncommented.platforms? = source.platforms? := by
  have each {element : Span}
      (inside : element ∈ source.platformsSpan?.toList.flatMap source.elements) :
      source.uncommented.platformIn? element = source.platformIn? element := by
    rw [platformIn?, platformIn?, callIn?_uncommented alike]
    cases called : source.callIn? element with
    | none => rfl
    | some call =>
        simp only [← alike.elements_eq, stringIn?_uncommented, Option.bind_eq_bind,
          Option.bind_some]
        cases first : (source.elements call.arguments).head? with
        | none => rfl
        | some token =>
            rw [Option.bind_some, Option.bind_some]
            cases literal : source.stringIn? token with
            | some value => rfl
            | none =>
                rw [textIn_uncommented (quiet token ?_)]
                refine List.mem_filterMap.mpr ⟨element, inside, ?_⟩
                simp [called, first, literal]
  rw [platforms?, platforms?, platformsSpan?, platformsSpan?,
    ← alike.labeledArray?_eq (isLabel_field .platforms)]
  cases array : source.labeledArray? Field.platforms.label [] with
  | none => rfl
  | some span =>
      rw [platformsSpan?, array] at each
      have same : (source.elements span).filterMap source.uncommented.platformIn? =
          (source.elements span).filterMap source.platformIn? :=
        List.filterMap_congr fun element inside => each (by simpa using inside)
      simp only [Option.bind_eq_bind, Option.bind_some, ← alike.elements_eq, same]

end Dependencies

end Source

/--
With blanks in place of its comments a text is read as a manifest of the same name, targets and
products, with the same dependencies apart from their versions.  It is the same manifest when no
comment stands where a text is taken over as it is written.
-/
theorem read_blankComments (text : Text) :
    (Manifest.ofText (blankComments text)).name = (Manifest.ofText text).name ∧
      (Manifest.ofText (blankComments text)).targets = (Manifest.ofText text).targets ∧
      (Manifest.ofText (blankComments text)).products = (Manifest.ofText text).products ∧
      (Manifest.ofText (blankComments text)).dependencies.map Dependency.unversioned =
        (Manifest.ofText text).dependencies.map Dependency.unversioned ∧
      ((∀ span ∈ (Source.ofText text).writtenTokens ++ (Source.ofText text).writtenRanges,
          (Source.ofText text).hasComment span = false) →
        Manifest.ofText (blankComments text) = Manifest.ofText text) := by
  have alike := alike_uncommented text
  rw [Manifest.ofText, ofText_blankComments, Manifest.ofText]
  refine ⟨Source.packageName_uncommented alike, Source.targets_uncommented alike,
    Source.products_uncommented alike,
    Source.unversioned_dependencies_uncommented alike, fun quiet => ?_⟩
  rw [Manifest.ofSource, Manifest.ofSource, Source.packageName_uncommented alike,
    Source.targets_uncommented alike, Source.products_uncommented alike,
    Source.platforms?_uncommented alike fun span member => quiet span
      (List.mem_append_left _ member),
    Source.dependencies_uncommented alike fun span member =>
      quiet span (List.mem_append_right _ member)]

/-- A manifest with comments, none of them in a version. -/
def annotated : Text :=
  "Package(name /* of it */: \"A\", platforms: [/* new */ .iOS(.v13)], dependencies: [.package(url: \"h/o\", // any\n\"1\"..<\"2\")])".toList

/-- Its comments can be left out. -/
theorem read_blankComments_annotated :
    (∀ span ∈ (Source.ofText annotated).writtenTokens ++ (Source.ofText annotated).writtenRanges,
        (Source.ofText annotated).hasComment span = false) ∧
      Manifest.ofText (blankComments annotated) = Manifest.ofText annotated := by
  have quiet : ∀ span ∈ (Source.ofText annotated).writtenTokens ++ (Source.ofText
      annotated).writtenRanges, (Source.ofText annotated).hasComment span = false := by
    decide +kernel
  obtain ⟨-, -, -, -, same⟩ := read_blankComments annotated
  exact ⟨quiet, same quiet⟩

end SwiftWorkspace
