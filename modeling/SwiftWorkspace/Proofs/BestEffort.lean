import SwiftWorkspace.Lookup.Reading
import SwiftWorkspace.Proofs.Lookups
import SwiftWorkspace.Proofs.Turns

/-!
# Readings that need no default

Nothing is missing where a manifest is read by position: the queries find what they look up, an
item is taken only of a list that has one, a keyword is known when its kind is asked for, and a
dependency has its URL or its path and not both.  So each part of the manifest is read, and
whatever the text, none of the defaults stands for a part that could not be read.
-/

namespace SwiftWorkspace

theorem filled?_eq_some_iff {found : Option Text} {value : Text} :
    filled? found = some value ↔ found = some value ∧ value ≠ [] := by
  rw [filled?, Option.filter_eq_some_iff]
  simp

/-- What a text is split into has a last part. -/
theorem Reference.findCanonicalName_eq (reference : Text) :
    findCanonicalName reference = .ok (canonicalName reference) := by
  rw [findCanonicalName, canonicalName]
  generalize reference.strip = candidate
  split
  · rfl
  · split
    · rfl
    · split
      · rw [directoryName, Lookup.last]
        cases last :
          (List.splitOn '/' (Text.trimEnd (· = '/')
          (Text.replace '\\' '/' candidate))).getLast? with
        | none => exact absurd (List.getLast?_eq_none_iff.mp last) (List.splitOn_ne_nil _ _)
        | some segment => rfl
      · rfl

theorem Dependency.ofFields_bind {fields : DependencyFields} (addressed : fields.isAddressed) :
    (do pure (some (← ofFields fields)) : Lookup (Option Dependency)) = .ok (ofFields? fields) := by
  rw [ofFields, ofFields?, dif_pos addressed, dif_pos addressed]
  by_cases unnamed : fields.name.isEmpty <;>
    simp only [Reference.findCanonicalName_eq, DependencyFields.named, unnamed, Lookup.ok_bind,
      Lookup.pure_eq_ok, if_true, Bool.false_eq_true, if_false]

namespace Source

variable {source : Source} {element span : Span}

theorem nameBehind?_tables (site : LabelSite) : source.tables.nameBehind? site = .ok (do
    let literal ← source.literalAt? (source.skipTrivia site.position source.length)
    filled? (source.stringIn? literal)) := by
  rw [Tables.nameBehind?, length_tables, skipTrivia_tables (Nat.le_refl _), Lookup.ok_bind,
    literalAt?_tables, Lookup.ok_bind]
  cases found : source.literalAt? (source.skipTrivia site.position source.length) with
  | none => rfl
  | some literal =>
      dsimp only
      rw [stringIn?_tables (stop_le_of_literalAt? found)]
      rfl

theorem packageName_tables : source.tables.packageName = .ok source.packageName := by
  rw [Tables.packageName, labelSites_tables, Lookup.ok_bind]
  dsimp only
  rw [Lookup.findSomeM?_eq_ok fun site _ => nameBehind?_tables site]
  rfl

theorem platformIn?_tables (within : element.stop ≤ source.length) :
    source.tables.platformIn? element = .ok (source.platformIn? element) := by
  rw [Tables.platformIn?, callIn?_tables within, Lookup.ok_bind, platformIn?]
  cases source.callIn? element with
  | none => rfl
  | some call =>
      dsimp only
      rw [elements_tables, Lookup.ok_bind]
      cases elements_eq : source.elements call.arguments with
      | nil => simp [elements_eq]
      | cons first rest =>
          have member : first ∈ source.elements call.arguments := elements_eq ▸ List.mem_cons_self
          simp only [Lookup.item, List.isEmpty_cons, Bool.false_eq_true, if_false,
            List.getElem?_cons_zero,
            Lookup.ok_bind, stringIn?_tables (stop_le_of_mem_elements member), textIn_tables,
              Option.bind_eq_bind,
            Option.bind_some, elements_eq, List.head?_cons]
          generalize (source.stringIn? first).getD _ = token
          cases token <;> rfl

theorem platforms?_tables : source.tables.platforms? = .ok source.platforms? := by
  rw [Tables.platforms?, labeledArray?_tables, Lookup.ok_bind, platforms?, platformsSpan?]
  cases source.labeledArray? Field.platforms.label [] with
  | none => rfl
  | some span =>
      dsimp only
      rw [elements_tables, Lookup.ok_bind,
        Lookup.filterMapM_eq_ok fun element member =>
          platformIn?_tables (stop_le_of_mem_elements member)]
      rfl

theorem positionalVersion?_tables (within : span.stop ≤ source.length) :
    source.tables.positionalVersion? span = .ok (source.positionalVersion? span) := by
  rw [Tables.positionalVersion?, callIn?_tables within, Lookup.ok_bind, positionalVersion?]
  cases source.callIn? span with
  | none => rw [textIn_tables]; rfl
  | some nested =>
      dsimp only
      rw [labeledString?_tables, Lookup.ok_bind, stringElements_tables]
      cases filled? (source.labeledString? nested.arguments "from".toList) with
      | some version => rfl
      | none => cases source.stringElements nested.arguments <;> rfl

theorem qualify_tables {argument : Argument} (within : argument.value.stop ≤ source.length)
    (qualifiers : Qualifiers) :
    source.tables.qualify qualifiers argument = .ok (source.qualify qualifiers argument) := by
  rw [Tables.qualify, positionalVersion?_tables within, stringIn?_tables within, qualify]
  cases argument.label with
  | none => 
      simp only [Lookup.ok_bind]
      cases filled? (source.positionalVersion? argument.value) <;> rfl
  | some label =>
      dsimp only
      split
      · rfl
      · split
        · rfl
        · split <;> rfl

theorem qualifiers_tables : source.tables.qualifiers span = .ok (source.qualifiers span) := by
  rw [Tables.qualifiers, arguments_tables, Lookup.ok_bind]
  exact Lookup.foldlM_eq_ok fun qualifiers argument member =>
    qualify_tables (stop_le_of_mem_arguments member) qualifiers

theorem dependencyIn?_tables (within : element.stop ≤ source.length) :
    source.tables.dependencyIn? element = .ok (source.dependencyIn? element) := by
  rw [Tables.dependencyIn?, callIn?_tables within, Lookup.ok_bind, dependencyIn?]
  cases source.callIn? element with
  | none => rfl
  | some call =>
      dsimp only
      by_cases package : call.keyword = "package".toList
      · rw [if_neg (not_not_intro package), if_neg (not_not_intro package)]
        simp only [labeledString?_tables, Lookup.ok_bind, qualifiers_tables]
        cases url_eq : filled? (source.labeledString? call.arguments "url".toList) with
        | some url =>
            have filled := (filled?_eq_some_iff.mp url_eq).2
            exact Dependency.ofFields_bind (by simp [DependencyFields.isAddressed, filled?, filled])
        | none =>
            cases path_eq : filled? (source.labeledString? call.arguments "path".toList) with
            | none => rfl
            | some path =>
                have filled := (filled?_eq_some_iff.mp path_eq).2
                exact Dependency.ofFields_bind
                  (by simp [DependencyFields.isAddressed, filled?, filled])
      · rw [if_pos package, if_pos package]
        rfl

theorem dependenciesSpan?_tables :
    source.tables.dependenciesSpan? = .ok source.dependenciesSpan? := by
  simp only [Tables.dependenciesSpan?, labeledArray?_tables, Lookup.ok_bind]
  rfl

theorem dependencies_tables : source.tables.dependencies = .ok source.dependencies := by
  rw [Tables.dependencies, dependenciesSpan?_tables, Lookup.ok_bind, dependencies]
  cases source.dependenciesSpan? with
  | none => rfl
  | some span =>
      dsimp only
      rw [elements_tables, Lookup.ok_bind]
      exact Lookup.filterMapM_eq_ok fun element member =>
        dependencyIn?_tables (stop_le_of_mem_elements member)

theorem kind_of_targetCallOf? {target : TargetCall}
    (found : source.targetCallOf? element = some target) :
    TargetKind.ofKeyword target.call.keyword = .ok target.kind := by
  obtain ⟨call, -, found⟩ := Option.bind_eq_some_iff.mp found
  obtain ⟨kind, known, found⟩ := Option.bind_eq_some_iff.mp found
  obtain ⟨name, -, found⟩ := Option.bind_eq_some_iff.mp found
  obtain rfl := Option.some.inj found
  rw [TargetKind.ofKeyword, known]

theorem targetCallOf?_tables (within : element.stop ≤ source.length) :
    source.tables.targetCallOf? element =
    .ok ((source.targetCallOf? element).map fun target => (target.call, target.name)) := by
  rw [Tables.targetCallOf?, callIn?_tables within, Lookup.ok_bind, targetCallOf?]
  cases source.callIn? element with
  | none => rfl
  | some call =>
      simp only [labeledString?_tables, Lookup.ok_bind, Option.bind_eq_bind, Option.bind_some]
      cases TargetKind.ofKeyword? call.keyword with
      | none => rfl
      | some kind => cases filled? (source.labeledString? call.arguments Field.name.label) <;> rfl

@[simp] theorem listed_tables (call : Call) (label : Text) : source.tables.listed call label =
    .ok (match source.argumentArray? call.arguments label with
      | none => []
      | some span => source.stringElements span) := by
  rw [Tables.listed, argumentArray?_tables, Lookup.ok_bind]
  cases source.argumentArray? call.arguments label with
  | none => rfl
  | some span => exact stringElements_tables

theorem targetOf_tables {target : TargetCall}
    (known : TargetKind.ofKeyword target.call.keyword = .ok target.kind) :
    source.tables.targetOf (target.call, target.name) = .ok (source.targetOf target) := by
  simp only [Tables.targetOf, listed_tables, known, Lookup.ok_bind, labeledString?_tables]
  rfl

theorem targets_tables : source.tables.targets = .ok source.targets := by
  rw [Tables.targets, labeledArray?_tables, Lookup.ok_bind, targets, targetCalls, targetsSpan?]
  cases source.labeledArray? Field.targets.label [] with
  | none => rfl
  | some span =>
      dsimp only
      rw [elements_tables, Lookup.ok_bind,
        Lookup.filterMapM_eq_ok fun element member => targetCallOf?_tables
          (stop_le_of_mem_elements member),
        Lookup.ok_bind, ← List.map_filterMap, List.mapM_map]
      refine Lookup.mapM_eq_ok fun target member => ?_
      obtain ⟨element, -, found⟩ := List.mem_filterMap.mp member
      exact targetOf_tables (kind_of_targetCallOf? found)

theorem productIn?_tables (within : element.stop ≤ source.length) :
    source.tables.productIn? element = .ok (source.productIn? element) := by
  rw [Tables.productIn?, callIn?_tables within, Lookup.ok_bind, productIn?]
  cases source.callIn? element with
  | none => rfl
  | some call =>
      simp only [labeledString?_tables, Lookup.ok_bind, Option.bind_eq_bind, Option.bind_some,
        ProductKind.ofKeyword]
      cases ProductKind.ofKeyword? call.keyword with
      | none => rfl
      | some kind =>
          cases filled? (source.labeledString? call.arguments Field.name.label) with
          | none => rfl
          | some name =>
              simp only [listed_tables, Lookup.ok_bind]
              rfl

theorem products_tables : source.tables.products = .ok source.products := by
  rw [Tables.products, labeledArray?_tables, Lookup.ok_bind, products, productsSpan?]
  cases source.labeledArray? Field.products.label [] with
  | none => rfl
  | some span =>
      dsimp only
      rw [elements_tables, Lookup.ok_bind]
      exact Lookup.filterMapM_eq_ok fun element member =>
        productIn?_tables (stop_le_of_mem_elements member)

theorem manifest_tables : source.tables.manifest = Manifest.ofSource source := by
  rw [Tables.manifest, packageName_tables, platforms?_tables, dependencies_tables, targets_tables,
    products_tables]
  rfl

/-- The text of a source and the kinds that are found by position are its own. -/
theorem tables_ofText (text : Text) : Tables.ofText text = .ok (ofText text).tables := by
  rw [Tables.ofText, Kind.byPosition_eq, Lookup.ok_bind, tables, text_ofText, kinds_ofText]
  rfl

end Source

/--
No reading needs its default.  In every text each character gets exactly one kind and no kind is
looked up in vain; the name, the platforms, the dependencies, the targets and the products are read
without a character, a kind, an item or a keyword that is missing and without a dependency that has
not exactly one address; and so every text is read as a manifest.
-/
theorem readings_complete (text : Text) : ∃ tables, Tables.ofText text = .ok tables ∧
    tables.text = text ∧ tables.kinds = Kind.classify text ∧ tables.kinds.length = text.length ∧
    tables.packageName = .ok (Manifest.ofText text).name ∧
    tables.platforms? = .ok (Manifest.ofText text).platforms ∧
    tables.dependencies = .ok (Manifest.ofText text).dependencies ∧
    tables.targets = .ok (Manifest.ofText text).targets ∧
    tables.products = .ok (Manifest.ofText text).products ∧
    Manifest.readByPosition text = .ok (Manifest.ofText text) := by
  have kinds := Source.kinds_ofText text
  refine ⟨_, Source.tables_ofText text, Source.text_ofText text, kinds, ?_,
    Source.packageName_tables,
    Source.platforms?_tables, Source.dependencies_tables, Source.targets_tables,
      Source.products_tables, ?_⟩
  · exact (congrArg List.length kinds).trans (Kind.length_classify text)
  · rw [Manifest.readByPosition, Source.tables_ofText, Lookup.ok_bind, Source.manifest_tables]
    rfl

end SwiftWorkspace
