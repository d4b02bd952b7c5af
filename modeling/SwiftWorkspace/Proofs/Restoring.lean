import SwiftWorkspace.Proofs.Growth

/-!
# Restoring a manifest

A dependency that is inserted into a manifest and removed again leaves no trace:
each reference is taken out of its array again, and when none is left, so is the
declaration.
-/

namespace SwiftWorkspace

open Kind (Clear chars)

namespace Source

/--
Whether an array is laid out so that a new element can be taken out again without
a trace: nothing at all is inside of it, or no comment in it goes over a line feed,
and its last element has a line of its own, has no comma behind it, or has its
comma right behind it.
-/
def Undoable (source : Source) (array : Span) : Prop :=
  array.start = array.stop ∨
    (∀ cell ∈ source.cellsIn array, cell.kind = .comment → cell.char ≠ '\n') ∧
      ∃ last ∈ (source.elements array).getLast?,
        source.startsLine last.start = true ∨ source.commaAfter? last.stop array.stop = none ∨
          source.commaAfter? last.stop array.stop = some last.stop

/-- Whether the layout of an array is undoable is known from its inside. -/
theorem Undoable.inside {frame : Frame} {inner : List Cell} (balanced : Balanced inner)
    (undoable : (frame.fill inner).Undoable (frame.span inner)) :
    Receptive inner ∧ Reversible inner := by
  rcases undoable with empty | ⟨feeds, last, found, undone⟩
  · obtain rfl : inner = [] := by simpa [Frame.span] using empty
    exact ⟨Quiet.receptive (by simp [Quiet]), .inl rfl⟩
  · obtain ⟨row, valid, rfl⟩ := Row.exists_of_balanced balanced
    rw [frame.cellsIn_span] at feeds
    rw [Frame.span, elements_row valid (frame.shows_fill _)] at found
    rcases List.eq_nil_or_concat row.entries with bare | ⟨front, ⟨padding, piece⟩, entries⟩
    · simp [bare, Row.spansFrom] at found
    · rw [List.concat_eq_append] at entries
      refine ⟨⟨feeds, fun none => ?_⟩, .inr ⟨row, front, padding, piece, valid, rfl, entries, ?_⟩⟩
      · rw [piecesOf_row valid, Row.pieces, entries] at none
        simp at none
      · rw [entries, Row.spansFrom_append, Row.spansFrom, Row.spansFrom,
          List.getLast?_concat] at found
        obtain rfl := Option.some.inj found
        have place : frame.front.length + 1 + (Row.flat front).length + padding.length =
            frame.front.length + 1 + (Row.flat front ++ padding).length := by
          rw [List.length_append, Nat.add_assoc]
        have own : (frame.fill (Row.flat front ++ padding ++ (piece ++ row.rest))).ownLine? _ = _ :=
          frame.ownLine?_fill place
        have cells : row.cells = (Row.flat front ++ padding) ++ (piece ++ row.rest) := by
          simp [Row.cells, entries]
        rw [← cells, ownLine?] at own
        have stands := frame.shows_behind (Row.flat front ++ padding ++ piece) row.rest
        have behind : frame.front.length + 1 + (Row.flat front ++ padding ++ piece).length =
            frame.front.length + 1 + (Row.flat front).length + padding.length + piece.length := by
          simp only [List.length_append]
          omega
        have stop : frame.front.length + 1 + row.cells.length =
            frame.front.length + 1 + (Row.flat front).length + padding.length + piece.length +
              row.rest.length := by
          simp only [cells, List.length_append]
          omega
        rw [List.append_assoc, ← cells, behind] at stands
        have comma := stands.commaAfter?
        rw [← stop] at comma
        simp only [Frame.span, comma] at undone
        rcases undone with starts | bare | tight
        · rw [if_pos starts] at own
          exact .inl (by rw [← own]; rfl)
        · exact .inr (.inl (by simpa using bare))
        · exact .inr (.inr (by simpa using tight))

variable {source : Source} {reference : Text}

theorem Sound.manifest (sound : source.Sound) :
    Manifest.ofText source.text = source.outline.manifest source.packageName := by
  rw [Manifest.ofText, sound.ofText_text, manifest_outline]

theorem Sound.dependencies (sound : source.Sound) : (Manifest.ofText source.text).dependencies =
    Outline.elements dependencyIn? source.outline.dependencies := by
  rw [sound.manifest]
  rfl

theorem Sound.allTargets (sound : source.Sound) :
    Edit.allTargets source.text = source.outline.forms.map TargetForm.name := by
  rw [Edit.allTargets, sound.manifest, Outline.manifest, List.map_map]
  rfl

theorem Sound.ordinaryTargets (sound : source.Sound) : Edit.ordinaryTargets source.text =
    (source.outline.forms.filter (·.kind ≠ .test)).map TargetForm.name := by
  rw [Edit.ordinaryTargets, sound.manifest, Outline.manifest, List.filter_map, List.map_map]
  rfl

structure Declared (source new : Source) (declared : Dependency) : Prop where
  orderly : new.Orderly
  forms : new.outline.forms = source.outline.forms
  dependencies : (Manifest.ofText new.text).dependencies =
    (Manifest.ofText source.text).dependencies ++ [declared]
  removes : ∀ identifier name, declared.isMeantBy identifier name = true →
    (∀ old ∈ (Manifest.ofText source.text).dependencies, old.isMeantBy identifier name = false) →
      Edit.removeDeclarations new.text identifier name = .ok source.text

theorem Sound.removeDeclarations {frame : Frame} {inner : List Cell} {identifier name : Text}
    (sound : (frame.fill inner).Sound)
    (located : (frame.fill inner).dependenciesSpan? = some (frame.span inner))
    (balanced : Balanced inner)
    (meant : ∃ piece ∈ piecesOf inner, read (Edit.isDeclaration · identifier name) piece = true) :
    Edit.removeDeclarations (frame.fill inner).text identifier name =
      .ok ((frame.fill inner).deleteElements (frame.span inner)
        (Edit.isDeclaration (frame.fill inner) identifier name)) := by
  have answers := (local_isDeclaration identifier name).elements balanced (frame.shows_fill inner)
  have some_meant : ((frame.fill inner).elements (frame.span inner)).any
      (Edit.isDeclaration (frame.fill inner) identifier name) = true := by
    rw [Frame.span, any_eq_of_map_eq answers, List.any_eq_true]
    exact meant
  simp only [Edit.removeDeclarations, sound.ofText_text, located, some_meant, if_true]

/-- A declaration that is put into an undoable array can be removed again. -/
theorem Orderly.declare (orderly : source.Orderly) {dependency declared : Dependency}
    {piece : List Cell} (written : dependency.Written piece declared) {span : Span}
    (located : source.dependenciesSpan? = some span) (undoable : source.Undoable span) :
    ∃ new : Source, Edit.declare source.text dependency = .ok new.text ∧
      source.Declared new declared := by
  obtain ⟨frame, inner, rfl, balanced, rfl⟩ := exists_frame located
  obtain ⟨receptive, reversible⟩ := undoable.inside balanced
  obtain ⟨new, more, milder, undoes⟩ := frame.exists_undoes (frame.clear_of_sound orderly.sound)
    receptive reversible written.sturdy .multiline
  obtain ⟨follows, new_located, outline⟩ := frame.orderly_fill_dependencies orderly balanced
    more.balanced more.clear (fun field _ => milder field (written.quiet field)) located
    (milder .dependencies (written.quiet .dependencies))
  have old_dependencies : (Manifest.ofText (frame.fill inner).text).dependencies =
      (piecesOf inner).filterMap (read dependencyIn?) := by
    rw [orderly.sound.dependencies, Source.outline, located, Option.map_some, frame.cellsIn_span]
    rfl
  refine ⟨frame.fill new, ?_, follows.orderly, ?_, ?_, fun identifier name meant others => ?_⟩
  · rw [Edit.declare, orderly.sound.ofText_text, located, ← written.chars]
    exact congrArg Except.ok undoes.appends
  · rw [Outline.forms, Outline.forms, outline]
  · rw [old_dependencies, follows.orderly.sound.dependencies, outline]
    simp only [Outline.elements, Option.map_some, Option.getD_some, more.pieces,
      List.filterMap_append]
    rw [List.filterMap_cons_some written.reads, List.filterMap_nil]
  · have decides (other : List Cell) : read (Edit.isDeclaration · identifier name) other =
        (read dependencyIn? other).any (·.isMeantBy identifier name) := rfl
    have gone : read (Edit.isDeclaration · identifier name) piece = true := by
      rw [decides, written.reads]
      exact meant
    rw [follows.orderly.sound.removeDeclarations new_located more.balanced
      ⟨piece, by simp [more.pieces], gone⟩]
    refine congrArg Except.ok (undoes.deletes _ (local_isDeclaration identifier name) gone ?_)
    intro other inside
    rw [decides]
    cases reads : read dependencyIn? other with
    | none => rfl
    | some old =>
        exact others old (old_dependencies ▸ List.mem_filterMap.mpr ⟨other, inside, reads⟩)

theorem Orderly.exists_grows (orderly : source.Orderly) {target : TargetCall}
    (member : target ∈ source.targetCalls) {span : Span}
    (array : source.targetDependencies? target = some span) (undoable : source.Undoable span)
    (noFeed : '\n' ∉ reference) :
    ∃ inner new, (source.formOf target).dependencies = some inner ∧ Grows reference inner new := by
  obtain ⟨place, array_place, inner, rfl, holds, array_holds, rfl⟩ :=
    exists_dependencies member array
  have sound := orderly.sound
  rw [← place.fill_arrayFrame] at sound undoable
  obtain ⟨receptive, reversible⟩ := undoable.inside array_holds.inside
  obtain ⟨new, more, milder, undoes⟩ := exists_undoes_inline (Frame.clear_of_sound _ sound)
    receptive reversible (sturdy_literal noFeed)
  refine ⟨inner, new, ?_, more, fun field => milder field
    (mentions_literalCells field reference), undoes⟩
  rw [dependencies_formOf, array, Option.map_some, ← place.fill_arrayFrame]
  exact congrArg some (Frame.cellsIn_span ..)

/-- References that were added to some targets are removed again when all targets are visited. -/
theorem Orderly.addToTargets (orderly : source.Orderly) {names : List Text}
    (grow : ∀ name ∈ names, ∃ form ∈ source.outline.forms, form.name = name ∧
      ∃ inner new, form.dependencies = some inner ∧ Grows reference inner new)
    (distinct : names.Nodup) (unused : ∀ form ∈ source.outline.forms,
      form.usageCount reference = 0) :
    ∃ new : Source, Edit.addToTargets source.text names reference = .ok new.text ∧ new.Orderly ∧
      new.outline.dependencies = source.outline.dependencies ∧
      ∃ removed, Edit.removeFromTargets new.text (Edit.allTargets new.text) reference =
        .ok (source.text, removed) := by
  cases located : source.targetsSpan? with
  | none =>
      have forms : source.outline.forms = [] := by
        rw [Outline.forms, outline, located]
        rfl
      obtain rfl : names = [] := by
        refine List.eq_nil_iff_forall_not_mem.mpr fun name member => ?_
        obtain ⟨form, inside, -⟩ := grow name member
        simp [forms] at inside
      refine ⟨source, rfl, orderly, rfl, false, ?_⟩
      rw [orderly.sound.allTargets, forms]
      rfl
  | some span =>
      obtain ⟨targets, rfl, holds⟩ := orderly.exists_targetRow located
      let change (inner : List Cell) : List Cell := Classical.epsilon (Grows reference inner)
      have ready : ∀ name ∈ names, targets.Ready reference change name := by
        intro name member
        obtain ⟨form, inside, named, inner, new, dependencies, grows⟩ := grow name member
        exact ⟨form, inside, named, unused form inside, inner, dependencies,
          Classical.epsilon_spec ⟨new, grows⟩⟩
      have changed := holds.changed_of_ready ready distinct
      have added := holds.changed_nil.addToTargets holds ready (by simp) distinct
      have order : targets.changed (names.reverse ++ []) change = targets.changed names change :=
        TargetRow.changed_congr (by simp)
      rw [TargetRow.changed_nil, order] at added
      have visits : Edit.allTargets (targets.changed names change).source.text =
          targets.source.outline.forms.map TargetForm.name := by
        rw [changed.holds.orderly.sound.allTargets, changed.forms, List.map_map]
        refine List.map_congr_left fun form _ => ?_
        rw [Function.comp_apply]
        split <;> rfl
      have visited : ∀ name ∈ targets.source.outline.forms.map TargetForm.name,
          ∃ form ∈ targets.source.outline.forms, form.name = name ∧
            form.usageCount reference = 0 := by
        intro name member
        obtain ⟨form, inside, named⟩ := List.mem_map.mp member
        exact ⟨form, inside, named, unused form inside⟩
      have none_left : names.filter (· ∉ targets.source.outline.forms.map TargetForm.name) =
          [] := by
        refine List.filter_eq_nil_iff.mpr fun name member => ?_
        obtain ⟨form, inside, named, -⟩ := grow name member
        simpa using ⟨form, inside, named⟩
      obtain ⟨removed, steps⟩ := holds.removeSteps ready distinct visited false
      rw [none_left, TargetRow.changed_nil, ← visits, ← removeFromTargets_eq] at steps
      obtain ⟨row, outline⟩ := changed.outline
      exact ⟨_, added, changed.holds.orderly, by rw [outline], removed, steps⟩

end Source

namespace Dependency

variable {dependency : Dependency} {address : Text}

theorem address_of_url (url : filled? dependency.url = some address) :
    dependency.address = address := by
  simp [DependencyFields.address, url]

theorem address_of_path (path : filled? dependency.path = some address) :
    dependency.address = address := by
  have noUrl : filled? dependency.url = none := by
    simpa [DependencyFields.isAddressed, path] using dependency.addressed
  simp [DependencyFields.address, path, noUrl]

theorem address_ne_nil (dependency : Dependency) : dependency.address ≠ [] := by
  have addressed := dependency.addressed
  cases url : filled? dependency.url with
  | some address =>
      rw [address_of_url url]
      exact (mem_of_filled? url).2
  | none =>
      cases path : filled? dependency.path with
      | some address =>
          rw [address_of_path path]
          exact (mem_of_filled? path).2
      | none => simp [DependencyFields.isAddressed, url, path] at addressed

/-- A declaration that a name does not mean is not meant by an address of that name either. -/
theorem isMeantBy_address {name : Text} (unmeant : dependency.isMeantBy name name = false)
    (canonical : Reference.canonicalName address = name) (filled : address ≠ []) :
    dependency.isMeantBy address name = false := by
  simp only [isMeantBy, Bool.or_eq_false_iff, decide_eq_false_iff_not] at unmeant ⊢
  obtain ⟨⟨-, other_name⟩, other_address⟩ := unmeant
  refine ⟨⟨⟨fun url => ?_, fun path => ?_⟩, other_name⟩, other_address⟩
  · have found : filled? dependency.url = some address := url ▸ filled?_of_filled filled
    exact other_address (address_of_url found ▸ canonical)
  · have found : filled? dependency.path = some address := path ▸ filled?_of_filled filled
    exact other_address (address_of_path found ▸ canonical)

end Dependency

theorem Manifest.resolveName_eq {manifest : Manifest} {identifier name : Text}
    (canonical : Reference.canonicalName identifier = name)
    (same : ∀ declared ∈ manifest.dependencies, declared.address = identifier →
      declared.name = name) :
    manifest.resolveName identifier = name := by
  rw [Manifest.resolveName]
  split
  case h_1 declared byUrl =>
      have url := List.find?_some byUrl
      exact same declared (List.mem_of_find?_eq_some byUrl)
        (Dependency.address_of_url (of_decide_eq_true url))
  case h_2 declared _ byPath =>
      have path := List.find?_some byPath
      exact same declared (List.mem_of_find?_eq_some byPath)
        (Dependency.address_of_path (of_decide_eq_true path))
  case h_3 => exact canonical

namespace Edit

/-- Removing a dependency from all targets and from the package, when its declaration goes. -/
theorem remove_all {text reduced last identifier name : Text} {removed : Bool}
    (resolved : (Manifest.ofText text).resolveName identifier = name)
    (meant : meantDeclarations (Manifest.ofText text) identifier name ≠ [])
    (steps : removeFromTargets text (allTargets text) name = .ok (reduced, removed))
    (unused : (Source.ofText reduced).usageCount name = 0)
    (gone : removeDeclarations reduced identifier name = .ok last) :
    ∃ edited, remove text identifier none true = .ok edited ∧ edited.text = last := by
  have declared : (meantDeclarations (Manifest.ofText text) identifier name).isEmpty = false := by
    simpa using meant
  rw [allTargets] at steps
  simp only [remove, resolved, declared, selectTargets, steps, unused, gone, bind,
    Except.bind, pure, Except.pure]
  exact ⟨_, rfl, rfl⟩

end Edit

/--
Whether a dependency that is inserted into a text can be removed from it again without a trace.
-/
structure Restorable (text : Text) (name : Text) : Prop where
  terminates : Kind.terminates text
  /-- The arrays of platforms, products, package dependencies and targets are disjoint. -/
  apart : (Source.ofText text).arraySpans.Pairwise Span.Apart
  distinct : ((Source.ofText text).targetCalls.map TargetCall.name).Nodup
  /-- Nothing is declared under the name. -/
  undeclared : Edit.meantDeclarations (Manifest.ofText text) name name = []
  /-- No target refers to the name. -/
  unused : (Source.ofText text).usageCount name = 0
  /-- There is an array of package dependencies, and it is laid out for that. -/
  declarations : ∃ span, (Source.ofText text).dependenciesSpan? = some span ∧
    (Source.ofText text).Undoable span
  /-- So has every target that is no test. -/
  references : ∀ target ∈ (Source.ofText text).targetCalls, target.kind ≠ .test →
    ∃ span, (Source.ofText text).targetDependencies? target = some span ∧
      (Source.ofText text).Undoable span

section Check

instance (source : Source) (array : Span) : Decidable (source.Undoable array) :=
  inferInstanceAs (Decidable (_ ∨ _ ∧ _))

def Restorable.check (text name : Text) : Bool :=
  let source := Source.ofText text
  let marks := source.landmarks
  Kind.terminates text && decide (marks.spans.Pairwise Span.Apart) &&
    decide (source.calls.map TargetCall.name).Nodup &&
    (source.declarations.filter (·.isMeantBy name name)).isEmpty &&
    (source.calls.map (source.referencesIn name)).sum == 0 &&
    marks.dependencies.any (fun span => source.Undoable span) &&
    source.calls.all fun target => target.kind = .test ||
      (source.targetDependencies? target).any fun span => source.Undoable span

theorem Restorable.check_iff {text name : Text} :
    check text name = true ↔ Restorable text name := by
  rw [check]
  simp only [Source.landmarks_eq, Landmarks.spans, Source.calls_eq, Source.declarations_eq,
    ← Source.usageCount_eq_sum, Bool.and_eq_true, decide_eq_true_eq, List.isEmpty_iff, beq_iff_eq,
    Option.any_eq_true, List.all_eq_true, Bool.or_eq_true]
  constructor
  · rintro ⟨⟨⟨⟨⟨⟨terminates, apart⟩, distinct⟩, undeclared⟩, unused⟩, declarations⟩, references⟩
    refine ⟨terminates, apart, distinct, undeclared, unused, declarations,
      fun target member ordinary => ?_⟩
    exact (references target member).resolve_left ordinary
  · intro restorable
    refine ⟨⟨⟨⟨⟨⟨restorable.terminates, restorable.apart⟩, restorable.distinct⟩,
      restorable.undeclared⟩, restorable.unused⟩, restorable.declarations⟩, fun target member => ?_⟩
    exact or_iff_not_imp_left.mpr (restorable.references target member)

instance (text name : Text) : Decidable (Restorable text name) :=
  decidable_of_iff _ Restorable.check_iff

end Check

namespace Restorable

variable {text name : Text}

theorem orderly (restorable : Restorable text name) : (Source.ofText text).Orderly where
  sound := Source.sound_ofText restorable.terminates
  apart := restorable.apart
  distinct := by
    rw [Source.forms_outline, List.map_map]
    exact restorable.distinct

theorem usageCount_form (restorable : Restorable text name) :
    ∀ form ∈ (Source.ofText text).outline.forms, form.usageCount name = 0 := by
  have unused := restorable.unused
  rw [Source.usageCount_outline, Outline.usageCount, List.sum_eq_zero_iff_forall_eq_nat] at unused
  exact fun form member => unused _ (List.mem_map_of_mem member)

theorem exists_grows (restorable : Restorable text name) (noFeed : '\n' ∉ name) :
    ∀ form ∈ (Source.ofText text).outline.forms, form.kind ≠ .test →
      ∃ inner new, form.dependencies = some inner ∧ Grows name inner new := by
  rw [Source.forms_outline]
  intro form member ordinary
  obtain ⟨target, inside, rfl⟩ := List.mem_map.mp member
  obtain ⟨span, array, undoable⟩ := restorable.references target inside ordinary
  exact restorable.orderly.exists_grows inside array undoable noFeed

theorem unmeant (restorable : Restorable text name) {identifier : Text}
    (canonical : Reference.canonicalName identifier = name)
    (filled : identifier ≠ name → identifier ≠ []) :
    ∀ old ∈ (Manifest.ofText text).dependencies,
      old.isMeantBy identifier name = false ∧ old.address ≠ identifier := by
  intro old member
  have other : old.isMeantBy name name = false := by
    simpa using List.filter_eq_nil_iff.mp restorable.undeclared old member
  constructor
  · by_cases same : identifier = name
    · rw [same]
      exact other
    · exact Dependency.isMeantBy_address other canonical (filled same)
  · rintro rfl
    simp [Dependency.isMeantBy, canonical] at other

end Restorable

theorem Dependency.canonicalName_identifier {dependency : Dependency} {identifier : Text}
    (named : dependency.name = Reference.canonicalName dependency.address)
    (canonical : Reference.canonicalName dependency.name = dependency.name)
    (identifies : identifier = dependency.name ∨ identifier = dependency.address) :
    Reference.canonicalName identifier = dependency.name ∧
      (identifier ≠ dependency.name → identifier ≠ []) := by
  rcases identifies with rfl | rfl
  · exact ⟨canonical, fun differs => absurd rfl differs⟩
  · exact ⟨named.symm, fun _ => dependency.address_ne_nil⟩

/--
A dependency that is inserted into a manifest, and then removed from it by its name
or by its address, leaves the manifest as it was.
-/
theorem remove_insert {text : Text} {dependency : Dependency}
    (restorable : Restorable text dependency.name) (linear : dependency.Linear)
    (unversioned : dependency.version = none)
    (named : dependency.name = Reference.canonicalName dependency.address)
    (canonical : Reference.canonicalName dependency.name = dependency.name) {identifier : Text}
    (identifies : identifier = dependency.name ∨ identifier = dependency.address) :
    ∃ inserted edited, Edit.insert text dependency none none = .ok inserted ∧
      Edit.remove inserted identifier none true = .ok edited ∧ edited.text = text := by
  have orderly := restorable.orderly
  have own_text := Source.text_ofText text
  obtain ⟨stands_for, filled⟩ := Dependency.canonicalName_identifier named canonical identifies
  have others := restorable.unmeant stands_for filled
  -- The declaration goes into its array.
  obtain ⟨span, located, undoable⟩ := restorable.declarations
  obtain ⟨piece, declared, written⟩ := Dependency.exists_written linear (by simp [unversioned])
  have declared_name : declared.name = dependency.name := written.name.trans named.symm
  obtain ⟨middle, declare, added⟩ := orderly.declare written located undoable
  rw [own_text] at declare
  -- A reference goes into each of the arrays of the targets.
  have grow : ∀ name ∈ Edit.ordinaryTargets middle.text, ∃ form ∈ middle.outline.forms,
      form.name = name ∧
        ∃ inner new, form.dependencies = some inner ∧ Grows dependency.name inner new := by
    rw [added.orderly.sound.ordinaryTargets, added.forms]
    intro name member
    obtain ⟨form, inside, named⟩ := List.mem_map.mp member
    obtain ⟨inside, ordinary⟩ := List.mem_filter.mp inside
    exact ⟨form, inside, named, restorable.exists_grows linear.name form inside
      (by simpa using ordinary)⟩
  have distinct : (Edit.ordinaryTargets middle.text).Nodup := by
    rw [added.orderly.sound.ordinaryTargets]
    exact added.orderly.distinct.sublist (List.filter_sublist.map _)
  obtain ⟨last, referred, last_orderly, same, removed, steps⟩ :=
    added.orderly.addToTargets grow distinct (added.forms ▸ restorable.usageCount_form)
  have inserted : Edit.insert text dependency none none = .ok last.text := by
    have reference : (filled? none).getD (Reference.canonicalName dependency.name) =
        dependency.name := canonical
    rw [Edit.insert, declare]
    simp only [bind, Except.bind, reference, Edit.selectTargets]
    exact referred
  -- On the way back the references go first.
  have dependencies : (Manifest.ofText last.text).dependencies =
      (Manifest.ofText text).dependencies ++ [declared] := by
    rw [last_orderly.sound.dependencies, same, ← added.orderly.sound.dependencies,
      added.dependencies, own_text]
  have meant : declared.isMeantBy identifier dependency.name = true := by
    simp [Dependency.isMeantBy, declared_name]
  have resolved : (Manifest.ofText last.text).resolveName identifier = dependency.name := by
    refine Manifest.resolveName_eq stands_for fun other member address => ?_
    rw [dependencies] at member
    rcases List.mem_append.mp member with old | new
    · exact absurd address (others other old).2
    · rw [List.mem_singleton.mp new, declared_name]
  have unused : (Source.ofText middle.text).usageCount dependency.name = 0 := by
    rw [added.orderly.sound.ofText_text, Source.usageCount_outline, Outline.usageCount, added.forms,
      ← Outline.usageCount, ← Source.usageCount_outline, restorable.unused]
  have gone := added.removes identifier dependency.name meant
    (own_text.symm ▸ fun old member => (others old member).1)
  rw [own_text] at gone
  obtain ⟨edited, result, text_eq⟩ := Edit.remove_all resolved
    (by simp [Edit.meantDeclarations, dependencies, meant]) steps unused gone
  exact ⟨last.text, edited, inserted, result, text_eq⟩

/-- A manifest with comments, and with lines of their own for the package's dependencies. -/
def annotatedManifest : Text :=
  "Package(name: \"p\", dependencies: [\n  .package(path: \"b\"), // here\n],\n".toList ++
    "targets: [.target(name: \"t\", dependencies: [\"b\" /* too */]), ".toList ++
    ".target(name: \"u\", dependencies: []), .testTarget(name: \"v\")])".toList

theorem restorable_annotatedManifest : Restorable annotatedManifest ['c'] := by decide +kernel

def plainDependency : Dependency := ⟨{ name := ['c'], url := some "https://h/c".toList }, by decide⟩

/-- It leaves no trace in the manifest when it is removed by its address. -/
theorem remove_insert_annotatedManifest :
    ∃ inserted edited, Edit.insert annotatedManifest plainDependency none none = .ok inserted ∧
      Edit.remove inserted "https://h/c".toList none true = .ok edited ∧
      edited.text = annotatedManifest := by
  have linear : plainDependency.Linear := by
    constructor <;> decide +kernel
  exact remove_insert restorable_annotatedManifest linear rfl (by decide +kernel)
    (by decide +kernel)
    (.inr (by decide +kernel))

end SwiftWorkspace
