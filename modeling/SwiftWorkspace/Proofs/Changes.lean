import SwiftWorkspace.Edit.Package
import SwiftWorkspace.Proofs.Declarations
import SwiftWorkspace.Proofs.Plain
import SwiftWorkspace.Proofs.Remainders

/-!
# Single edits of plain manifests

What one edit of an array of dependencies does to what is read from a plain
manifest: the array has one more element, or it has lost those that are meant,
and everything else is read as before.
-/

namespace SwiftWorkspace

open Kind (Clear chars)

namespace Target

def refer (reference : Text) (target : Target) : Target :=
  { target with dependencies := target.dependencies ++ [reference] }

def release (name : Text) (target : Target) : Target :=
  { target with dependencies := target.dependencies.filter (· ≠ name) }

end Target

namespace Manifest

def atTarget (name : Text) (change : Target → Target) (manifest : Manifest) : Manifest :=
  { manifest with
    targets := manifest.targets.map fun target => if target.name =
      name then change target else target }

end Manifest

namespace Source

variable {source new : Source} {name dependency : Text} {inner : List Cell}

theorem Redirects.map_forms {β : Type} (redirects : source.Redirects new name inner)
    (orderly : source.Orderly) {form : TargetForm} (member : form ∈ source.outline.forms)
    (named : form.name = name) (reading : TargetForm → β) (change : β → β)
    (here : reading (form.withDependencies inner) = change (reading form)) :
    new.outline.forms.map reading =
      source.outline.forms.map fun form =>
        if form.name = name then change (reading form) else reading form := by
  rw [redirects.forms, updateForm, List.map_map]
  refine List.map_congr_left fun other inside => ?_
  rw [Function.comp_apply]
  split
  case isTrue same =>
      obtain rfl := orderly.form_unique inside member (same.trans named.symm)
      exact here
  case isFalse => rfl

theorem Redirects.manifest (redirects : source.Redirects new name inner) (tidy : source.Tidy)
    (new_tidy : new.Tidy) {form : TargetForm} (member : form ∈ source.outline.forms)
    (named : form.name = name) (change : Target → Target)
    (here : (form.withDependencies inner).target = change form.target) :
    Manifest.ofText new.text = (Manifest.ofText source.text).atTarget name change := by
  obtain ⟨targets, outline⟩ := redirects.outline
  have forms := redirects.map_forms tidy.orderly member named TargetForm.target change here
  have same := (redirects.follows.named tidy.named).2
  rw [new_tidy.manifest, tidy.manifest, same, Manifest.atTarget, Outline.manifest, Outline.manifest,
    forms, outline, List.map_map]
  rfl

def Accepts (source : Source) (name : Text) : Prop :=
  ∃ form ∈ source.outline.forms, form.name = name ∧ form.Accepts

def Has (source : Source) (name : Text) : Prop := ∃ form ∈ source.outline.forms, form.name = name

/-- With other dependencies of one target all targets keep their names. -/
theorem Redirects.has_iff (redirects : source.Redirects new name inner) (other : Text) :
    new.Has other ↔ source.Has other := by
  constructor
  · rintro ⟨form, member, rfl⟩
    rw [redirects.forms] at member
    obtain ⟨old, inside, rfl⟩ := List.mem_map.mp member
    refine ⟨old, inside, ?_⟩
    split <;> rfl
  · rintro ⟨form, member, rfl⟩
    refine ⟨if form.name = name then form.withDependencies inner else form, ?_, ?_⟩
    · rw [redirects.forms]
      exact List.mem_map_of_mem member
    · split <;> rfl

theorem Redirects.accepts_iff (redirects : source.Redirects new name inner)
    (accepted : source.Accepts name) (other : Text) : new.Accepts other ↔ source.Accepts other := by
  constructor
  · rintro ⟨form, member, rfl, accepts⟩
    rw [redirects.forms] at member
    obtain ⟨old, inside, rfl⟩ := List.mem_map.mp member
    split at accepts
    case isTrue same =>
        rw [if_pos same]
        exact same ▸ accepted
    case isFalse differs =>
        rw [if_neg differs]
        exact ⟨old, inside, rfl, accepts⟩
  · rintro ⟨form, member, rfl, accepts⟩
    refine ⟨if form.name = name then form.withDependencies inner else form, ?_, ?_, ?_⟩
    · rw [redirects.forms]
      exact List.mem_map_of_mem member
    · split <;> rfl
    · split
      · exact .inr rfl
      · exact accepts

theorem target_withDependencies (form : TargetForm) (inner : List Cell) :
    (form.withDependencies inner).target =
      { form.target with dependencies := (piecesOf inner).filterMap (read stringIn?) } := rfl

def entries (source : Source) : List (Text × List (List Cell)) :=
  source.outline.forms.map fun form => (form.name, form.pieces)

theorem usageCount_entries (source : Source) (dependency : Text) :
    source.usageCount dependency =
      (source.entries.map fun entry => entry.2.countP (read (·.refersTo dependency))).sum := by
  rw [usageCount_outline, entries, List.map_map]
  rfl

/-- What one target has as elements of its dependencies when these are other ones. -/
theorem Redirects.entries (redirects : source.Redirects new name inner) (orderly : source.Orderly)
    {form : TargetForm} (member : form ∈ source.outline.forms) (named : form.name = name)
    (change : List (List Cell) → List (List Cell)) (here : piecesOf inner = change form.pieces) :
    new.entries = source.entries.map fun entry =>
      if entry.1 = name then (entry.1, change entry.2) else entry := by
  have changed := redirects.map_forms orderly member named (fun form => (form.name, form.pieces))
    (fun entry => (entry.1, change entry.2)) (congrArg _ here)
  rw [Source.entries, changed, Source.entries, List.map_map]
  rfl

structure Referred (source new : Source) (name dependency : Text) : Prop where
  tidy : new.Tidy
  accepts : ∀ other, new.Accepts other ↔ source.Accepts other
  manifest : Manifest.ofText new.text =
    (Manifest.ofText source.text).atTarget name (Target.refer dependency)
  entries : new.entries = source.entries.map fun entry =>
    if entry.1 = name then (entry.1, entry.2 ++ [literalCells dependency]) else entry

theorem Tidy.addToTarget (tidy : source.Tidy) (noFeed : '\n' ∉ dependency)
    (accepts : source.Accepts name) :
    ∃ new : Source, Edit.addToTarget source.text name dependency = .ok new.text ∧
      source.Referred new name dependency := by
  have accepted := accepts
  obtain ⟨form, member, rfl, accepts⟩ := accepts
  have quiet := tidy.references form member
  obtain ⟨new, inner, text, redirects, more⟩ :=
    tidy.orderly.addToTarget member accepts quiet.receptive noFeed
  have new_tidy := tidy.of_redirects redirects (more.quiet quiet)
  have pieces : piecesOf inner = form.pieces ++ [literalCells dependency] := by
    rw [more.pieces, ← TargetForm.pieces_eq]
  refine ⟨new, text, new_tidy, redirects.accepts_iff accepted, ?_,
    redirects.entries tidy.orderly member rfl (· ++ [literalCells dependency]) pieces⟩
  refine redirects.manifest tidy new_tidy member rfl _ ?_
  rw [target_withDependencies, pieces, List.filterMap_append, List.filterMap_cons, read_literal]
  rfl

theorem Roomy.addToTarget (roomy : source.Roomy) (noFeed : '\n' ∉ dependency)
    (accepts : source.Accepts name) :
    ∃ new : Source, Edit.addToTarget source.text name dependency = .ok new.text ∧ new.Roomy ∧
      ∀ other, new.Accepts other ↔ source.Accepts other := by
  have accepted := accepts
  obtain ⟨form, member, rfl, accepts⟩ := accepts
  obtain ⟨new, inner, text, redirects, more⟩ :=
    roomy.orderly.addToTarget member accepts (roomy.references form member) noFeed
  exact ⟨new, text, roomy.of_redirects redirects more.receptive, redirects.accepts_iff accepted⟩

theorem Orderly.addToTarget_error (orderly : source.Orderly) (rejects : ¬source.Accepts name) :
    ∃ error, Edit.addToTarget source.text name dependency = .error error := by
  by_cases has : source.Has name
  · obtain ⟨form, member, rfl⟩ := has
    exact ⟨_, orderly.addToTarget_rejected member fun accepts =>
      rejects ⟨form, member, rfl, accepts⟩⟩
  · exact ⟨_, orderly.addToTarget_missing fun form member same => has ⟨form, member, same⟩⟩

theorem refersTo_of_string {piece : List Cell} {value : Text}
    (string : read stringIn? piece = some value) (name : Text) :
    read (·.refersTo name) piece = decide (value = name) := by
  have stands := shows_alone piece
  have noCall : (⟨piece⟩ : Source).callIn? ⟨0, piece.length⟩ = none := by
    have cells := stands.cellsIn
    rw [Nat.zero_add] at cells
    rw [read, stringIn?, cells] at string
    cases piece with
    | nil => simp at string
    | cons first rest =>
        simp only at string
        split at string
        case isTrue literal =>
            have kind : first.kind = .string := by
              have all := (Bool.and_eq_true_iff.mp literal).2
              simpa using List.all_eq_true.mp all first (by simp)
            have noDot : (⟨first :: rest⟩ : Source).hasCodeAt 0 '.' = false := by
              rw [stands.hasCodeAt]
              simp [Cell.isCodeChar, Cell.isCode, kind]
            rw [callIn?, noDot]
            simp
        case isFalse => simp at string
  rw [read] at string
  rw [read, refersTo, string, noCall, Bool.or_false]
  simp

def unreferring (name : Text) (pieces : List (List Cell)) : List (List Cell) :=
  pieces.filter (!read (·.refersTo name) ·)

theorem countP_unreferring (name other : Text) (pieces : List (List Cell)) :
    (unreferring name pieces).countP (read (·.refersTo other)) =
      pieces.countP fun piece => read (·.refersTo other) piece && !read (·.refersTo name) piece :=
  List.countP_filter ..

theorem countP_unreferring_self (name : Text) (pieces : List (List Cell)) :
    (unreferring name pieces).countP (read (·.refersTo name)) = 0 := by
  simp [countP_unreferring]

/-- Elements none of which refers to the name are left as they are. -/
theorem unreferring_eq_self {name : Text} {pieces : List (List Cell)}
    (unused : pieces.countP (read (·.refersTo name)) = 0) : unreferring name pieces = pieces := by
  refine List.filter_eq_self.mpr fun piece inside => ?_
  simpa using List.countP_eq_zero.mp unused piece inside

theorem unreferring_unreferring (name : Text) (pieces : List (List Cell)) :
    unreferring name (unreferring name pieces) = unreferring name pieces :=
  unreferring_eq_self (countP_unreferring_self ..)

/-- Without the elements that refer to a name, the strings are those that differ from it. -/
theorem filterMap_unreferring (name : Text) (pieces : List (List Cell)) :
    (unreferring name pieces).filterMap (read stringIn?) =
      (pieces.filterMap (read stringIn?)).filter (· ≠ name) := by
  rw [unreferring]
  induction pieces with
  | nil => rfl
  | cons piece pieces ih =>
      cases string : read stringIn? piece with
      | none =>
          rw [List.filterMap_cons_none string, ← ih, List.filter_cons]
          split
          · rw [List.filterMap_cons_none string]
          · rfl
      | some value =>
          have refers := refersTo_of_string string name
          rw [List.filterMap_cons_some string, List.filter_cons, refers]
          by_cases same : value = name
          · simp [same, ih]
          · simp [same, ih, string]

theorem Sound.removeFromTarget?_of_found (sound : source.Sound) {target : TargetCall}
    (found : source.findTarget name = .ok target) :
    Edit.removeFromTarget? source.text name dependency =
      match source.targetDependencies? target with
      | none => .ok none
      | some array =>
          if (source.elements array).any (source.refersTo dependency) then
            .ok (some (source.deleteElements array (source.refersTo dependency)))
          else .ok none := by
  simp only [Edit.removeFromTarget?, sound.ofText_text, found]
  rfl

theorem any_eq_of_map_eq {α β : Type} {first : List α} {last : List β} {holds : α → Bool}
    {other : β → Bool} (same : first.map holds = last.map other) :
    first.any holds = last.any other := by
  have any := congrArg (List.any · id) same
  simpa [List.any_map, Function.comp_def] using any

theorem any_refersTo {target : TargetCall} {span : Span} (member : target ∈ source.targetCalls)
    (array : source.targetDependencies? target = some span) :
    (source.elements span).any (source.refersTo dependency) =
      decide ((source.formOf target).usageCount dependency ≠ 0) := by
  rw [any_eq_of_map_eq (map_dependencies (local_refersTo dependency) member array), Bool.eq_iff_iff,
    List.any_eq_true, decide_eq_true_eq, ne_eq, TargetForm.usageCount_eq_zero_iff]
  simp

theorem Tidy.deleteReferences (tidy : source.Tidy) {target : TargetCall}
    (member : target ∈ source.targetCalls) {span : Span}
    (array : source.targetDependencies? target = some span) :
    ∃ new inner, source.Redirects new target.name inner ∧
      Drops (source.formOf target).content inner (read (·.refersTo dependency)) ∧
      Quiet inner ∧ source.deleteElements span (source.refersTo dependency) = new.text := by
  have quiet := tidy.references (source.formOf target) (by
    rw [forms_outline]
    exact List.mem_map_of_mem member)
  obtain ⟨place, array_place, inner, rfl, holds, array_holds, rfl⟩ :=
    exists_dependencies member array
  have sound := tidy.orderly.sound
  rw [← place.fill_arrayFrame] at sound
  have clear := Frame.clear_of_sound _ sound
  have content : ((place.source (array_place.list inner)).formOf target).content = inner := by
    rw [TargetForm.content, dependencies_formOf, array, Option.map_some, Option.getD_some,
      ← place.fill_arrayFrame]
    exact Frame.cellsIn_span ..
  rw [content] at quiet ⊢
  obtain ⟨new, drops, text⟩ := (place.arrayFrame array_place).exists_drops array_holds.inside
    (local_refersTo dependency)
  refine ⟨place.source (array_place.list new), new, ?_, drops, drops.quiet quiet, ?_⟩
  · exact TargetPlace.redirects_array holds member array_holds tidy.orderly drops.balanced
      (drops.clear array_holds.inside quiet clear) fun field _ =>
        drops.milder array_holds.inside quiet clear field
  · rw [← place.fill_arrayFrame, ← place.fill_arrayFrame, ← text]

/-- What removing the references of one target leaves of a source. -/
structure Released (source new : Source) (name dependency : Text) : Prop where
  tidy : new.Tidy
  has : ∀ other, new.Has other ↔ source.Has other
  manifest : Manifest.ofText new.text =
    (Manifest.ofText source.text).atTarget name (Target.release dependency)
  entries : new.entries = source.entries.map fun entry =>
    if entry.1 = name then (entry.1, unreferring dependency entry.2) else entry

theorem Tidy.released_self (tidy : source.Tidy) {form : TargetForm}
    (member : form ∈ source.outline.forms) (unused : form.usageCount dependency = 0) :
    source.Released source form.name dependency := by
  have same_pieces : unreferring dependency form.pieces = form.pieces := unreferring_eq_self unused
  have plain : form.target.dependencies.filter (· ≠ dependency) = form.target.dependencies := by
    rw [TargetForm.target, ← filterMap_unreferring, same_pieces]
  refine ⟨tidy, fun _ => .rfl, ?_, ?_⟩
  · rw [tidy.manifest, Manifest.atTarget, Outline.manifest, List.map_map]
    refine congrArg (fun targets => Manifest.mk _ _ _ targets _) (List.map_congr_left ?_)
    intro other inside
    rw [Function.comp_apply]
    split
    case isTrue same =>
        obtain rfl := tidy.orderly.form_unique inside member same
        rw [Target.release, plain]
    case isFalse => rfl
  · rw [Source.entries, List.map_map]
    refine List.map_congr_left fun other inside => ?_
    rw [Function.comp_apply]
    split
    case isTrue same =>
        obtain rfl := tidy.orderly.form_unique inside member same
        rw [same_pieces]
    case isFalse => rfl

theorem Tidy.removeFromTarget? (tidy : source.Tidy) (has : source.Has name) :
    ∃ (new : Source) (result : Option Text),
      Edit.removeFromTarget? source.text name dependency = .ok result ∧
      result.getD source.text = new.text ∧ source.Released new name dependency := by
  obtain ⟨form, member, rfl⟩ := has
  obtain ⟨target, found, inside, rfl⟩ := tidy.orderly.findTarget member
  rw [tidy.orderly.sound.removeFromTarget?_of_found found]
  cases array : source.targetDependencies? target with
  | none =>
      refine ⟨source, none, rfl, rfl, tidy.released_self member ?_⟩
      rw [TargetForm.usageCount, pieces_of_no_dependencies array]
      rfl
  | some span =>
      simp only [any_refersTo inside array, decide_eq_true_eq]
      split
      case isFalse unused =>
          exact ⟨source, none, rfl, rfl, tidy.released_self member (by simpa using unused)⟩
      case isTrue =>
          obtain ⟨new, inner, redirects, drops, quiet, text⟩ := tidy.deleteReferences inside array
          have new_tidy := tidy.of_redirects redirects quiet
          have pieces : piecesOf inner = unreferring dependency (source.formOf target).pieces := by
            rw [drops.pieces, ← TargetForm.pieces_eq, unreferring]
          refine ⟨new, some new.text, by rw [text], rfl, new_tidy, redirects.has_iff, ?_, ?_⟩
          · refine redirects.manifest tidy new_tidy member rfl _ ?_
            rw [target_withDependencies, pieces, filterMap_unreferring]
            rfl
          · exact redirects.entries tidy.orderly member rfl (unreferring dependency) pieces

theorem Tidy.removeFromTarget?_missing (tidy : source.Tidy) (missing : ¬source.Has name) :
    Edit.removeFromTarget? source.text name dependency = .error (.targetNotFound name) := by
  have search : source.findTarget name = .error (.targetNotFound name) :=
    findTarget_of_missing fun form member same => missing ⟨form, member, same⟩
  simp only [Edit.removeFromTarget?, tidy.orderly.sound.ofText_text, search]
  rfl

/-- A source in which only the package's dependencies are other ones. -/
structure Redeclared (source new : Source) (dependencies : List Dependency) : Prop where
  tidy : new.Tidy
  forms : new.outline.forms = source.outline.forms
  manifest : Manifest.ofText new.text =
    { Manifest.ofText source.text with dependencies := dependencies }

/-- The package's dependencies can be exchanged for others without comments. -/
theorem Tidy.redeclare {frame : Frame} {old new : List Cell} (tidy : (frame.fill old).Tidy)
    (old_balanced : Balanced old) (new_balanced : Balanced new) (clear : Clear new)
    (milder : ∀ field, Milder field old new)
    (located : (frame.fill old).dependenciesSpan? = some (frame.span old)) (quiet : Quiet new) :
    (frame.fill old).Redeclared (frame.fill new)
      ((piecesOf new).filterMap (read dependencyIn?)) := by
  obtain ⟨follows, -, outline⟩ := frame.orderly_fill_dependencies tidy.orderly old_balanced
    new_balanced clear (fun field _ => milder field) located (milder .dependencies)
  have new_tidy := tidy.of_declarations follows outline quiet
  refine ⟨new_tidy, by rw [outline]; rfl, ?_⟩
  rw [new_tidy.manifest, tidy.manifest, (follows.named tidy.named).2, outline]
  rfl

/-- The package's dependencies are read from its array. -/
theorem Tidy.dependencies {frame : Frame} {inner : List Cell} (tidy : (frame.fill inner).Tidy)
    (located : (frame.fill inner).dependenciesSpan? = some (frame.span inner)) :
    Quiet inner ∧ Clear inner ∧ (Manifest.ofText (frame.fill inner).text).dependencies =
      (piecesOf inner).filterMap (read dependencyIn?) := by
  have content : (frame.fill inner).outline.dependencies = some inner := by
    rw [outline, located]
    exact congrArg some (frame.cellsIn_span inner)
  refine ⟨tidy.declarations inner content, frame.clear_of_sound tidy.orderly.sound, ?_⟩
  rw [tidy.manifest]
  exact congrArg (Outline.elements dependencyIn?) content

theorem Tidy.declare (tidy : source.Tidy) {dependency declared : Dependency} {piece : List Cell}
    (written : dependency.Written piece declared) {span : Span}
    (located : source.dependenciesSpan? = some span) :
    ∃ new : Source, Edit.declare source.text dependency = .ok new.text ∧
      source.Redeclared new ((Manifest.ofText source.text).dependencies ++ [declared]) := by
  obtain ⟨frame, inner, rfl, balanced, rfl⟩ := exists_frame located
  obtain ⟨quiet, clear, dependencies⟩ := tidy.dependencies located
  obtain ⟨new, more, milder, text⟩ := frame.exists_extends balanced clear quiet.receptive
    written.sturdy .multiline
  have redeclared := tidy.redeclare balanced more.balanced more.clear
    (fun field => milder field (written.quiet field)) located (more.quiet quiet)
  refine ⟨frame.fill new, ?_, ?_⟩
  · rw [Edit.declare, tidy.ofText_text, located, ← written.chars, ← text]
  · rw [more.pieces, List.filterMap_append, ← dependencies, List.filterMap_cons_some written.reads]
      at redeclared
    exact redeclared

theorem Roomy.declare (roomy : source.Roomy) {dependency declared : Dependency}
    {piece : List Cell} (written : dependency.Written piece declared) {span : Span}
    (located : source.dependenciesSpan? = some span) :
    ∃ new : Source, Edit.declare source.text dependency = .ok new.text ∧ new.Roomy := by
  obtain ⟨frame, inner, rfl, balanced, rfl⟩ := exists_frame located
  have receptive : Receptive inner := by
    refine roomy.declarations inner ?_
    rw [outline, located]
    exact congrArg some (frame.cellsIn_span inner)
  obtain ⟨new, more, milder, text⟩ := frame.exists_extends balanced
    (frame.clear_of_sound roomy.orderly.sound) receptive written.sturdy .multiline
  obtain ⟨follows, -, outline⟩ := frame.orderly_fill_dependencies roomy.orderly balanced
    more.balanced more.clear (fun field _ => milder field (written.quiet field)) located
    (milder .dependencies (written.quiet .dependencies))
  refine ⟨frame.fill new, ?_, roomy.of_declarations follows outline more.receptive⟩
  rw [Edit.declare, roomy.orderly.sound.ofText_text, located, ← written.chars, ← text]

theorem Tidy.declare_error (tidy : source.Tidy) {dependency : Dependency}
    (missing : source.dependenciesSpan? = none) :
    Edit.declare source.text dependency = .error .noDependencies := by
  rw [Edit.declare, tidy.ofText_text, missing]

theorem local_isDeclaration (identifier name : Text) :
    Local fun source element => Edit.isDeclaration source identifier name element :=
  local_dependencyIn?.map (Option.any (·.isMeantBy identifier name))

theorem filterMap_undeclaring (identifier name : Text) (pieces : List (List Cell)) :
    (pieces.filter (!read (Edit.isDeclaration · identifier name) ·)).filterMap
      (read dependencyIn?) =
      (pieces.filterMap (read dependencyIn?)).filter (!·.isMeantBy identifier name) := by
  induction pieces with
  | nil => rfl
  | cons piece pieces ih =>
      have decides : read (Edit.isDeclaration · identifier name) piece =
          (read dependencyIn? piece).any (·.isMeantBy identifier name) := rfl
      cases found : read dependencyIn? piece with
      | none => simp [decides, found, ih]
      | some dependency =>
          cases meant : dependency.isMeantBy identifier name with
          | true => simp [decides, found, meant, ih]
          | false => simp [decides, found, meant, ih]

theorem Tidy.removeDeclarations (tidy : source.Tidy) (identifier : Text) {span : Span}
    (located : source.dependenciesSpan? = some span) :
    ∃ new : Source, Edit.removeDeclarations source.text identifier name = .ok new.text ∧
      source.Redeclared new
        ((Manifest.ofText source.text).dependencies.filter (!·.isMeantBy identifier name)) := by
  obtain ⟨frame, inner, rfl, balanced, rfl⟩ := exists_frame located
  obtain ⟨quiet, clear, dependencies⟩ := tidy.dependencies located
  have loc := local_isDeclaration identifier name
  rw [Edit.removeDeclarations, tidy.ofText_text, located]
  simp only
  split
  case isTrue =>
      obtain ⟨new, drops, text⟩ := frame.exists_drops balanced loc
      have redeclared := tidy.redeclare balanced drops.balanced (drops.clear balanced quiet clear)
        (drops.milder balanced quiet clear) located (drops.quiet quiet)
      refine ⟨frame.fill new, congrArg Except.ok text, ?_⟩
      rw [drops.pieces, filterMap_undeclaring, ← dependencies] at redeclared
      exact redeclared
  case isFalse unused =>
      refine ⟨frame.fill inner, rfl, tidy, rfl, ?_⟩
      have none : (piecesOf inner).filter (!read (Edit.isDeclaration · identifier name) ·) =
          piecesOf inner := by
        rw [Frame.span, any_eq_of_map_eq (loc.elements balanced (frame.shows_fill inner))] at unused
        refine List.filter_eq_self.mpr fun piece inside => ?_
        simpa using List.any_eq_false.mp (Bool.not_eq_true _ ▸ unused) piece inside
      rw [dependencies, ← filterMap_undeclaring, none, ← dependencies]

end Source

end SwiftWorkspace
