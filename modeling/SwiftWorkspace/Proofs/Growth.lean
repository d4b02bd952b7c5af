import SwiftWorkspace.Proofs.Removal
import SwiftWorkspace.Proofs.Slots

/-!
# Growing the arrays of several targets

References that were added to several targets, in some order, can be removed in any
other order.  On the way some of the arrays have grown, and each of them can be added
to those or taken away from them.
-/

namespace SwiftWorkspace

open Kind (Clear chars)

structure TargetRow where
  frame : Frame
  row : Row

namespace TargetRow

variable (targets : TargetRow)

def source : Source := targets.frame.fill targets.row.cells

def changed (names : List Text) (change : List Cell → List Cell) : TargetRow :=
  ⟨targets.frame, targets.row.mapPieces (changeTargets names change)⟩

structure Holds : Prop where
  orderly : targets.source.Orderly
  located : targets.source.targetsSpan? = some (targets.frame.span targets.row.cells)
  valid : targets.row.Valid

variable {targets} {names : List Text} {change : List Cell → List Cell}

theorem changed_nil : targets.changed [] change = targets := by
  obtain ⟨frame, entries, rest⟩ := targets
  have same (piece : List Cell) : changeTargets [] change piece = piece :=
    changeTargets_of_none (by simp)
  simp [changed, Row.mapPieces, same]

theorem changed_congr {others : List Text} (same : ∀ name, name ∈ names ↔ name ∈ others) :
    targets.changed names change = targets.changed others change := by
  have each : changeTargets names change = changeTargets others change := by
    funext piece
    simp only [changeTargets, List.elem_eq_mem, same]
  rw [changed, changed, each]

theorem Holds.forms (holds : targets.Holds) :
    targets.source.outline.forms =
      targets.row.entries.filterMap fun entry => Source.read Source.formIn? entry.2 := by
  have content : targets.source.outline.targets = some targets.row.cells := by
    rw [Source.outline, holds.located]
    exact congrArg some (targets.frame.cellsIn_span _)
  rw [Outline.forms, Outline.elements, content, Option.map_some, Option.getD_some,
    Source.piecesOf_row holds.valid, Row.pieces, List.filterMap_map]
  rfl

/-- A target is declared by one element, and the others declare targets of other names. -/
theorem Holds.exists_entry (holds : targets.Holds) {form : TargetForm}
    (member : form ∈ targets.source.outline.forms) :
    ∃ front padding piece back, targets.row.entries = front ++ (padding, piece) :: back ∧
      Source.read Source.formIn? piece = some form ∧
      ∀ entry ∈ front ++ back, ∀ other ∈ Source.read Source.formIn? entry.2,
        other.name ≠ form.name := by
  have distinct := holds.orderly.distinct
  rw [holds.forms] at member distinct
  obtain ⟨⟨padding, piece⟩, inside, declared⟩ := List.mem_filterMap.mp member
  obtain ⟨front, back, split⟩ := List.append_of_mem inside
  refine ⟨front, padding, piece, back, split, declared, ?_⟩
  have once : form.name ∉ ((front ++ back).filterMap fun entry =>
      Source.read Source.formIn? entry.2).map TargetForm.name := by
    simp only [split, List.filterMap_append, List.filterMap_cons, declared] at distinct
    rw [List.map_append, List.map_cons, List.nodup_middle, ← List.map_append] at distinct
    rw [List.filterMap_append]
    exact (List.nodup_cons.mp distinct).1
  intro entry there other reads same
  exact once (List.mem_map.mpr ⟨other, List.mem_filterMap.mpr ⟨entry, there, reads⟩, same⟩)

section Step

variable {head tail inner : List Cell} {array : ArrayPlace}

def placeOf (targets : TargetRow) (names : List Text) (change : List Cell → List Cell)
    (front : List (List Cell × List Cell)) (padding head tail : List Cell)
    (back : List (List Cell × List Cell)) : TargetPlace where
  frame := targets.frame
  front := front.map fun entry => (entry.1, changeTargets names change entry.2)
  padding
  head
  tail
  back := back.map fun entry => (entry.1, changeTargets names change entry.2)
  rest := targets.row.rest

variable {front back : List (List Cell × List Cell)} {padding list : List Cell} {form : TargetForm}

theorem changed_of_not_mem
    (entries : targets.row.entries = front ++ (padding, head ++ (list ++ tail)) :: back)
    (declared : Source.read Source.formIn? (head ++ (list ++ tail)) = some form)
    (new : form.name ∉ names) :
    targets.changed names change =
      ⟨targets.frame, (targets.placeOf names change front padding head tail back).row list⟩ := by
  have same : changeTargets names change (head ++ (list ++ tail)) = head ++ (list ++ tail) := by
    refine changeTargets_of_none fun other reads => ?_
    rw [declared] at reads
    obtain rfl := Option.some.inj reads
    exact new
  simp [changed, Row.mapPieces, entries, TargetPlace.row, placeOf, same, TargetPlace.piece]

/-- An element that changes stands at its place among those that have changed before. -/
theorem changed_cons
    (entries : targets.row.entries = front ++ (padding, head ++ (array.list inner ++ tail)) :: back)
    (declared : Source.read Source.formIn? (head ++ (array.list inner ++ tail)) = some form)
    {keyword : Text}
    (call : IsCall (head ++ (array.list inner ++ tail)) keyword head (array.list inner) tail)
    (holds : array.Holds Field.dependencies.label inner)
    (others : ∀ entry ∈ front ++ back, ∀ other ∈ Source.read Source.formIn? entry.2,
      other.name ≠ form.name) :
    targets.changed (form.name :: names) change = ⟨targets.frame,
      (targets.placeOf names change front padding head tail back).row
        (array.list (change inner))⟩ := by
  have here : changeTargets (form.name :: names) change (head ++ (array.list inner ++ tail)) =
      head ++ (array.list (change inner) ++ tail) := by
    rw [changeTargets_of_mem declared (.head _), changeSlot_call call holds]
  have there : ∀ entry ∈ front ++ back, changeTargets (form.name :: names) change entry.2 =
      changeTargets names change entry.2 :=
        fun entry member => changeTargets_cons (others entry member)
  have first : front.map (fun entry =>
      (entry.1, changeTargets (form.name :: names) change entry.2)) =
      front.map fun entry => (entry.1, changeTargets names change entry.2) :=
    List.map_congr_left fun entry member => by rw [there entry (by simp [member])]
  have last : back.map (fun entry => (entry.1, changeTargets (form.name :: names) change entry.2)) =
      back.map fun entry => (entry.1, changeTargets names change entry.2) :=
    List.map_congr_left fun entry member => by rw [there entry (by simp [member])]
  simp [changed, Row.mapPieces, entries, TargetPlace.row, placeOf, here, first, last,
    TargetPlace.piece]

end Step

end TargetRow

/-- Whether the inside of an array grows by a reference, and shrinks again without a trace. -/
structure Grows (dependency : Text) (old new : List Cell) : Prop where
  more : Extends old new (literalCells dependency)
  milder : ∀ field, Milder field old new
  undoes : ∀ frame, Undoes frame old new (literalCells dependency) .inline

namespace TargetPlace

variable {place : TargetPlace} {array : ArrayPlace} {target : TargetCall} {inner new : List Cell}
  {dependency : Text}

/-- The source around the argument list of a target keeps its row when that is exchanged. -/
theorem holds_exchange {list other : List Cell} (holds : place.Holds list target)
    (follows : (place.source list).Follows (place.source other))
    (located : (place.source other).targetsSpan? = some (place.frame.span (place.row other).cells))
    (balanced : Balanced other) : (TargetRow.mk place.frame (place.row other)).Holds :=
  ⟨follows.orderly, located, holds.valid.exchange (holds.call.solid_exchange
    (holds.valid.solid (place.padding, place.piece list) (by simp [row])) balanced)⟩

/-- The reference that was added to an array is removed again. -/
theorem removeFromTarget?_of_undoes (holds : place.Holds (array.list new) target)
    (array_holds : array.Holds Field.dependencies.label new)
    (orderly : (place.source (array.list new)).Orderly)
    (inside : target ∈ (place.source (array.list new)).targetCalls)
    (more : Extends inner new (literalCells dependency))
    (unused : ∀ piece ∈ Source.piecesOf inner, Source.read (·.refersTo dependency) piece = false)
    (undoes : Undoes (place.arrayFrame array) inner new (literalCells dependency) .inline) :
    Edit.removeFromTarget? (place.source (array.list new)).text target.name dependency =
      .ok (some (place.source (array.list inner)).text) := by
  have used : Source.read (·.refersTo dependency) (literalCells dependency) = true := by
    rw [Source.refersTo_of_string (Source.read_literal dependency), decide_eq_true rfl]
  have deletes := undoes.deletes _ (Source.local_refersTo dependency) used unused
  rw [place.fill_arrayFrame, place.fill_arrayFrame] at deletes
  have answers := (Source.local_refersTo dependency).elements array_holds.inside
    ((place.arrayFrame array).shows_fill new)
  have some_used :
      ((place.source (array.list new)).elements ((place.arrayFrame array).span new)).any
      ((place.source (array.list new)).refersTo dependency) = true := by
    rw [← place.fill_arrayFrame, Frame.span, Source.any_eq_of_map_eq answers, more.pieces]
    simp [used]
  rw [orderly.sound.removeFromTarget?_of_found (orderly.findTarget_of_mem inside),
    place.targetDependencies?_of_holds holds array_holds]
  simp only [some_used, if_true]
  exact congrArg (Except.ok ∘ some) deletes

theorem read_exchange {keyword : Text} {form : TargetForm}
    (call : IsCall (place.piece (array.list inner)) keyword place.head
      (array.list inner) place.tail)
    (holds : array.Holds Field.dependencies.label inner) (balanced : Balanced new)
    (declared : Source.read Source.formIn? (place.piece (array.list inner)) = some form) :
    Source.read Source.formIn? (place.piece (array.list new)) =
      some { form with dependencies := some new } := by
  have exchanged : IsCall (place.piece (array.list new)) keyword place.head
      (array.list new) place.tail :=
    call.exchange (holds.exchange balanced).valid.balanced
  rw [Source.read_formIn?_of_isCall call] at declared
  rw [Source.read_formIn?_of_isCall exchanged, array.formFrom?_exchange holds balanced, declared]
  rfl

end TargetPlace

namespace TargetRow

/-- What stays true while the arrays of more and more targets change. -/
structure Changed (targets : TargetRow) (names : List Text) (change : List Cell → List Cell) :
    Prop where
  holds : (targets.changed names change).Holds
  outline : ∃ row, (targets.changed names change).source.outline =
    { targets.source.outline with targets := row }
  forms : (targets.changed names change).source.outline.forms =
    targets.source.outline.forms.map fun form =>
      if form.name ∈ names then form.withDependencies (change form.content) else form

variable {targets : TargetRow} {names : List Text} {change : List Cell → List Cell}
    {form : TargetForm}
  {inner : List Cell} {dependency : Text}

theorem Holds.updateForm_eq (base : targets.Holds) (member : form ∈ targets.source.outline.forms)
    (new : form.name ∉ names) (dependencies : form.dependencies = some inner) :
    updateForm form.name (·.withDependencies (change inner))
      (targets.source.outline.forms.map fun form =>
      if form.name ∈ names then form.withDependencies (change form.content) else form) =
    targets.source.outline.forms.map fun other =>
      if other.name ∈ form.name :: names then other.withDependencies (change other.content)
        else other := by
  rw [updateForm, List.map_map]
  refine List.map_congr_left fun other there => ?_
  rw [Function.comp_apply]
  by_cases same : other.name = form.name
  · obtain rfl := base.orderly.form_unique there member same
    simp [new, TargetForm.content_eq dependencies]
  · have kept : (if other.name ∈ names then other.withDependencies (change other.content)
        else other).name = other.name := by
      split <;> rfl
    rw [if_neg (by rwa [kept])]
    simp [same]

theorem Holds.changed_nil (holds : targets.Holds) : targets.Changed [] change := by
  have same : targets.changed [] change = targets := TargetRow.changed_nil
  exact ⟨same.symm ▸ holds, ⟨targets.source.outline.targets, by rw [same]⟩, by simp [same]⟩

/--
One more array can grow: the result is that of adding a reference, and the array
shrinks again when the references are removed.
-/
theorem Changed.step (changed : targets.Changed names change) (base : targets.Holds)
    (member : form ∈ targets.source.outline.forms) (new : form.name ∉ names)
    (dependencies : form.dependencies = some inner) (grows : Grows dependency inner (change inner))
    (unused : form.usageCount dependency = 0) :
    targets.Changed (form.name :: names) change ∧
      Edit.addToTarget (targets.changed names change).source.text form.name dependency =
        .ok (targets.changed (form.name :: names) change).source.text ∧
      Edit.removeFromTarget? (targets.changed (form.name :: names) change).source.text form.name
        dependency = .ok (some (targets.changed names change).source.text) := by
  obtain ⟨front, padding, piece, back, entries, declared, others⟩ := base.exists_entry member
  obtain ⟨keyword, head, tail, array, rfl, call, array_holds⟩ := exists_slot declared dependencies
  let place := targets.placeOf names change front padding head tail back
  have old : targets.changed names change = ⟨place.frame, place.row (array.list inner)⟩ :=
    changed_of_not_mem entries declared new
  have next : targets.changed (form.name :: names) change =
      ⟨place.frame, place.row (array.list (change inner))⟩ :=
    changed_cons entries declared call array_holds others
  obtain ⟨row_holds, ⟨row, before⟩, forms⟩ := changed
  rw [old] at row_holds before forms ⊢
  change (place.source (array.list inner)).outline = _ at before
  change (place.source (array.list inner)).outline.forms = _ at forms
  obtain ⟨target, inside, holds, read⟩ :=
    place.exists_holds row_holds.located row_holds.valid call declared
  have named : target.name = form.name := by rw [← read, Source.name_formOf]
  obtain ⟨follows, located, outline, -⟩ := place.exchange_array holds array_holds row_holds.orderly
    grows.more.balanced grows.more.clear fun field _ => grows.milder field
  have redirects := TargetPlace.redirects_array holds inside array_holds row_holds.orderly
    grows.more.balanced grows.more.clear fun field _ => grows.milder field
  have new_array := array_holds.exchange grows.more.balanced
  have new_holds := place.holds_exchange holds follows located new_array.valid.balanced
  refine ⟨⟨?_, ?_, ?_⟩, ?_, ?_⟩
  all_goals rw [next]
  · exact new_holds
  · exact ⟨some (place.row (array.list (change inner))).cells, outline.trans (by rw [before])⟩
  · refine redirects.forms.trans ?_
    rw [forms, named]
    exact base.updateForm_eq member new dependencies
  · rw [← named]
    exact TargetPlace.addToTarget_of_appends holds array_holds row_holds.orderly inside
      (grows.undoes _).appends
  · obtain ⟨other, other_inside, other_holds, other_read⟩ := place.exists_holds new_holds.located
      new_holds.valid (call.exchange new_array.valid.balanced)
      (place.read_exchange call array_holds grows.more.balanced declared)
    have other_named : other.name = form.name := by rw [← Source.name_formOf, other_read]
    rw [← other_named]
    refine TargetPlace.removeFromTarget?_of_undoes other_holds new_array
      new_holds.orderly other_inside
      grows.more ?_ (grows.undoes _)
    rw [← TargetForm.content_eq dependencies, ← TargetForm.pieces_eq]
    exact TargetForm.usageCount_eq_zero_iff.mp unused

/-- Whether the array of a target without references can grow by one and shrink again. -/
def Ready (targets : TargetRow) (dependency : Text) (change : List Cell → List Cell) (name : Text) :
    Prop :=
  ∃ form ∈ targets.source.outline.forms, form.name = name ∧ form.usageCount dependency = 0 ∧
    ∃ inner, form.dependencies = some inner ∧ Grows dependency inner (change inner)

theorem Changed.step_of_ready {name : Text} (changed : targets.Changed names change)
    (base : targets.Holds) (ready : targets.Ready dependency change name) (new : name ∉ names) :
    targets.Changed (name :: names) change ∧
      Edit.addToTarget (targets.changed names change).source.text name dependency =
        .ok (targets.changed (name :: names) change).source.text ∧
      Edit.removeFromTarget? (targets.changed (name :: names) change).source.text name dependency =
        .ok (some (targets.changed names change).source.text) := by
  obtain ⟨form, member, rfl, unused, inner, dependencies, grows⟩ := ready
  exact changed.step base member new dependencies grows unused

/-- Arrays can grow in any order. -/
theorem Holds.changed_of_ready (base : targets.Holds)
    (ready : ∀ name ∈ names, targets.Ready dependency change name) (distinct : names.Nodup) :
    targets.Changed names change := by
  induction names with
  | nil => exact base.changed_nil
  | cons name names ih =>
      obtain ⟨new, distinct⟩ := List.nodup_cons.mp distinct
      have changed := ih (fun other member => ready other (.tail _ member)) distinct
      exact (changed.step_of_ready base (ready name (.head _)) new).1

theorem Changed.addToTargets (changed : targets.Changed names change) (base : targets.Holds)
    {more : List Text} (ready : ∀ name ∈ more, targets.Ready dependency change name)
    (new : ∀ name ∈ more, name ∉ names) (distinct : more.Nodup) :
    Edit.addToTargets (targets.changed names change).source.text more dependency =
      .ok (targets.changed (more.reverse ++ names) change).source.text := by
  induction more generalizing names with
  | nil => rfl
  | cons name more ih =>
      obtain ⟨once, distinct⟩ := List.nodup_cons.mp distinct
      obtain ⟨next, added, -⟩ :=
        changed.step_of_ready base (ready name (.head _)) (new name (.head _))
      have fresh : ∀ other ∈ more, other ∉ name :: names := by
        intro other member
        rw [List.mem_cons, not_or]
        exact ⟨fun same => once (same ▸ member), new other (.tail _ member)⟩
      have rest := ih next (fun other member => ready other (.tail _ member)) fresh distinct
      rw [Edit.addToTargets, List.foldlM_cons, added, List.reverse_cons, List.append_assoc]
      exact rest

theorem Changed.removeFromTarget?_of_not_mem (changed : targets.Changed names change)
    (member : form ∈ targets.source.outline.forms) (unused : form.usageCount dependency = 0)
    (new : form.name ∉ names) :
    Edit.removeFromTarget? (targets.changed names change).source.text form.name dependency =
      .ok none := by
  have kept : form ∈ (targets.changed names change).source.outline.forms := by
    rw [changed.forms]
    exact List.mem_map.mpr ⟨form, member, by rw [if_neg new]⟩
  obtain ⟨target, found, inside, read⟩ := changed.holds.orderly.findTarget kept
  rw [changed.holds.orderly.sound.removeFromTarget?_of_found found]
  cases array : (targets.changed names change).source.targetDependencies? target with
  | none => rfl
  | some span =>
      have silent : ((targets.changed names change).source.elements span).any
          ((targets.changed names change).source.refersTo dependency) = _ :=
        Source.any_refersTo inside array
      rw [read, unused] at silent
      simp [silent]

/-- The references that were added to some targets are removed when all of these are visited. -/
theorem Holds.removeSteps (base : targets.Holds)
    (ready : ∀ name ∈ names, targets.Ready dependency change name) (distinct : names.Nodup)
    {visited : List Text}
    (unused : ∀ name ∈ visited, ∃ form ∈ targets.source.outline.forms, form.name = name ∧
      form.usageCount dependency = 0) (flag : Bool) :
    ∃ removed, visited.foldlM (Source.removeStep dependency)
        ((targets.changed names change).source.text, flag) =
      .ok ((targets.changed (names.filter (· ∉ visited)) change).source.text, removed) := by
  induction visited generalizing names flag with
  | nil => exact ⟨flag, by simp; rfl⟩
  | cons name visited ih =>
      have later : ∀ other ∈ visited, ∃ form ∈ targets.source.outline.forms, form.name = other ∧
          form.usageCount dependency = 0 := fun other member => unused other (.tail _ member)
      rw [List.foldlM_cons]
      by_cases member : name ∈ names
      · -- The array of this target has grown: it is the first of those to shrink.
        have others : ∀ other ∈ names.filter (· ≠ name), targets.Ready dependency change other :=
          fun other inside => ready other (List.mem_of_mem_filter inside)
        have changed := base.changed_of_ready others (distinct.filter _)
        have same : targets.changed (name :: names.filter (· ≠ name)) change =
            targets.changed names change := by
          refine changed_congr fun other => ?_
          by_cases here : other = name <;> simp [here, member]
        obtain ⟨-, -, removed⟩ := changed.step_of_ready base (ready name member) (by simp)
        rw [same] at removed
        obtain ⟨result, rest⟩ := ih others (distinct.filter _) later true
        have left : (names.filter (· ≠ name)).filter (· ∉ visited) =
            names.filter (· ∉ name :: visited) := by
          rw [List.filter_filter]
          refine List.filter_congr fun other _ => ?_
          by_cases here : other = name <;> simp [here]
        refine ⟨result, ?_⟩
        rw [Source.removeStep_ok flag removed, ← left]
        exact rest
      · have changed := base.changed_of_ready ready distinct
        obtain ⟨form, there, rfl, none_used⟩ := unused name (.head _)
        have kept := changed.removeFromTarget?_of_not_mem there none_used member
        obtain ⟨result, rest⟩ := ih ready distinct later flag
        have left : names.filter (· ∉ visited) = names.filter (· ∉ form.name :: visited) := by
          refine List.filter_congr fun other inside => ?_
          have differs : other ≠ form.name := fun same => member (same ▸ inside)
          simp [differs]
        refine ⟨result, ?_⟩
        rw [Source.removeStep_ok flag kept, ← left]
        exact rest

end TargetRow

theorem Source.Orderly.exists_targetRow {source : Source} (orderly : source.Orderly) {span : Span}
    (located : source.targetsSpan? = some span) :
    ∃ targets : TargetRow, source = targets.source ∧ targets.Holds := by
  obtain ⟨frame, inner, rfl, balanced, rfl⟩ := Source.exists_frame located
  obtain ⟨row, valid, rfl⟩ := Row.exists_of_balanced balanced
  exact ⟨⟨frame, row⟩, rfl, orderly, located, valid⟩

end SwiftWorkspace
