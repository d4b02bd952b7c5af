import SwiftWorkspace.Proofs.Growth
import SwiftWorkspace.Proofs.Insertion

/-!
# Edits of different targets

What adding a reference makes of the declaration of a target is known from the
declaration: the layout of an array or of an argument list is decided by what is
inside of it, wherever it stands.  So references can be added to different targets in
any order.
-/

namespace SwiftWorkspace

open Kind (Clear chars)

/--
Whether a declaration becomes another one, wherever it stands, when its target gets a reference.
-/
def Gains (name dependency : Text) (piece other : List Cell) : Prop :=
  ∀ ⦃frame : Frame⦄ ⦃front back : List (List Cell × List Cell)⦄ ⦃padding rest : List Cell⦄,
    (TargetRow.mk frame ⟨front ++ (padding, piece) :: back, rest⟩).Holds →
      (TargetRow.mk frame ⟨front ++ (padding, other) :: back, rest⟩).Holds ∧
        Edit.addToTarget (TargetRow.mk frame ⟨front ++ (padding, piece) :: back, rest⟩).source.text
            name dependency =
          .ok (TargetRow.mk frame ⟨front ++ (padding, other) :: back, rest⟩).source.text

namespace TargetPlace

variable {place : TargetPlace} {list other : List Cell} {target : TargetCall}

theorem ownLine?_list {keyword : Text} {before behind : List Cell} {start : Nat}
    (call : IsCall (place.piece list) keyword place.head list place.tail)
    (split : list = before ++ behind)
    (begins : start = place.start + place.head.length + before.length) :
    (place.source list).ownLine? start = ownIndent? before behind := by
  obtain ⟨frame, size, same⟩ := exists_listFrame call
  rw [← same, split]
  exact frame.ownLine?_fill (by rw [begins, size])

end TargetPlace

section Gains

variable {head tail : List Cell} {keyword dependency : Text} {form : TargetForm}

theorem gains_array {array : ArrayPlace} {inner new : List Cell}
    (call : IsCall (head ++ (array.list inner ++ tail)) keyword head (array.list inner) tail)
    (array_holds : array.Holds Field.dependencies.label inner)
    (declared : Source.read Source.formIn? (head ++ (array.list inner ++ tail)) = some form)
    (more : Extends inner new (literalCells dependency)) (milder : ∀ field, Milder field inner new)
    (appends : ∀ frame : Frame, (frame.fill inner).appendElement (frame.span inner)
      (chars (literalCells dependency)) .inline = (frame.fill new).text) :
    Gains form.name dependency (head ++ (array.list inner ++ tail))
      (head ++ (array.list new ++ tail)) := by
  intro frame front back padding rest row
  let place : TargetPlace := ⟨frame, front, padding, head, tail, back, rest⟩
  obtain ⟨target, inside, holds, read⟩ := place.exists_holds row.located row.valid call declared
  obtain ⟨follows, located, -, -⟩ := place.exchange_array holds array_holds row.orderly
    more.balanced more.clear fun field _ => milder field
  refine ⟨place.holds_exchange holds follows located
    (array_holds.exchange more.balanced).valid.balanced, ?_⟩
  rw [← read, Source.name_formOf]
  exact place.addToTarget_of_appends holds array_holds row.orderly inside (appends _)

theorem gains_argument {row : Row} {front back : List (List Cell × List Cell)}
    {padding label value : List Cell}
    (entries : row.entries = front ++ (padding, label ++ value) :: back) (valid : row.Valid)
    (first : ∀ entry ∈ front, (Source.argumentParts entry.2).1 ≠ some Field.name.label)
    (labeled : IsLabeled (label ++ value) Field.name.label label value)
    (call : IsCall (head ++ (row.cells ++ tail)) keyword head row.cells tail)
    (declared : Source.read Source.formIn? (head ++ (row.cells ++ tail)) = some form)
    (bare : form.asks = false) (noFeed : '\n' ∉ dependency) :
    ∃ list, Gains form.name dependency (head ++ (row.cells ++ tail)) (head ++ (list ++ tail)) := by
  obtain ⟨all, rest⟩ := row
  obtain rfl : all = front ++ (padding, label ++ value) :: back := entries
  let old : List Cell := Row.cells ⟨front ++ (padding, label ++ value) :: back, rest⟩
  let own : Option Text :=
    ownIndent? (Row.flat front ++ padding) (label ++ value ++ (Row.flat back ++ rest))
  have tabs : ∀ indent ∈ own, ∀ char ∈ indent, char = ' ' ∨ char = '\t' := mem_ownIndent?
  have reads := declared
  rw [Source.read_formIn?_of_isCall call] at reads
  obtain ⟨-, asks, -⟩ := Source.formFrom?_eq_some reads
  have missing : Source.valueIn? Field.dependencies.label old = none := by
    rwa [bare, eq_comm, Option.isSome_eq_false_iff, Option.isNone_iff_eq_none] at asks
  refine ⟨(argumentRow front padding (label ++ value) back rest own dependency).cells, ?_⟩
  intro frame before behind gap ending around
  let place : TargetPlace := ⟨frame, before, gap, head, tail, behind, ending⟩
  obtain ⟨target, inside, holds, read⟩ :=
    place.exists_holds around.located around.valid call declared
  obtain ⟨follows, located, -, -⟩ :=
    place.exchange_argument tabs holds around.orderly valid noFeed missing
  refine ⟨place.holds_exchange holds follows located
    (valid_argumentRow tabs valid noFeed).balanced, ?_⟩
  let start : Nat := place.start + place.head.length + (Row.flat front).length + padding.length
  obtain ⟨named, found, span⟩ : ∃ named : Argument,
      (place.source old).labeledArgument? target.call.arguments Field.name.label = some named ∧
        named.span = ⟨start, start + (label ++ value).length⟩ := by
    rw [holds.arguments]
    exact ⟨_, Source.labeledArgument?_of_first valid first labeled (place.shows_list old) rfl, rfl⟩
  have line : (place.source old).ownLine? start = own :=
    place.ownLine?_list call (by simp [old, Row.cells])
      (by simp only [start, List.length_append]; omega)
  have text : (place.source old).addDependenciesArgument named (Literal.encode dependency) =
      (place.source (argumentRow front padding (label ++ value) back rest own
        dependency).cells).text :=
    line ▸ place.addDependenciesArgument_row call rfl span dependency
  rw [← read] at bare ⊢
  rw [Source.name_formOf]
  exact (around.orderly.addToTarget_of_bare inside bare found).trans (congrArg Except.ok text)

theorem TargetRow.Holds.exists_gains {targets : TargetRow}
    (holds : targets.Holds) {padding piece : List Cell}
    (inside : (padding, piece) ∈ targets.row.entries)
    (declared : Source.read Source.formIn? piece = some form) (accepts : form.Accepts)
    (receptive : Receptive form.content) (noFeed : '\n' ∉ dependency) :
    ∃ other, Gains form.name dependency piece other := by
  obtain ⟨frame, entries, rest⟩ := targets
  obtain ⟨front, back, rfl⟩ := List.append_of_mem inside
  cases dependencies : form.dependencies with
  | some inner =>
      obtain ⟨keyword, head, tail, array, rfl, call, array_holds⟩ :=
        exists_slot declared dependencies
      let place : TargetPlace := ⟨frame, front, padding, head, tail, back, rest⟩
      have sound : ((place.arrayFrame array).fill inner).Sound := by
        rw [place.fill_arrayFrame]
        exact holds.orderly.sound
      rw [TargetForm.content_eq dependencies] at receptive
      obtain ⟨new, more, milder, appends⟩ := exists_extends_inline array_holds.inside
        (Frame.clear_of_sound _ sound) receptive (sturdy_literal noFeed)
      exact ⟨_, gains_array call array_holds declared more
        (fun field => milder field (mentions_literalCells field dependency)) appends⟩
  | none =>
      have bare : form.asks = false := by simpa [TargetForm.Accepts, dependencies] using accepts
      obtain ⟨keyword, head, row, tail, valid, call, reads⟩ := exists_declaration declared
      obtain rfl := call.whole
      have value := (Source.formFrom?_eq_some reads).1
      have stands := Source.shows_alone row.cells
      obtain ⟨named, found⟩ := Source.exists_labeledArgument? call.inside stands value
      obtain ⟨front, padding, label, value, back, -, entries, -, first, labeled, -, -⟩ :=
        Source.labeledArgument?_eq_some valid stands found
      obtain ⟨list, gains⟩ := gains_argument entries valid first labeled call declared bare noFeed
      exact ⟨_, gains⟩

/-- References that two declarations of a row gain can be added in either order. -/
theorem Gains.commute {frame : Frame} {front middle back : List (List Cell × List Cell)}
    {padding gap piece other gained changed rest : List Cell} {first last reference addition : Text}
    (one : Gains first reference piece gained) (two : Gains last addition other changed)
    (holds : (TargetRow.mk frame
      ⟨front ++ (padding, piece) :: (middle ++ (gap, other) :: back), rest⟩).Holds) :
    ∃ result,
      (do
        let added ← Edit.addToTarget (TargetRow.mk frame
          ⟨front ++ (padding, piece) :: (middle ++ (gap, other) :: back), rest⟩).source.text
            first reference
        Edit.addToTarget added last addition) = .ok result ∧
      (do
        let added ← Edit.addToTarget (TargetRow.mk frame
          ⟨front ++ (padding, piece) :: (middle ++ (gap, other) :: back), rest⟩).source.text
            last addition
        Edit.addToTarget added first reference) = .ok result := by
  have regroup (left right : List Cell) : front ++ (padding, left) ::
      (middle ++ (gap, right) :: back) =
      (front ++ (padding, left) :: middle) ++ (gap, right) :: back := by simp
  obtain ⟨gained_holds, first_added⟩ := one holds
  rw [regroup] at gained_holds
  have last_step := two (regroup piece other ▸ holds)
  rw [← regroup, ← regroup] at last_step
  obtain ⟨changed_holds, last_added⟩ := last_step
  have then_last := (two gained_holds).2
  rw [← regroup, ← regroup] at then_last
  have then_first := (one changed_holds).2
  refine ⟨(TargetRow.mk frame
    ⟨front ++ (padding, gained) :: (middle ++ (gap, changed) :: back), rest⟩).source.text, ?_, ?_⟩
  · rw [first_added]
    exact then_last
  · rw [last_added]
    exact then_first

end Gains

theorem Edit.addToTargets_pair (text first last reference : Text) (names : List Text) :
    Edit.addToTargets text (first :: last :: names) reference =
      (do
        let added ← Edit.addToTarget text first reference
        Edit.addToTarget added last reference) >>= fun added =>
          Edit.addToTargets added names reference := by
  simp only [Edit.addToTargets, List.foldlM_cons, bind_assoc]

namespace Source

variable {source : Source} {first last reference addition : Text}

theorem Roomy.addToTarget_commute (roomy : source.Roomy) (differs : first ≠ last)
    (first_accepts : source.Accepts first) (last_accepts : source.Accepts last)
    (noFeed : '\n' ∉ reference) (addition_noFeed : '\n' ∉ addition) :
    ∃ result,
      (do
        let added ← Edit.addToTarget source.text first reference
        Edit.addToTarget added last addition) = .ok result ∧
      (do
        let added ← Edit.addToTarget source.text last addition
        Edit.addToTarget added first reference) = .ok result := by
  obtain ⟨form, member, rfl, accepts⟩ := first_accepts
  obtain ⟨other, other_member, rfl, other_accepts⟩ := last_accepts
  have receptive := roomy.references form member
  have other_receptive := roomy.references other other_member
  cases located : source.targetsSpan? with
  | none =>
      rw [Outline.forms, outline, located] at member
      cases member
  | some span =>
      obtain ⟨targets, rfl, holds⟩ := roomy.orderly.exists_targetRow located
      rw [holds.forms] at member other_member
      obtain ⟨⟨padding, piece⟩, inside, declared⟩ := List.mem_filterMap.mp member
      obtain ⟨⟨gap, declaration⟩, there, other_declared⟩ := List.mem_filterMap.mp other_member
      have apart : (padding, piece) ≠ (gap, declaration) := by
        rintro ⟨⟩
        exact differs (congrArg TargetForm.name
          (Option.some.inj (declared.symm.trans other_declared)))
      obtain ⟨gained, one⟩ := holds.exists_gains inside declared accepts receptive noFeed
      obtain ⟨changed, two⟩ :=
        holds.exists_gains there other_declared other_accepts other_receptive addition_noFeed
      obtain ⟨frame, entries, rest⟩ := targets
      obtain ⟨front, middle, back, rfl | rfl⟩ := split_at_two inside there apart
      · exact one.commute two holds
      · obtain ⟨result, added, swapped⟩ := two.commute one holds
        exact ⟨result, swapped, added⟩

theorem Roomy.addToTargets_perm_of_accepts (roomy : source.Roomy) (noFeed : '\n' ∉ reference)
    {names others : List Text} (perm : names.Perm others) (distinct : names.Nodup)
    (accepts : ∀ name ∈ names, source.Accepts name) :
    Edit.addToTargets source.text names reference =
      Edit.addToTargets source.text others reference := by
  induction perm generalizing source with
  | nil => rfl
  | cons name perm ih =>
      obtain ⟨new, added, new_roomy, same⟩ := roomy.addToTarget noFeed (accepts name (.head _))
      rw [Edit.addToTargets, Edit.addToTargets, List.foldlM_cons, List.foldlM_cons, added]
      exact ih new_roomy (List.nodup_cons.mp distinct).2 fun other member =>
        (same other).mpr (accepts other (.tail _ member))
  | swap first last names =>
      have differs : last ≠ first := fun same => (List.nodup_cons.mp distinct).1 (same ▸ .head _)
      obtain ⟨result, added, swapped⟩ := roomy.addToTarget_commute differs (accepts last (.head _))
        (accepts first (.tail _ (.head _))) noFeed noFeed
      rw [Edit.addToTargets_pair, Edit.addToTargets_pair, added, swapped]
  | trans left right left_ih right_ih =>
      exact (left_ih roomy distinct accepts).trans (right_ih roomy (left.nodup_iff.mp distinct)
        fun name member => accepts name (left.mem_iff.mpr member))

/-- References to one dependency are added to targets in any order, or in none. -/
theorem Roomy.addToTargets_perm (roomy : source.Roomy) (noFeed : '\n' ∉ reference)
    {names others : List Text} (perm : names.Perm others) (distinct : names.Nodup) :
    (Edit.addToTargets source.text names reference).toOption =
      (Edit.addToTargets source.text others reference).toOption := by
  by_cases accepts : ∀ name ∈ names, source.Accepts name
  · rw [roomy.addToTargets_perm_of_accepts noFeed perm distinct accepts]
  · push Not at accepts
    obtain ⟨name, member, rejects⟩ := accepts
    obtain ⟨error, failed⟩ := roomy.addToTargets_error noFeed ⟨name, member, rejects⟩
    obtain ⟨other, other_failed⟩ :=
      roomy.addToTargets_error noFeed ⟨name, perm.mem_iff.mp member, rejects⟩
    rw [failed, other_failed]
    rfl

end Source

/-- The targets are selected in any order, if the text with the declaration is extensible. -/
theorem Edit.insert_perm {text : Text} {dependency : Dependency} {product : Option Text}
    {names others : List Text}
    (extensible : ∀ declared, Edit.declare text dependency = .ok declared → Extensible declared)
    (noFeed : '\n' ∉ (filled? product).getD (Reference.canonicalName dependency.name))
    (distinct : names.Nodup) (perm : names.Perm others) :
    (Edit.insert text dependency (some names) product).toOption =
      (Edit.insert text dependency (some others) product).toOption := by
  rw [Edit.insert, Edit.insert]
  cases declared : Edit.declare text dependency with
  | error error => rfl
  | ok last =>
      have roomy := Source.roomy_ofText_iff.mpr (extensible last declared)
      have added := roomy.addToTargets_perm noFeed perm distinct
      rw [Source.text_ofText] at added
      simp only [bind, Except.bind]
      cases names with
      | nil => rw [List.nil_perm.mp perm]
      | cons name names =>
          cases others with
          | nil => exact absurd perm.symm (by simp)
          | cons other others => exact added

/-- The text stays extensible when a dependency without line feeds is declared in it. -/
theorem Extensible.declare {text declared : Text} (extensible : Extensible text)
    {dependency : Dependency} (linear : dependency.Linear)
    (accepted : ∀ version ∈ dependency.version, Requirement.isValid version)
    (done : Edit.declare text dependency = .ok declared) : Extensible declared := by
  obtain ⟨piece, written_dependency, written⟩ := Dependency.exists_written linear accepted
  have roomy := Source.roomy_ofText_iff.mpr extensible
  cases located : (Source.ofText text).dependenciesSpan? with
  | none =>
      rw [Edit.declare, located] at done
      cases done
  | some span =>
      obtain ⟨new, written_text, new_roomy⟩ := roomy.declare written located
      rw [Source.text_ofText, done] at written_text
      obtain rfl := Except.ok.inj written_text
      rwa [← Source.roomy_ofText_iff, new_roomy.orderly.sound.ofText_text]

/--
References can be added to two different targets of an extensible text in either order.
So a dependency is inserted into distinct targets in any order, with the same text or with
none, whenever the text with its declaration is extensible; and that is so for every
dependency without line feeds whose requirement is an accepted one.
-/
theorem additions_to_targets_commute {text : Text} (extensible : Extensible text) :
    (∀ first last reference addition : Text, first ≠ last → '\n' ∉ reference → '\n' ∉ addition →
      (∃ added, Edit.addToTarget text first reference = .ok added) →
      (∃ added, Edit.addToTarget text last addition = .ok added) →
      ∃ result,
        (do
          let added ← Edit.addToTarget text first reference
          Edit.addToTarget added last addition) = .ok result ∧
        (do
          let added ← Edit.addToTarget text last addition
          Edit.addToTarget added first reference) = .ok result) ∧
    ∀ (dependency : Dependency) (product : Option Text) (names others : List Text),
      '\n' ∉ (filled? product).getD (Reference.canonicalName dependency.name) →
      names.Nodup → names.Perm others →
      ((∀ declared, Edit.declare text dependency = .ok declared → Extensible declared) →
        (Edit.insert text dependency (some names) product).toOption =
          (Edit.insert text dependency (some others) product).toOption) ∧
      (dependency.Linear → (∀ version ∈ dependency.version, Requirement.isValid version) →
        (Edit.insert text dependency (some names) product).toOption =
          (Edit.insert text dependency (some others) product).toOption) := by
  have roomy := Source.roomy_ofText_iff.mpr extensible
  have accepts {name reference : Text}
      (done : ∃ added, Edit.addToTarget text name reference = .ok added) :
      (Source.ofText text).Accepts name := by
    by_contra rejects
    obtain ⟨added, done⟩ := done
    obtain ⟨error, failed⟩ := roomy.orderly.addToTarget_error rejects
    rw [Source.text_ofText, done] at failed
    cases failed
  refine ⟨fun first last reference addition differs noFeed addition_noFeed first_done last_done =>
    ?_,
    fun dependency product names others noFeed distinct perm =>
      ⟨fun kept => ?_, fun linear accepted => ?_⟩⟩
  · have commutes := roomy.addToTarget_commute differs (accepts first_done)
      (accepts last_done) noFeed
      addition_noFeed
    rwa [Source.text_ofText] at commutes
  · exact Edit.insert_perm kept noFeed distinct perm
  · exact Edit.insert_perm (fun declared done => extensible.declare linear accepted done)
      noFeed distinct perm

/-- A manifest with a target that has no dependencies yet, and one that has. -/
def pairManifest : Text :=
  "Package(name: \"p\", dependencies: [], ".toList ++
    "targets: [.target(name: \"t\"), .target(name: \"u\", dependencies: [\"b\"])])".toList

/--
Both targets get references in either order, and a dependency is inserted into them in either
order.
-/
theorem additions_to_targets_commute_pairManifest :
    (∃ result,
      (do
        let added ← Edit.addToTarget pairManifest ['t'] ['c']
        Edit.addToTarget added ['u'] ['d']) = .ok result ∧
      (do
        let added ← Edit.addToTarget pairManifest ['u'] ['d']
        Edit.addToTarget added ['t'] ['c']) = .ok result) ∧
    (Edit.insert pairManifest smallDependency (some [['t'], ['u']]) none).toOption =
      (Edit.insert pairManifest smallDependency (some [['u'], ['t']]) none).toOption := by
  have plain : Plain pairManifest := by decide +kernel
  have roomy := Source.roomy_ofText_iff.mpr plain.extensible
  have accepted {name : Text} (member : name ∈ [['t'], ['u']]) {reference : Text}
      (noFeed : '\n' ∉ reference) :
      ∃ added, Edit.addToTarget pairManifest name reference = .ok added := by
    have each : ∀ name ∈ [['t'], ['u']], ∃ target ∈ (Source.ofText pairManifest).targetCalls,
        target.name = name ∧ (((Source.ofText pairManifest).labeledValue? target.call.arguments
            Field.dependencies.label).isNone ∨
          ((Source.ofText pairManifest).targetDependencies? target).isSome) := by
      rw [← Source.calls_eq]
      decide +kernel
    obtain ⟨new, added, -⟩ := roomy.addToTarget noFeed (Source.accepts_iff.mpr (each name member))
    exact ⟨new.text, Source.text_ofText pairManifest ▸ added⟩
  have linear : smallDependency.Linear := by
    constructor <;> decide +kernel
  obtain ⟨additions, insertions⟩ := additions_to_targets_commute plain.extensible
  refine ⟨additions ['t'] ['u'] ['c'] ['d'] (by decide) (by decide) (by decide)
    (accepted (by decide) (by decide)) (accepted (by decide) (by decide)), ?_⟩
  exact (insertions smallDependency none [['t'], ['u']] [['u'], ['t']]
    (by decide +kernel) (by decide)
    (.swap ..)).2 linear (by simp [smallDependency])

/-- A plain manifest with brackets at the end of its first line that close nothing. -/
def strayManifest : Text :=
  "P(name: \"p\", dependencies: [], targets: [.target(name: \"a\"), .target(name: \"b\")])])\n".toList ++
    "P(targets: [.target(name: \"b\")])".toList

/-- A dependency whose requirement is none of the accepted ones, but code of its own. -/
def codeDependency : Dependency :=
  ⟨{ name := ['u'], url := some ['u'],
     version := some ("from: \"1\")], targets: [.target(name: \"b\"), ".toList ++
      ".target(name: \"a\", dependencies: [ //".toList) }, by decide⟩

/--
The requirement brings an array of targets along, with a comment in which the reference of
one target disappears together with the end of the array.
-/
theorem insertions_of_code_differ :
    Plain strayManifest ∧ codeDependency.Linear ∧ [['a'], ['b']].Nodup ∧
      [['a'], ['b']].Perm [['b'], ['a']] ∧
      ∃ result ∈ (Edit.insert strayManifest codeDependency (some [['a'], ['b']]) none).toOption,
        ∃ other ∈ (Edit.insert strayManifest codeDependency (some [['b'], ['a']]) none).toOption,
          result ≠ other := by
  have linear : codeDependency.Linear := by
    constructor <;> decide +kernel
  refine ⟨by decide +kernel, linear, by decide, .swap .., ?_⟩
  simp only [Edit.insert, Edit.declare, Edit.addToTargets, Edit.addToTarget, Source.findTarget,
    ← Source.calls_eq, ← Source.dependencies_landmarks]
  decide +kernel

end SwiftWorkspace
