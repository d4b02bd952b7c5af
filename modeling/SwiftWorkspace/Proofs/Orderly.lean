import SwiftWorkspace.Proofs.Milder
import SwiftWorkspace.Proofs.Targets

/-!
# Orderly manifests

A manifest is orderly when its literals are terminated, its arrays stand apart
from each other, and its targets have different names.  It stays orderly when
the inside of one of the arrays is exchanged for milder cells, and what is
inside of the other arrays does not change.
-/

namespace SwiftWorkspace

open Kind (Clear Scans Bland bland_cons)

def Span.Apart (left right : Span) : Prop := left.stop < right.start ∨ right.stop < left.start

theorem Span.Apart.symm {left right : Span} (apart : left.Apart right) : right.Apart left :=
  Or.symm apart

/-- A bracket takes part in no marks, and it is no line feed. -/
theorem Cell.bland_of_opens {cell : Cell} {shape : Bracket} (opens : cell.opens? = some shape) :
    Bland [cell.char] ∧ cell.char ≠ '\n' := by
  have code := isCode_of_opens opens
  simp only [opens?, isCode, code, decide_true, if_true] at opens
  unfold Bracket.opened? at opens
  split at opens <;> simp_all [Bland]

theorem Cell.bland_of_closes {cell : Cell} {shape : Bracket} (closes : cell.closes? = some shape) :
    Bland [cell.char] ∧ cell.char ≠ '\n' := by
  have code := isCode_of_closes closes
  simp only [closes?, isCode, code, decide_true, if_true] at closes
  unfold Bracket.closed? at closes
  split at closes <;> simp_all [Bland]

namespace Source

/-- Whether the kinds of a source are those of its text, and all its literals are terminated. -/
def Sound (source : Source) : Prop :=
  ∃ final, Scans .code source.cells [] final ∧ Kind.closesFrom final []

theorem sound_ofText {text : Text} (terminates : Kind.terminates text) : (ofText text).Sound :=
  Scans.of_closes terminates

theorem Sound.ofText_text {source : Source} (sound : source.Sound) :
    ofText source.text = source := by
  obtain ⟨final, scans, -⟩ := sound
  have cells := scans.cellsFrom
  simp only [List.append_nil, Kind.cellsFrom, Kind.classifyFrom, List.zipWith_nil_left] at cells
  exact congrArg Source.mk cells

end Source

namespace Frame

variable (frame : Frame) {old new inner : List Cell}

/-- What is in the gap of a sound source is read on its own. -/
theorem clear_of_sound (sound : (frame.fill inner).Sound) : Clear inner := by
  obtain ⟨final, scans, -⟩ := sound
  obtain ⟨shape, opens, closes⟩ := frame.pairs
  have whole : (frame.fill inner).cells =
      (frame.front ++ [frame.opening]) ++ (inner ++ frame.closing :: frame.back) := by
    simp [fill]
  rw [whole] at scans
  have head : frame.opening ∈ (frame.front ++ [frame.opening]).getLast? := by simp
  have behind := (scans.cut_behind head (Cell.isCode_of_opens opens)).2
  cases last : inner.getLast? with
  | none =>
      obtain rfl := List.getLast?_eq_none_iff.mp last
      exact .nil
  | some left =>
      have next : frame.closing ∈ (frame.closing :: frame.back).head? := by simp
      exact (behind.cut (Option.mem_def.mpr last) next
        (Kind.parted_of_code (Cell.isCode_of_closes closes)
          (Cell.bland_of_closes closes).2)).1.clear

/-- A source stays sound when the gap is filled with cells that are read on their own. -/
theorem sound_fill (sound : (frame.fill old).Sound) (clear : Clear new) :
    (frame.fill new).Sound := by
  obtain ⟨final, scans, ends⟩ := sound
  obtain ⟨shape, opens, closes⟩ := frame.pairs
  have whole (inner : List Cell) : (frame.fill inner).cells =
      frame.front ++ [frame.opening] ++ inner ++ frame.closing :: frame.back := by
    simp [fill]
  rw [whole] at scans
  have head : frame.opening ∈ (frame.front ++ [frame.opening]).getLast? := by simp
  have next : frame.closing ∈ (frame.closing :: frame.back).head? := by simp
  refine ⟨final, ?_, ends⟩
  rw [whole]
  exact scans.exchange_inside head (Cell.isCode_of_opens opens) (Cell.bland_of_opens opens).1 next
    (Cell.isCode_of_closes closes) (Cell.bland_of_closes closes).1 (Cell.bland_of_closes closes).2
    clear

end Frame

/-- Between padding and the cell that an element begins with the pass is in code. -/
theorem Row.parted_of_isPadding {left right : Cell} (padding : left.isPadding)
    (significant : right.isSignificant) : Kind.Parted left right := by
  cases kind : left.kind with
  | code => exact .inl kind
  | string => exact absurd kind (Cell.kind_of_isPadding padding).1
  | comment =>
      refine .inr (.inr ⟨kind, ?_, ?_⟩)
      · intro comment
        simp [Cell.isSignificant, Cell.isCode, comment] at significant
      · rintro rfl
        exact absurd significant (by decide)

/-- In a row that is read on its own no word can go on behind padding. -/
theorem Row.Valid.seamed {row : Row} (valid : row.Valid) (clear : Clear row.cells) :
    row.Seamed := by
  intro entry member cell last
  have padding := valid.padding entry member cell (List.mem_of_mem_getLast? last)
  obtain ⟨front, back, split⟩ := List.append_of_mem member
  obtain ⟨head, found, significant⟩ := (valid.solid entry member).first
  have whole : row.cells = (Row.flat front ++ entry.1) ++
      (entry.2 ++ (Row.flat back ++ row.rest)) := by
    simp [Row.cells, split]
  rw [whole] at clear
  cases kind : cell.kind with
  | string => exact absurd kind (Cell.kind_of_isPadding padding).1
  | code =>
      simp only [Cell.isPadding, Cell.isComma, Cell.isCodeChar, Cell.isCode,
        Cell.isSignificant, kind,
        decide_true, Bool.true_and, Bool.or_eq_true, decide_eq_true_eq, reduceCtorEq, decide_false,
        Bool.false_or, Bool.not_not] at padding
      rcases padding with comma | blank
      · rw [Cell.isWord, comma]
        decide
      · exact isWordChar_of_isBlank blank
  | comment =>
      have before : cell ∈ (Row.flat front ++ entry.1).getLast? := by
        simp [Option.mem_def.mp last]
      have behind : head ∈ (entry.2 ++ (Row.flat back ++ row.rest)).head? := by
        simp [Option.mem_def.mp found]
      have parted := Row.parted_of_isPadding padding significant
      rw [Cell.isWord, (Scans.cut clear before behind parted).1.slash_of_last_comment before kind]
      decide

namespace Source

def arraySpans (source : Source) : List Span :=
  source.platformsSpan?.toList ++ (source.productsSpan?.toList ++
    (source.dependenciesSpan?.toList ++ source.targetsSpan?.toList))

/-- Whether literals are terminated, arrays stand apart, and targets have different names. -/
structure Orderly (source : Source) : Prop where
  sound : source.Sound
  apart : source.arraySpans.Pairwise Span.Apart
  distinct : (source.outline.forms.map TargetForm.name).Nodup

/-- Whether the package has no name, or reads it from outside of the arrays. -/
def Named (source : Source) : Prop :=
  ∀ site ∈ source.nameSite?, ∀ span ∈ source.arraySpans, span.holds site.position = false

/-- Whether a source is orderly again, and its package keeps the name that it reads from outside. -/
structure Follows (old new : Source) : Prop where
  orderly : new.Orderly
  named : old.Named → new.Named ∧ new.packageName = old.packageName

theorem mem_arraySpans {source : Source} {span : Span} :
    span ∈ source.arraySpans ↔ source.platformsSpan? = some span ∨
      source.productsSpan? = some span ∨ source.dependenciesSpan? = some span ∨
        source.targetsSpan? = some span := by
  simp [arraySpans]

theorem ordered_of_mem_arraySpans {source : Source} {span : Span}
    (member : span ∈ source.arraySpans) : 0 < span.start ∧ span.start ≤ span.stop := by
  have ordered {label : Text} {excluded : List Span}
      (found : source.labeledArray? label excluded = some span) :
      0 < span.start ∧ span.start ≤ span.stop := by
    obtain ⟨frame, inner, -, -, rfl⟩ := exists_frame found
    simp only [Frame.span]
    omega
  rcases mem_arraySpans.mp member with found | found | found | found <;> exact ordered found

end Source

namespace Frame

variable (frame : Frame) {old new : List Cell}

@[simp] theorem cellsIn_span (inner : List Cell) :
    (frame.fill inner).cellsIn (frame.span inner) = inner := (frame.shows_fill inner).cellsIn

@[simp] theorem moveSpan_span (old new : List Cell) :
    frame.moveSpan old new (frame.span old) = frame.span new := by
  have behind : ¬frame.front.length + 1 + old.length < frame.front.length + 1 := by omega
  simp [moveSpan, move, span, behind]

theorem cellsIn_moveSpan {span : Span} (positive : 0 < span.start)
    (ordered : span.start ≤ span.stop) (apart : span.Apart (frame.span old)) :
    (frame.fill new).cellsIn (frame.moveSpan old new span) = (frame.fill old).cellsIn span := by
  simp only [Span.Apart, Frame.span] at apart
  have parts (inner : List Cell) : (frame.fill inner).cells =
      (frame.front ++ [frame.opening]) ++ (inner ++ frame.closing :: frame.back) := by
    simp [fill]
  have size : (frame.front ++ [frame.opening]).length = frame.front.length + 1 := by simp
  rcases apart with before | behind
  · have start : span.start - 1 < frame.front.length + 1 := by omega
    have stop : span.stop < frame.front.length + 1 := before
    have same : frame.moveSpan old new span = span := by
      simp only [moveSpan, move, start, stop, if_true, Nat.sub_add_cancel positive]
    have taken (inner : List Cell) : (frame.fill inner).cellsIn span =
        ((frame.front ++ [frame.opening]).drop span.start).take span.size := by
      have room : span.start ≤ (frame.front ++ [frame.opening]).length := by omega
      rw [Source.cellsIn, parts, List.drop_append_of_le_length room, List.take_append_of_le_length]
      rw [List.length_drop, Span.size]
      omega
    rw [same, taken, taken]
  · have start : ¬span.start - 1 < frame.front.length + 1 := by omega
    have stop : ¬span.stop < frame.front.length + 1 := by omega
    obtain ⟨offset, place⟩ : ∃ offset, span.start =
        frame.front.length + 1 + old.length + 1 + offset :=
      ⟨span.start - (frame.front.length + 1 + old.length + 1), by omega⟩
    have dropped (inner : List Cell) :
        (frame.fill inner).cells.drop (frame.front.length + 1 + inner.length + 1 + offset) =
          frame.back.drop offset := by
      have before : (frame.front ++ frame.opening :: (inner ++ [frame.closing])).length =
          frame.front.length + 1 + inner.length + 1 := by
        simp only [List.length_append, List.length_cons, List.length_nil]
        omega
      have whole : (frame.fill inner).cells =
          (frame.front ++ frame.opening :: (inner ++ [frame.closing])) ++ frame.back := by
        simp [fill]
      rw [whole, ← List.drop_drop, ← before, List.drop_left]
    have moved : frame.moveSpan old new span =
        ⟨frame.front.length + 1 + new.length + 1 + offset,
          frame.front.length + 1 + new.length + 1 + offset + span.size⟩ := by
      simp only [moveSpan, move, start, stop, if_false, Span.size, Span.mk.injEq]
      omega
    rw [moved, Source.cellsIn, Source.cellsIn, Span.size, Nat.add_sub_cancel_left, dropped, place,
      dropped]

/-- A span is the gap or apart from it. -/
def Fits (old : List Cell) (span : Span) : Prop :=
  span = frame.span old ∨ (0 < span.start ∧ span.start ≤ span.stop ∧ span.Apart (frame.span old))

theorem Fits.spares {span : Span} (fits : frame.Fits old span) : frame.Spares old span := by
  rcases fits with rfl | ⟨positive, ordered, apart⟩
  · refine ⟨Nat.succ_pos _, ?_, .inr (.inr ?_)⟩ <;> simp [Frame.span, hides]
  · refine ⟨positive, ordered, ?_⟩
    rcases apart with before | behind
    · exact .inl before
    · exact .inr (.inl behind)

theorem apart_moveSpan {left right : Span} (apart : left.Apart right) :
    (frame.moveSpan old new left).Apart (frame.moveSpan old new right) := by
  simp only [Span.Apart, moveSpan, move] at apart ⊢
  rcases apart with before | behind
  · left
    split <;> split <;> omega
  · right
    split <;> split <;> omega

section Spans

variable (old_balanced : Balanced old) (new_balanced : Balanced new)
  (fits : ∀ span ∈ (frame.fill old).arraySpans, frame.Fits old span)
  (milder : ∀ field, field ≠ .name → field ≠ .dependencies → Milder field old new)
  (visible : (frame.fill old).targetsSpan? = some (frame.span old) ∨ Milder .dependencies old new)
include old_balanced new_balanced fits milder

theorem platformsSpan?_fill : (frame.fill new).platformsSpan? =
    (frame.fill old).platformsSpan?.map (frame.moveSpan old new) :=
  frame.labeledArray?_fill (isLabel_field .platforms) old_balanced new_balanced (by simp)
    (fun span found => (fits span (Source.mem_arraySpans.mpr (.inl found))).spares)
    fun _ => milder .platforms (by decide) (by decide) (frame.depth + 1)

theorem productsSpan?_fill : (frame.fill new).productsSpan? =
    (frame.fill old).productsSpan?.map (frame.moveSpan old new) :=
  frame.labeledArray?_fill (isLabel_field .products) old_balanced new_balanced (by simp)
    (fun span found => (fits span (Source.mem_arraySpans.mpr (.inr (.inl found)))).spares)
    fun _ => milder .products (by decide) (by decide) (frame.depth + 1)

theorem targetsSpan?_fill : (frame.fill new).targetsSpan? =
    (frame.fill old).targetsSpan?.map (frame.moveSpan old new) :=
  frame.labeledArray?_fill (isLabel_field .targets) old_balanced new_balanced (by simp)
    (fun span found => (fits span (Source.mem_arraySpans.mpr (.inr (.inr (.inr found))))).spares)
    fun _ => milder .targets (by decide) (by decide) (frame.depth + 1)

include visible

theorem dependenciesSpan?_fill : (frame.fill new).dependenciesSpan? =
    (frame.fill old).dependenciesSpan?.map (frame.moveSpan old new) := by
  have excluded : (frame.fill new).targetsSpan?.toList ++ (frame.fill new).productsSpan?.toList =
      ((frame.fill old).targetsSpan?.toList ++ (frame.fill old).productsSpan?.toList).map
        (frame.moveSpan old new) := by
    rw [frame.targetsSpan?_fill old_balanced new_balanced fits milder,
      frame.productsSpan?_fill old_balanced new_balanced fits milder]
    cases (frame.fill old).targetsSpan? <;> cases (frame.fill old).productsSpan? <;> rfl
  rw [Source.dependenciesSpan?, excluded]
  refine frame.labeledArray?_fill (isLabel_field .dependencies) old_balanced new_balanced
    (fun span member => ?_)
    (fun span found => (fits span (Source.mem_arraySpans.mpr (.inr (.inr (.inl found))))).spares) ?_
  · simp only [List.mem_append, Option.mem_toList] at member
    rcases member with found | found
    · exact (fits span (Source.mem_arraySpans.mpr (.inr (.inr (.inr found))))).spares
    · exact (fits span (Source.mem_arraySpans.mpr (.inr (.inl found)))).spares
  · rcases visible with located | milder
    · intro shown
      simp [located, hides, Frame.span] at shown
    · exact fun _ => milder (frame.depth + 1)

theorem arraySpans_fill : (frame.fill new).arraySpans =
    (frame.fill old).arraySpans.map (frame.moveSpan old new) := by
  have toList (span : Option Span) : (span.map (frame.moveSpan old new)).toList =
      span.toList.map (frame.moveSpan old new) := by
    cases span <;> rfl
  simp only [Source.arraySpans, List.map_append, ← toList,
    frame.platformsSpan?_fill old_balanced new_balanced fits milder,
    frame.productsSpan?_fill old_balanced new_balanced fits milder,
    frame.targetsSpan?_fill old_balanced new_balanced fits milder,
    frame.dependenciesSpan?_fill old_balanced new_balanced fits milder visible]

end Spans

/-- What is in spans apart from the gap does not change when they move along. -/
theorem content_fill {found : Option Span}
    (apart : ∀ span ∈ found, 0 < span.start ∧ span.start ≤ span.stop ∧
      span.Apart (frame.span old)) :
    (found.map (frame.moveSpan old new)).map (frame.fill new).cellsIn =
      found.map (frame.fill old).cellsIn := by
  cases found with
  | none => rfl
  | some span =>
      obtain ⟨positive, ordered, apart⟩ := apart span rfl
      exact congrArg some (frame.cellsIn_moveSpan positive ordered apart)

end Frame

theorem Span.eq_or_apart {spans : List Span} (apart : spans.Pairwise Span.Apart) {left right : Span}
    (left_member : left ∈ spans) (right_member : right ∈ spans) :
    left = right ∨ left.Apart right := by
  induction spans with
  | nil => simp at left_member
  | cons span spans ih =>
      obtain ⟨first, rest⟩ := List.pairwise_cons.mp apart
      rcases List.mem_cons.mp left_member with rfl | left_inside <;>
        rcases List.mem_cons.mp right_member with rfl | right_inside
      · exact .inl rfl
      · exact .inr (first right right_inside)
      · exact .inr (first left left_inside).symm
      · exact ih rest left_inside right_inside

namespace Source

namespace Orderly

variable {source : Source} {gap span : Span}

theorem fits {frame : Frame} {old : List Cell} (orderly : (frame.fill old).Orderly)
    (located : frame.span old ∈ (frame.fill old).arraySpans) :
    ∀ span ∈ (frame.fill old).arraySpans, frame.Fits old span := by
  intro span member
  obtain ⟨positive, ordered⟩ := ordered_of_mem_arraySpans member
  rcases Span.eq_or_apart orderly.apart member located with same | apart
  · exact .inl same
  · exact .inr ⟨positive, ordered, apart⟩

theorem apart_dependencies (orderly : source.Orderly)
    (located : source.dependenciesSpan? = some gap)
    (found : source.platformsSpan? = some span ∨ source.productsSpan? = some span ∨
      source.targetsSpan? = some span) :
    0 < span.start ∧ span.start ≤ span.stop ∧ span.Apart gap := by
  have member : span ∈ source.arraySpans := by
    rw [mem_arraySpans]
    rcases found with found | found | found <;> simp [found]
  refine ⟨(ordered_of_mem_arraySpans member).1, (ordered_of_mem_arraySpans member).2, ?_⟩
  have apart := orderly.apart
  rw [arraySpans, located] at apart
  obtain ⟨-, apart, platforms⟩ := List.pairwise_append.mp apart
  obtain ⟨-, apart, products⟩ := List.pairwise_append.mp apart
  obtain ⟨-, -, targets⟩ := List.pairwise_append.mp apart
  rcases found with found | found | found
  · exact platforms span (by simp [found]) gap (by simp)
  · exact products span (by simp [found]) gap (by simp)
  · exact (targets gap (by simp) span (by simp [found])).symm

theorem apart_targets (orderly : source.Orderly) (located : source.targetsSpan? = some gap)
    (found : source.platformsSpan? = some span ∨ source.productsSpan? = some span ∨
      source.dependenciesSpan? = some span) :
    0 < span.start ∧ span.start ≤ span.stop ∧ span.Apart gap := by
  have member : span ∈ source.arraySpans := by
    rw [mem_arraySpans]
    rcases found with found | found | found <;> simp [found]
  refine ⟨(ordered_of_mem_arraySpans member).1, (ordered_of_mem_arraySpans member).2, ?_⟩
  have apart := orderly.apart
  rw [arraySpans, located] at apart
  obtain ⟨-, apart, platforms⟩ := List.pairwise_append.mp apart
  obtain ⟨-, apart, products⟩ := List.pairwise_append.mp apart
  obtain ⟨-, -, dependencies⟩ := List.pairwise_append.mp apart
  rcases found with found | found | found
  · exact platforms span (by simp [found]) gap (by simp)
  · exact products span (by simp [found]) gap (by simp)
  · exact dependencies span (by simp [found]) gap (by simp)

end Orderly

end Source

namespace Frame

variable (frame : Frame) {old new : List Cell}

/-- A site that counts as that of the name, and is not held by the gap, is outside of it. -/
theorem outside_of_holds (balanced : Balanced old) {site : LabelSite}
    (found : (frame.fill old).nameSite? = some site)
    (free : (frame.span old).holds site.position = false) :
    site.position < frame.front.length + 1 ∨
      frame.front.length + 1 + old.length < site.position := by
  obtain ⟨member, valued, -⟩ := leastSite?_eq_some_iff.mp found
  cases (frame.mem_labelSites_fill (isLabel_field .name) balanced _).mp member with
  | front inside => exact .inl (frame.position_frontSite _)
  | @inner mark inside =>
      rw [frame.nameBehind?_innerSite inside] at valued
      have bounds := frame.position_innerSite inside
      cases behind : mark.behind with
      | nil => simp [behind, textBehind?, filled?] at valued
      | cons cell rest =>
          have filled : 0 < mark.behind.length := by simp [behind]
          have before : (frame.innerSite old mark).position < frame.front.length + 1 +
              old.length := by
            simp only [innerSite, Mark.site] at bounds ⊢
            omega
          have held : (frame.span old).holds (frame.innerSite old mark).position = true := by
            simp only [Span.holds, Bool.and_eq_true, decide_eq_true_eq]
            exact ⟨bounds.1, before⟩
          rw [held] at free
          cases free
  | back inside => exact .inr (frame.position_backSite old inside).1

/--
The name of the package stays when the inside of an array is exchanged for cells without names.
-/
theorem named_fill (named : (frame.fill old).Named)
    (located : frame.span old ∈ (frame.fill old).arraySpans)
    (fits : ∀ span ∈ (frame.fill old).arraySpans, frame.Fits old span)
    (old_balanced : Balanced old) (new_balanced : Balanced new)
    (moved : (frame.fill new).arraySpans = (frame.fill old).arraySpans.map (frame.moveSpan old new))
    (fewer : Milder .name old new) :
    (frame.fill new).Named ∧ (frame.fill new).packageName = (frame.fill old).packageName := by
  have outside : ∀ site ∈ (frame.fill old).nameSite?, site.position < frame.front.length + 1 ∨
      frame.front.length + 1 + old.length < site.position := fun site found =>
    frame.outside_of_holds old_balanced found (named site found _ located)
  have site := frame.nameSite?_fill old_balanced new_balanced outside (fewer (frame.depth + 1))
  refine ⟨fun other found span member => ?_,
    frame.packageName_fill old_balanced new_balanced outside (fewer (frame.depth + 1))⟩
  rw [site] at found
  obtain ⟨first, search, rfl⟩ := Option.map_eq_some_iff.mp found
  rw [moved] at member
  obtain ⟨array, inside, rfl⟩ := List.mem_map.mp member
  have free := named first search array inside
  have spares := (fits array inside).spares
  rcases outside first search with before | behind
  · have stays : frame.move old new first.position = first.position := by simp [move, before]
    rw [moveSite, stays, frame.holds_moveSpan_front spares before, free]
  · rw [moveSite, frame.holds_moveSpan_back spares behind, free]

section Exchange

variable (orderly : (frame.fill old).Orderly) (old_balanced : Balanced old)
  (new_balanced : Balanced new) (clear : Clear new)
  (milder : ∀ field, field ≠ .dependencies → Milder field old new)
include orderly old_balanced new_balanced clear milder

/-- The package's dependencies can be exchanged, and what is in the other arrays stays. -/
theorem orderly_fill_dependencies
    (located : (frame.fill old).dependenciesSpan? = some (frame.span old))
    (fewer : Milder .dependencies old new) :
    (frame.fill old).Follows (frame.fill new) ∧
      (frame.fill new).dependenciesSpan? = some (frame.span new) ∧
      (frame.fill new).outline = { (frame.fill old).outline with dependencies := some new } := by
  have member := Source.mem_arraySpans.mpr (.inr (.inr (.inl located)))
  have fits := orderly.fits member
  have arrays (field : Field) (_ : field ≠ .name) := milder field
  have platforms := frame.platformsSpan?_fill old_balanced new_balanced fits arrays
  have products := frame.productsSpan?_fill old_balanced new_balanced fits arrays
  have targets := frame.targetsSpan?_fill old_balanced new_balanced fits arrays
  have dependencies :=
    frame.dependenciesSpan?_fill old_balanced new_balanced fits arrays (.inr fewer)
  have moved := frame.arraySpans_fill old_balanced new_balanced fits arrays (.inr fewer)
  have outline : (frame.fill new).outline =
      { (frame.fill old).outline with dependencies := some new } := by
    simp only [Source.outline, platforms, products, targets, dependencies, located, Option.map_some,
      frame.moveSpan_span, frame.cellsIn_span]
    rw [frame.content_fill fun span found => orderly.apart_dependencies located (.inl found),
      frame.content_fill fun span found => orderly.apart_dependencies located (.inr (.inl found)),
      frame.content_fill fun span found => orderly.apart_dependencies located (.inr (.inr found))]
  refine ⟨⟨⟨frame.sound_fill orderly.sound clear, ?_, ?_⟩, fun named => ?_⟩, ?_, outline⟩
  · rw [moved, List.pairwise_map]
    exact orderly.apart.imp frame.apart_moveSpan
  · rw [outline]
    exact orderly.distinct
  · exact frame.named_fill named member fits old_balanced new_balanced moved
      (milder .name (by decide))
  · rw [dependencies, located, Option.map_some, frame.moveSpan_span]

/-- The targets can be exchanged, and what is in the other arrays stays. -/
theorem orderly_fill_targets (located : (frame.fill old).targetsSpan? = some (frame.span old))
    (distinct : ((Outline.elements Source.formIn? (some new)).map TargetForm.name).Nodup) :
    (frame.fill old).Follows (frame.fill new) ∧
      (frame.fill new).targetsSpan? = some (frame.span new) ∧
      (frame.fill new).outline = { (frame.fill old).outline with targets := some new } := by
  have member := Source.mem_arraySpans.mpr (.inr (.inr (.inr located)))
  have fits := orderly.fits member
  have arrays (field : Field) (_ : field ≠ .name) := milder field
  have platforms := frame.platformsSpan?_fill old_balanced new_balanced fits arrays
  have products := frame.productsSpan?_fill old_balanced new_balanced fits arrays
  have targets := frame.targetsSpan?_fill old_balanced new_balanced fits arrays
  have dependencies :=
    frame.dependenciesSpan?_fill old_balanced new_balanced fits arrays (.inl located)
  have moved := frame.arraySpans_fill old_balanced new_balanced fits arrays (.inl located)
  have outline : (frame.fill new).outline =
      { (frame.fill old).outline with targets := some new } := by
    simp only [Source.outline, platforms, products, targets, dependencies, located, Option.map_some,
      frame.moveSpan_span, frame.cellsIn_span]
    rw [frame.content_fill fun span found => orderly.apart_targets located (.inl found),
      frame.content_fill fun span found => orderly.apart_targets located (.inr (.inl found)),
      frame.content_fill fun span found => orderly.apart_targets located (.inr (.inr found))]
  refine ⟨⟨⟨frame.sound_fill orderly.sound clear, ?_, ?_⟩, fun named => ?_⟩, ?_, outline⟩
  · rw [moved, List.pairwise_map]
    exact orderly.apart.imp frame.apart_moveSpan
  · rw [outline]
    exact distinct
  · exact frame.named_fill named member fits old_balanced new_balanced moved
      (milder .name (by decide))
  · rw [targets, located, Option.map_some, frame.moveSpan_span]

end Exchange

end Frame

end SwiftWorkspace
