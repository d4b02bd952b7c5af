import SwiftWorkspace.Manifest.Reading
import SwiftWorkspace.Proofs.Frames

/-!
# Finding the arrays of a manifest

Of the labels of one name the least deeply nested one with a good value counts.
When the inside of a pair of brackets is exchanged, and no good label comes up
there at a new depth, the same label outside of the brackets counts as before.
-/

namespace SwiftWorkspace

theorem any_congr_of_mem {α : Type} {values : List α} {holds other : α → Bool}
    (same : ∀ value ∈ values, holds value = other value) : values.any holds = values.any other := by
  induction values with
  | nil => rfl
  | cons value values ih =>
      rw [List.any_cons, List.any_cons, same value (by simp),
        ih fun more member => same more (by simp [member])]

/-- The labels of a manifest's arguments are labels in code. -/
theorem isLabel_field (field : Field) : IsLabel field.label := by
  cases field <;> exact ⟨by decide, Text.forall_mem_of_all (by decide +kernel),
    Text.forall_mem_of_all (by decide +kernel)⟩

namespace LabelSite

theorem le_iff {left right : LabelSite} :
    le left right = true ↔
      left.depth < right.depth ∨ (left.depth = right.depth ∧ left.position ≤ right.position) := by
  simp [le]

theorem le_refl (site : LabelSite) : le site site = true := by simp [le_iff]

theorem le_total (left right : LabelSite) : (le left right || le right left) = true := by
  simp only [Bool.or_eq_true, le_iff]
  omega

theorem le_trans (first second third : LabelSite) (left : le first second = true)
    (right : le second third = true) : le first third = true := by
  rw [le_iff] at *
  omega

theorem le_antisymm {left right : LabelSite} (front : le left right = true)
    (back : le right left = true) : left = right := by
  obtain ⟨position, depth⟩ := left
  obtain ⟨position', depth'⟩ := right
  simp only [le_iff] at front back
  simp only [LabelSite.mk.injEq]
  omega

end LabelSite

def leastSite? (ok : LabelSite → Bool) (sites : List LabelSite) : Option LabelSite :=
  (sites.mergeSort LabelSite.le).find? ok

section Least

variable {sites : List LabelSite} {ok : LabelSite → Bool}

theorem leastSite?_eq_some_iff {site : LabelSite} :
    leastSite? ok sites = some site ↔
      site ∈ sites ∧ ok site ∧ ∀ other ∈ sites, ok other → LabelSite.le site other := by
  have forward {site : LabelSite} (search : leastSite? ok sites = some site) :
      site ∈ sites ∧ ok site ∧ ∀ other ∈ sites, ok other → LabelSite.le site other := by
    obtain ⟨holds, front, back, split, before⟩ := List.find?_eq_some_iff_append.mp search
    have sorted := List.pairwise_mergeSort LabelSite.le_trans LabelSite.le_total sites
    rw [split] at sorted
    have member (other : LabelSite) : other ∈ sites ↔ other ∈ front ++ site :: back := by
      rw [← split, List.mem_mergeSort]
    refine ⟨(member site).mpr (by simp), holds, fun other inside fits => ?_⟩
    have place := (member other).mp inside
    simp only [List.mem_append, List.mem_cons] at place
    rcases place with early | rfl | late
    · exact absurd fits (by simpa using before other early)
    · exact LabelSite.le_refl other
    · exact (List.pairwise_cons.mp (List.pairwise_append.mp sorted).2.1).1 other late
  refine ⟨forward, ?_⟩
  rintro ⟨inside, holds, least⟩
  cases search : leastSite? ok sites with
  | none =>
      exact absurd holds (List.find?_eq_none.mp search site (List.mem_mergeSort.mpr inside))
  | some first =>
      obtain ⟨place, fits, before⟩ := forward search
      rw [LabelSite.le_antisymm (before site inside holds) (least first place fits)]

theorem leastSite?_eq_none_iff :
    leastSite? ok sites = none ↔ ∀ site ∈ sites, ok site = false := by
  rw [leastSite?, List.find?_eq_none]
  simp

/-- The first site moves along when no new one gets in front of it. -/
theorem leastSite?_move {new : LabelSite → Bool} {moved : List LabelSite}
    {move : LabelSite → LabelSite}
    (keeps : ∀ least ∈ leastSite? ok sites, move least ∈ moved ∧ new (move least))
    (behind : ∀ other ∈ moved, new other → ∃ site ∈ sites, ok site ∧
      ∀ least ∈ leastSite? ok sites, LabelSite.le least site → LabelSite.le (move least) other) :
    leastSite? new moved = (leastSite? ok sites).map move := by
  cases search : leastSite? ok sites with
  | none =>
      have missing := leastSite?_eq_none_iff.mp search
      refine leastSite?_eq_none_iff.mpr fun other member => ?_
      cases fits : new other with
      | false => rfl
      | true =>
          obtain ⟨site, inside, holds, -⟩ := behind other member fits
          simp [missing site inside] at holds
  | some least =>
      obtain ⟨-, -, first⟩ := leastSite?_eq_some_iff.mp search
      obtain ⟨there, kept⟩ := keeps least search
      refine leastSite?_eq_some_iff.mpr ⟨there, kept, fun other member fits => ?_⟩
      obtain ⟨site, inside, holds, le⟩ := behind other member fits
      exact le least search (first site inside holds)

/-- Sites that do not meet a condition can be left out before the search. -/
theorem leastSite?_filter (keep : LabelSite → Bool) :
    leastSite? ok (sites.filter keep) = leastSite? (fun site => keep site && ok site) sites := by
  refine Option.ext fun site => ?_
  simp only [leastSite?_eq_some_iff, List.mem_filter, Bool.and_eq_true]
  constructor
  · rintro ⟨⟨inside, kept⟩, holds, least⟩
    exact ⟨inside, ⟨kept, holds⟩, fun other member fits => least other ⟨member, fits.1⟩ fits.2⟩
  · rintro ⟨inside, ⟨kept, holds⟩, least⟩
    exact ⟨⟨inside, kept⟩, holds, fun other member fits => least other member.1 ⟨member.2, fits⟩⟩

theorem findSome?_mergeSort {β : Type} (value : LabelSite → Option β) :
    (sites.mergeSort LabelSite.le).findSome? value =
      (leastSite? (fun site => (value site).isSome) sites).bind value := by
  rw [leastSite?]
  induction sites.mergeSort LabelSite.le with
  | nil => rfl
  | cons site sites ih =>
      cases found : value site with
      | none => simp [found, ih]
      | some first => simp [found]

end Least

namespace Source

variable (source : Source)

def arraysAt (excluded : List Span) (site : LabelSite) : Bool :=
  !excluded.any (·.holds site.position) &&
    (source.arrayBehind? site.position source.length).isSome

def arraySite? (label : Text) (excluded : List Span) : Option LabelSite :=
  leastSite? (source.arraysAt excluded) (source.labelSites label source.whole)

theorem labeledArray?_eq (label : Text) (excluded : List Span) :
    source.labeledArray? label excluded =
      (source.arraySite? label excluded).bind fun site =>
        source.arrayBehind? site.position source.length := by
  rw [labeledArray?, labeledArrayIn?, arrayAmong?]
  simp only [findSome?_mergeSort, leastSite?_filter]
  rfl

def nameBehind? (position : Nat) : Option Text := do
  let literal ← source.literalAt? (source.skipTrivia position source.length)
  filled? (source.stringIn? literal)

theorem nameBehind?_eq (position : Nat) :
    source.nameBehind? position = filled? (textBehind? (source.cells.drop position)) := by
  have skipped : source.skipTrivia position source.length =
      position + ((source.cells.drop position).takeWhile Cell.isTrivia).length := by
    have := (List.takeWhile_prefix Cell.isTrivia (l := source.cells.drop position)).length_le
    rw [List.length_drop] at this
    simp only [skipTrivia, length]
    omega
  have cut := List.takeWhile_append_dropWhile (p := Cell.isTrivia) (l := source.cells.drop position)
  have behind : source.cells.drop (source.skipTrivia position source.length) =
      (source.cells.drop position).dropWhile Cell.isTrivia := by
    rw [skipped, ← List.drop_drop]
    exact (congrArg (List.drop _) cut.symm).trans List.drop_left
  rw [textBehind?, ← behind]
  rw [nameBehind?]
  generalize source.skipTrivia position source.length = start
  cases cells : source.cells.drop start with
  | nil => simp [literalAt?, at?, ← List.head?_drop, cells, filled?]
  | cons first rest =>
      have found : source.at? start = some first := by simp [at?, ← List.head?_drop, cells]
      rw [literalAt?, found, cells]
      by_cases opens : first.char = '"' ∧ first.kind = .string
      · have run := (List.prefix_iff_eq_take.mp
          (List.takeWhile_prefix (fun cell : Cell => cell.kind = .string)
            (l := first :: rest))).symm
        have head : (first :: rest).takeWhile (fun cell => cell.kind = .string) =
            first :: rest.takeWhile fun cell => cell.kind = .string := by
          simp [opens]
        have chosen : source.cellsIn
            ⟨start, start + ((first :: rest).takeWhile fun cell => cell.kind = .string).length⟩ =
              first :: rest.takeWhile fun cell => cell.kind = .string := by
          rw [cellsIn, Span.size, Nat.add_sub_cancel_left, cells, run, head]
        have literal : source.stringIn?
            ⟨start, start + ((first :: rest).takeWhile fun cell => cell.kind = .string).length⟩ =
              some (Literal.decode (Kind.chars
                (first :: rest.takeWhile fun cell => cell.kind = .string))) := by
          rw [stringIn?, textIn, chosen, Kind.chars]
          simp [opens]
        rw [head] at literal
        simpa [opens] using congrArg filled? literal
      · simp only [not_and] at opens
        by_cases string : first.kind = .string
        · simp [string, show first.char ≠ '"' from fun mark => opens mark string, filled?]
        · simp [string, filled?]

def nameSite? : Option LabelSite :=
  leastSite? (fun site => (source.nameBehind? site.position).isSome)
    (source.labelSites Field.name.label source.whole)

theorem packageName_eq :
    source.packageName =
      (source.nameSite?.bind fun site => source.nameBehind? site.position).getD unknownPackage :=
  congrArg (Option.getD · unknownPackage) (findSome?_mergeSort _)

end Source

namespace Source

/-- What is inside of an array begins behind its bracket. -/
theorem start_of_arrayIn? {cells : List Cell} {span : Span} (found : arrayIn? cells = some span) :
    0 < span.start := by
  rw [arrayIn?, arrayBehind?] at found
  split at found
  · obtain ⟨opening, inner, closing, behind, -, -, -, rfl, -⟩ := insideBefore?_eq_some found
    exact Nat.succ_pos _
  · cases found

end Source

namespace Frame

variable (frame : Frame)

def depth : Nat := Cell.depthOver 0 frame.front

def frontMarks (label : Text) : List Mark := Source.marksFrom label 0 0 false frame.front

def innerMarks (label : Text) (inner : List Cell) : List Mark :=
  Source.marksFrom label 0 (frame.depth + 1) false inner

def backMarks (label : Text) : List Mark := Source.marksFrom label 0 frame.depth false frame.back

end Frame

theorem stops_of_opens {cell : Cell} {shape : Bracket} (opens : cell.opens? = some shape) :
    Stops cell := by
  have code := Cell.isCode_of_opens opens
  have significant := Cell.isSignificant_of_opens opens
  refine ⟨by simp [Cell.isCode, code], ?_, ?_, ?_⟩
  · cases word : cell.isWord with
    | false => rfl
    | true => simp [Cell.noBrackets_of_isWord word] at opens
  · cases trivial : cell.isTrivia with
    | false => rfl
    | true => simp [Cell.noBrackets_of_isTrivia trivial] at opens
  · cases colon : cell.isCodeChar ':' with
    | false => rfl
    | true => simp [Cell.isTrivia_colon colon] at opens

theorem stops_of_closes {cell : Cell} {shape : Bracket} (closes : cell.closes? = some shape) :
    Stops cell := by
  have code := Cell.isCode_of_closes closes
  refine ⟨by simp [Cell.isCode, code], ?_, ?_, ?_⟩
  · cases word : cell.isWord with
    | false => rfl
    | true => simp [Cell.noBrackets_of_isWord word] at closes
  · cases trivial : cell.isTrivia with
    | false => rfl
    | true => simp [Cell.noBrackets_of_isTrivia trivial] at closes
  · cases colon : cell.isCodeChar ':' with
    | false => rfl
    | true => simp [Cell.isTrivia_colon colon] at closes

namespace Frame

variable (frame : Frame) {label : Text} {inner : List Cell}

theorem stops_opening : Stops frame.opening := by
  obtain ⟨shape, opens, -⟩ := frame.pairs
  exact stops_of_opens opens

theorem stops_closing : Stops frame.closing := by
  obtain ⟨shape, -, closes⟩ := frame.pairs
  exact stops_of_closes closes

def moveSite (old new : List Cell) (site : LabelSite) : LabelSite :=
  ⟨frame.move old new site.position, site.depth⟩

def frontSite (mark : Mark) : LabelSite := mark.site frame.front.length

def innerSite (inner : List Cell) (mark : Mark) : LabelSite :=
  mark.site (frame.front.length + 1 + inner.length)

def backSite (inner : List Cell) (mark : Mark) : LabelSite := mark.site (frame.fill inner).length

theorem site_extend {more : List Cell} {stop : Nat} {mark : Mark} :
    (mark.extend more).site (stop + more.length) = mark.site stop := by
  simp only [Mark.site, Mark.extend, List.length_append, LabelSite.mk.injEq, and_true]
  omega

theorem labelSites_fill (isLabel : IsLabel label) (balanced : Balanced inner) :
    (frame.fill inner).labelSites label (frame.fill inner).whole =
      (frame.frontMarks label).map frame.frontSite ++
        ((frame.innerMarks label inner).map (frame.innerSite inner) ++
          (frame.backMarks label).map (frame.backSite inner)) := by
  have level : Cell.depthOver (frame.depth + 1) inner = frame.depth + 1 := balanced.depthOver _
  have front (mark : Mark) :
      (mark.extend (frame.opening :: (inner ++ frame.closing :: frame.back))).site
        (frame.fill inner).length = frame.frontSite mark := by
    rw [Source.length, fill, List.length_append]
    exact site_extend
  have middle (mark : Mark) : (mark.extend (frame.closing :: frame.back)).site
      (frame.fill inner).length = frame.innerSite inner mark := by
    have size : (frame.fill inner).length =
        frame.front.length + 1 + inner.length + (frame.closing :: frame.back).length := by
      rw [frame.length_fill, List.length_cons]
      omega
    rw [size]
    exact site_extend
  have marks : Source.marksFrom label 0 0 false (frame.fill inner).cells =
      (frame.frontMarks label).map (Mark.extend (frame.opening ::
          (inner ++ frame.closing :: frame.back))) ++
        ((frame.innerMarks label inner).map (Mark.extend (frame.closing :: frame.back)) ++
          frame.backMarks label) := by
    rw [fill, Source.marksFrom_append isLabel frame.stops_opening (Nat.zero_le _) (by simp),
      Source.marksFrom_append isLabel frame.stops_closing (Nat.zero_le _) (by simp), ← depth,
      frame.pairs.depthAfter_opening, level, frame.pairs.depthAfter_closing]
    rfl
  rw [Source.labelSites_whole, marks]
  simp only [List.map_append, List.map_map]
  congr 2
  · exact funext front
  · exact List.map_congr_left fun mark _ => middle mark

inductive SiteOf (label : Text) (inner : List Cell) : LabelSite → Prop
  | front {mark : Mark} (member : mark ∈ frame.frontMarks label) :
      SiteOf label inner (frame.frontSite mark)
  | inner {mark : Mark} (member : mark ∈ frame.innerMarks label inner) :
      SiteOf label inner (frame.innerSite inner mark)
  | back {mark : Mark} (member : mark ∈ frame.backMarks label) :
      SiteOf label inner (frame.backSite inner mark)

theorem mem_labelSites_fill (isLabel : IsLabel label) (balanced : Balanced inner)
    (site : LabelSite) :
    site ∈ (frame.fill inner).labelSites label (frame.fill inner).whole ↔
      frame.SiteOf label inner site := by
  rw [frame.labelSites_fill isLabel balanced]
  simp only [List.mem_append, List.mem_map]
  constructor
  · rintro (⟨mark, member, rfl⟩ | ⟨mark, member, rfl⟩ | ⟨mark, member, rfl⟩)
    · exact .front member
    · exact .inner member
    · exact .back member
  · rintro (member | member | member)
    · exact .inl ⟨_, member, rfl⟩
    · exact .inr (.inl ⟨_, member, rfl⟩)
    · exact .inr (.inr ⟨_, member, rfl⟩)

theorem position_frontSite (mark : Mark) :
    (frame.frontSite mark).position < frame.front.length + 1 := by
  simp only [frontSite, Mark.site]
  omega

theorem position_innerSite {mark : Mark} (member : mark ∈ frame.innerMarks label inner) :
    frame.front.length + 1 ≤ (frame.innerSite inner mark).position ∧
      (frame.innerSite inner mark).position ≤ frame.front.length + 1 + inner.length := by
  obtain ⟨skipped, split⟩ := Source.marksFrom_le member
  have size := congrArg List.length split
  rw [List.length_append] at size
  simp only [innerSite, Mark.site]
  omega

theorem position_backSite (inner : List Cell) {mark : Mark}
    (member : mark ∈ frame.backMarks label) :
    frame.front.length + 1 + inner.length < (frame.backSite inner mark).position ∧
      (frame.backSite inner mark).position + mark.behind.length = (frame.fill inner).length := by
  obtain ⟨skipped, split⟩ := Source.marksFrom_le member
  have size := congrArg List.length split
  rw [List.length_append] at size
  simp only [backSite, Mark.site, length_fill]
  omega

theorem moveSite_frontSite (old new : List Cell) (mark : Mark) :
    frame.moveSite old new (frame.frontSite mark) = frame.frontSite mark := by
  simp [moveSite, move, frame.position_frontSite mark]

theorem moveSite_backSite (old new : List Cell) {mark : Mark}
    (member : mark ∈ frame.backMarks label) :
    frame.moveSite old new (frame.backSite old mark) = frame.backSite new mark := by
  have old_place := frame.position_backSite old member
  have new_place := frame.position_backSite new member
  simp only [length_fill] at old_place new_place
  have behind : ¬(frame.backSite old mark).position < frame.front.length + 1 := by omega
  have place : frame.front.length + 1 + new.length +
      ((frame.backSite old mark).position - (frame.front.length + 1 + old.length)) =
        (frame.backSite new mark).position := by omega
  simp only [moveSite, move, behind, if_false, place]
  rfl

/-- The order of sites does not change. -/
theorem le_moveSite (old new : List Cell) {left right : LabelSite} (le : LabelSite.le left right) :
    LabelSite.le (frame.moveSite old new left) (frame.moveSite old new right) := by
  simp only [LabelSite.le_iff, moveSite, move] at le ⊢
  split <;> split <;> omega

theorem mem_hits_iff {good : List Cell → Bool} {level : Nat} :
    level ∈ Source.hits label good (frame.depth + 1) inner ↔
      ∃ mark ∈ frame.innerMarks label inner, good mark.behind ∧ mark.depth = level := by
  simp [Source.hits, innerMarks, and_assoc]

/--
The first site that meets a condition moves along when it is outside of the gap
and the gap gets no hits at a new depth.
-/
theorem leastSite?_fill (isLabel : IsLabel label) (good : List Cell → Bool) (visible : Bool)
    {old new : List Cell} (old_balanced : Balanced old) (new_balanced : Balanced new)
    {before behind : LabelSite → Bool}
    (front : ∀ mark ∈ frame.frontMarks label,
      behind (frame.frontSite mark) = before (frame.frontSite mark))
    (old_inner : ∀ mark ∈ frame.innerMarks label old,
      before (frame.innerSite old mark) = (visible && good mark.behind))
    (new_inner : ∀ mark ∈ frame.innerMarks label new,
      behind (frame.innerSite new mark) = (visible && good mark.behind))
    (back : ∀ mark ∈ frame.backMarks label,
      behind (frame.backSite new mark) = before (frame.backSite old mark))
    (milder : visible → Source.hits label good (frame.depth + 1) new ⊆
      Source.hits label good (frame.depth + 1) old)
    (outside : ∀ site ∈ leastSite? before
        ((frame.fill old).labelSites label (frame.fill old).whole),
      site.position < frame.front.length + 1 ∨ frame.front.length + 1 + old.length <
        site.position) :
    leastSite? behind ((frame.fill new).labelSites label (frame.fill new).whole) =
      (leastSite? before ((frame.fill old).labelSites label (frame.fill old).whole)).map
        (frame.moveSite old new) := by
  have hit {mark : Mark} (member : mark ∈ frame.innerMarks label new)
      (holds : behind (frame.innerSite new mark)) :
      ∃ other ∈ frame.innerMarks label old, before (frame.innerSite old other) ∧
        other.depth = mark.depth := by
    obtain ⟨seen, fits⟩ : visible = true ∧ good mark.behind = true := by
      simpa [new_inner mark member] using holds
    obtain ⟨other, inside, other_fits, same⟩ := frame.mem_hits_iff.mp
      (milder seen (frame.mem_hits_iff.mpr ⟨mark, member, fits, rfl⟩))
    exact ⟨other, inside, by simp [old_inner other inside, seen, other_fits], same⟩
  have old_site := frame.mem_labelSites_fill isLabel old_balanced
  have new_site := frame.mem_labelSites_fill isLabel new_balanced
  refine leastSite?_move (fun least search => ?_) (fun other inside fits => ?_)
  · have away := outside least search
    obtain ⟨inside, holds, -⟩ := leastSite?_eq_some_iff.mp search
    cases (old_site _).mp inside with
    | front member =>
        rw [frame.moveSite_frontSite, front _ member]
        exact ⟨(new_site _).mpr (.front member), holds⟩
    | inner member =>
        have place := frame.position_innerSite member
        omega
    | back member =>
        rw [frame.moveSite_backSite old new member, back _ member]
        exact ⟨(new_site _).mpr (.back member), holds⟩
  · cases (new_site _).mp inside with
    | front member =>
        rw [front _ member] at fits
        refine ⟨_, (old_site _).mpr (.front member), fits, fun least _ le => ?_⟩
        have moved := frame.le_moveSite old new le
        rwa [frame.moveSite_frontSite] at moved
    | inner member =>
        -- The first site is outside of the gap: in front of all sites in it, or behind them.
        obtain ⟨mark, found, old_fits, same⟩ := hit member fits
        refine ⟨_, (old_site _).mpr (.inner found), old_fits, fun least search le => ?_⟩
        have away := outside least search
        have old_place := frame.position_innerSite found
        have new_place := frame.position_innerSite member
        have level : (frame.innerSite old mark).depth = (frame.innerSite new _).depth := same
        rw [LabelSite.le_iff] at le ⊢
        simp only [moveSite, move]
        split <;> omega
    | back member =>
        rw [back _ member] at fits
        refine ⟨_, (old_site _).mpr (.back member), fits, fun least _ le => ?_⟩
        have moved := frame.le_moveSite old new le
        rwa [frame.moveSite_backSite old new member] at moved

theorem drop_frontSite (inner : List Cell) {mark : Mark} (member : mark ∈ frame.frontMarks label) :
    (frame.fill inner).cells.drop (frame.frontSite mark).position =
      ({ frame with front := mark.behind }.fill inner).cells := by
  obtain ⟨skipped, split⟩ := Source.marksFrom_le member
  have place : (frame.frontSite mark).position = skipped.length := by
    simp [frontSite, Mark.site, split]
  simp [place, fill, split]

theorem drop_innerSite {mark : Mark} (member : mark ∈ frame.innerMarks label inner) :
    (frame.fill inner).cells.drop (frame.innerSite inner mark).position =
      mark.behind ++ frame.closing :: frame.back := by
  obtain ⟨skipped, split⟩ := Source.marksFrom_le member
  have place : (frame.innerSite inner mark).position =
      (frame.front ++ frame.opening :: skipped).length := by
    simp only [innerSite, Mark.site, split, List.length_append, List.length_cons]
    omega
  have whole : (frame.fill inner).cells =
      (frame.front ++ frame.opening :: skipped) ++
        (mark.behind ++ frame.closing :: frame.back) := by
    simp [fill, split]
  rw [place, whole, List.drop_left]

theorem drop_backSite (inner : List Cell) {mark : Mark} (member : mark ∈ frame.backMarks label) :
    (frame.fill inner).cells.drop (frame.backSite inner mark).position = mark.behind := by
  obtain ⟨skipped, split⟩ := Source.marksFrom_le member
  have place : (frame.backSite inner mark).position =
      (frame.front ++ frame.opening :: (inner ++ frame.closing :: skipped)).length := by
    simp only [backSite, Mark.site, length_fill, split, List.length_append, List.length_cons]
    omega
  have whole : (frame.fill inner).cells =
      (frame.front ++ frame.opening :: (inner ++ frame.closing :: skipped)) ++ mark.behind := by
    simp [fill, split]
  rw [place, whole, List.drop_left]

/-- In the gap there is an array exactly where one opens, and it begins there. -/
theorem arrayIn?_inner (balanced : Balanced inner) {skipped behind : List Cell}
    (split : inner = skipped ++ behind) :
    (Source.arrayIn? (behind ++ frame.closing :: frame.back)).isSome = opensArray behind ∧
      ∀ span ∈ Source.arrayIn? (behind ++ frame.closing :: frame.back),
        span.start ≤ behind.length := by
  have inside : ∀ cell ∈ behind.takeWhile Cell.isTrivia, cell.isTrivia := fun cell member =>
    List.all_eq_true.mp List.all_takeWhile cell member
  have cut := List.takeWhile_append_dropWhile (p := Cell.isTrivia) (l := behind)
  rw [opensArray]
  generalize behind.takeWhile Cell.isTrivia = trivia at inside cut
  cases rest : behind.dropWhile Cell.isTrivia with
  | nil =>
      obtain rfl : trivia = behind := by simpa [rest] using cut
      have noArray : frame.closing.isCodeChar '[' = false := by
        obtain ⟨shape, -, closes⟩ := frame.pairs
        cases array : frame.closing.isCodeChar '[' with
        | false => rfl
        | true =>
            simp only [Cell.isCodeChar, Cell.isCode, Bool.and_eq_true, decide_eq_true_eq] at array
            simp [Cell.closes?, Cell.isCode, array, Bracket.closed?] at closes
      simp [Source.arrayIn?_append inside frame.stops_closing.noTrivia, noArray]
  | cons cell rest =>
      have boundary : cell.isTrivia = false := by
        have := List.head?_dropWhile_not Cell.isTrivia behind
        simpa [rest] using this
      rw [rest] at cut
      obtain rfl := cut
      rw [List.append_assoc, List.cons_append, Source.arrayIn?_append inside boundary]
      cases array : cell.isCodeChar '[' with
      | false => simp [array]
      | true =>
          obtain ⟨shape, opens⟩ : ∃ shape, cell.opens? = some shape := by
            simp only [Cell.isCodeChar, Cell.isCode, Bool.and_eq_true, decide_eq_true_eq] at array
            exact ⟨.square, by simp [Cell.opens?, Cell.isCode, array, Bracket.opened?]⟩
          obtain ⟨enclosed, closing, more, rfl, pairs, inside⟩ := balanced.exists_closing
            (by rw [split, ← List.append_assoc]) opens
          have found : (⟨trivia ++ cell :: (enclosed ++ closing :: (more ++
              frame.closing :: frame.back))⟩ : Source).closing? trivia.length =
                some (trivia.length + 1 + enclosed.length) :=
            Source.closing?_eq_some_iff.mpr ⟨trivia, cell, enclosed, closing, _, rfl, rfl, pairs,
              inside, rfl⟩
          simp [array, found]

variable {old new : List Cell}

theorem move_shift {skipped behind : List Cell} (split : frame.front = skipped ++ behind)
    (position : Nat) :
    frame.move old new (skipped.length + position) =
      skipped.length + { frame with front := behind }.move old new position := by
  simp only [move, split, List.length_append]
  split <;> split <;> omega

/-- The array behind a site in front of the gap moves along. -/
theorem arrayBehind?_frontSite (old_balanced : Balanced old) (new_balanced : Balanced new)
    {mark : Mark} (member : mark ∈ frame.frontMarks label) :
    (frame.fill new).arrayBehind? (frame.frontSite mark).position (frame.fill new).length =
      ((frame.fill old).arrayBehind? (frame.frontSite mark).position (frame.fill old).length).map
        (frame.moveSpan old new) := by
  have within (inner : List Cell) : (frame.frontSite mark).position ≤
      (frame.fill inner).length := by
    have := frame.position_frontSite mark
    simp only [length_fill]
    omega
  obtain ⟨skipped, split⟩ := Source.marksFrom_le member
  have size := congrArg List.length split
  rw [List.length_append] at size
  have place : (frame.frontSite mark).position = skipped.length := by
    simp only [frontSite, Mark.site]
    omega
  rw [Source.arrayBehind?_eq (within old), Source.arrayBehind?_eq (within new),
    frame.drop_frontSite old member, frame.drop_frontSite new member,
    arrayIn?_fill _ old_balanced new_balanced, Option.map_map, Option.map_map]
  refine Option.map_congr fun span found => ?_
  have start : skipped.length + span.start - 1 = skipped.length + (span.start - 1) := by
    have := Source.start_of_arrayIn? found
    omega
  simp only [Function.comp_apply, Span.shift, moveSpan, place, start, frame.move_shift split,
    Nat.add_assoc]

/-- The array behind a site behind the gap moves along. -/
theorem arrayBehind?_backSite {mark : Mark} (member : mark ∈ frame.backMarks label) :
    (frame.fill new).arrayBehind? (frame.backSite new mark).position (frame.fill new).length =
      ((frame.fill old).arrayBehind? (frame.backSite old mark).position (frame.fill old).length).map
        (frame.moveSpan old new) := by
  have old_place := frame.position_backSite old member
  have new_place := frame.position_backSite new member
  rw [Source.arrayBehind?_eq (by omega), Source.arrayBehind?_eq (by omega),
    frame.drop_backSite old member, frame.drop_backSite new member, Option.map_map]
  refine Option.map_congr fun span found => ?_
  have positive := Source.start_of_arrayIn? found
  simp only [length_fill] at old_place new_place
  have start : ¬(frame.backSite old mark).position + span.start - 1 < frame.front.length + 1 := by
    omega
  have stop : ¬(frame.backSite old mark).position + span.stop < frame.front.length + 1 := by omega
  simp only [Function.comp_apply, Span.shift, moveSpan, move, start, stop, if_false, Span.mk.injEq]
  omega

theorem arrayBehind?_innerSite (balanced : Balanced inner) {mark : Mark}
    (member : mark ∈ frame.innerMarks label inner) :
    ((frame.fill inner).arrayBehind? (frame.innerSite inner mark).position
        (frame.fill inner).length).isSome = opensArray mark.behind ∧
      ∀ span ∈ (frame.fill inner).arrayBehind? (frame.innerSite inner mark).position
        (frame.fill inner).length, frame.front.length + 1 < span.start ∧
          span.start ≤ frame.front.length + 1 + inner.length := by
  obtain ⟨skipped, split⟩ := Source.marksFrom_le member
  have size := congrArg List.length split
  have place : (frame.innerSite inner mark).position + mark.behind.length =
      frame.front.length + 1 + inner.length := by
    simp only [List.length_append] at size
    simp only [innerSite, Mark.site]
    omega
  have bounds := frame.position_innerSite member
  obtain ⟨opens, begins⟩ := frame.arrayIn?_inner balanced split
  rw [Source.arrayBehind?_eq (by rw [length_fill]; omega), frame.drop_innerSite member,
    Option.isSome_map]
  refine ⟨opens, fun span found => ?_⟩
  obtain ⟨inside, search, rfl⟩ := Option.map_eq_some_iff.mp found
  have positive := Source.start_of_arrayIn? search
  have within := begins inside search
  simp only [Span.shift]
  omega

theorem nameBehind?_frontSite (inner : List Cell) {mark : Mark}
    (member : mark ∈ frame.frontMarks label) :
    (frame.fill inner).nameBehind? (frame.frontSite mark).position =
      filled? (textBehind? mark.behind) := by
  rw [Source.nameBehind?_eq, frame.drop_frontSite inner member, fill]
  exact congrArg filled? (textBehind?_append _ (by simp [frame.pairs.opening_code])
    (by simp [frame.stops_opening.noTrivia, frame.pairs.opening_code]))

theorem nameBehind?_innerSite {mark : Mark} (member : mark ∈ frame.innerMarks label inner) :
    (frame.fill inner).nameBehind? (frame.innerSite inner mark).position =
      filled? (textBehind? mark.behind) := by
  rw [Source.nameBehind?_eq, frame.drop_innerSite member]
  exact congrArg filled? (textBehind?_append _ (by simp [frame.pairs.closing_code])
    (by simp [frame.stops_closing.noTrivia, frame.pairs.closing_code]))

theorem nameBehind?_backSite (inner : List Cell) {mark : Mark}
    (member : mark ∈ frame.backMarks label) :
    (frame.fill inner).nameBehind? (frame.backSite inner mark).position =
      filled? (textBehind? mark.behind) := by
  rw [Source.nameBehind?_eq, frame.drop_backSite inner member]

def hides (inner : List Cell) (span : Span) : Bool :=
  span.start ≤ frame.front.length + 1 && frame.front.length + 1 + inner.length ≤ span.stop

/-- A span that does not end or begin in the gap. -/
structure Spares (inner : List Cell) (span : Span) : Prop where
  positive : 0 < span.start
  ordered : span.start ≤ span.stop
  apart : span.stop < frame.front.length + 1 ∨
    frame.front.length + 1 + inner.length < span.start ∨ frame.hides inner span

theorem holds_moveSpan_front {span : Span} (spares : frame.Spares old span) {position : Nat}
    (within : position < frame.front.length + 1) :
    (frame.moveSpan old new span).holds position = span.holds position := by
  obtain ⟨positive, ordered, apart⟩ := spares
  simp only [hides, Bool.and_eq_true, decide_eq_true_eq] at apart
  rw [Bool.eq_iff_iff]
  simp only [Span.holds, Bool.and_eq_true, decide_eq_true_eq]
  simp only [moveSpan, move]
  refine and_congr ?_ ?_ <;> split <;> omega

theorem holds_moveSpan_back {span : Span} (spares : frame.Spares old span) {position : Nat}
    (within : frame.front.length + 1 + old.length < position) :
    (frame.moveSpan old new span).holds (frame.move old new position) = span.holds position := by
  obtain ⟨positive, ordered, apart⟩ := spares
  have behind : ¬position < frame.front.length + 1 := by omega
  simp only [hides, Bool.and_eq_true, decide_eq_true_eq] at apart
  rw [Bool.eq_iff_iff]
  simp only [Span.holds, Bool.and_eq_true, decide_eq_true_eq]
  simp only [moveSpan, move, behind, if_false]
  refine and_congr ?_ ?_ <;> split <;> omega

theorem hides_moveSpan {span : Span} (spares : frame.Spares old span) :
    frame.hides new (frame.moveSpan old new span) = frame.hides old span := by
  obtain ⟨positive, ordered, apart⟩ := spares
  simp only [hides, Bool.and_eq_true, decide_eq_true_eq] at apart
  rw [Bool.eq_iff_iff]
  simp only [hides, Bool.and_eq_true, decide_eq_true_eq]
  simp only [moveSpan, move]
  refine and_congr ?_ ?_ <;> split <;> omega

theorem Spares.moveSpan {span : Span} (spares : frame.Spares old span) :
    frame.Spares new (frame.moveSpan old new span) := by
  have around : frame.hides new (frame.moveSpan old new span) = frame.hides old span :=
    frame.hides_moveSpan spares
  obtain ⟨positive, ordered, apart⟩ := spares
  refine ⟨Nat.succ_pos _, ?_, ?_⟩
  · simp only [hides, Bool.and_eq_true, decide_eq_true_eq] at apart
    simp only [Frame.moveSpan, move]
    split <;> split <;> omega
  · rw [around]
    simp only [Frame.moveSpan, move]
    rcases apart with before | behind | hides
    · have : span.start - 1 < frame.front.length + 1 := by omega
      simp only [before, if_true, true_or]
    · have : ¬span.start - 1 < frame.front.length + 1 := by omega
      refine .inr (.inl ?_)
      rw [if_neg this]
      omega
    · exact .inr (.inr hides)

/-- A span holds the positions in the gap when it reaches around it, and none of them otherwise. -/
theorem holds_inner {span : Span} (spares : frame.Spares inner span) {position : Nat}
    (within : frame.front.length + 1 ≤ position)
    (before : position < frame.front.length + 1 + inner.length) :
    span.holds position = frame.hides inner span := by
  obtain ⟨positive, ordered, apart⟩ := spares
  simp only [hides, Bool.and_eq_true, decide_eq_true_eq] at apart
  rw [Bool.eq_iff_iff]
  simp only [Span.holds, hides, Bool.and_eq_true, decide_eq_true_eq]
  omega

section Arrays

variable {excluded : List Span} (spares : ∀ span ∈ excluded, frame.Spares old span)
include spares

/-- The gap stays visible or hidden when the excluded spans move along. -/
theorem any_hides_moveSpan :
    (excluded.map (frame.moveSpan old new)).any (frame.hides new) =
      excluded.any (frame.hides old) := by
  rw [List.any_map]
  exact any_congr_of_mem fun span member => frame.hides_moveSpan (spares span member)

theorem arraysAt_frontSite (old_balanced : Balanced old) (new_balanced : Balanced new)
    {mark : Mark} (member : mark ∈ frame.frontMarks label) :
    (frame.fill new).arraysAt (excluded.map (frame.moveSpan old new)) (frame.frontSite mark) =
      (frame.fill old).arraysAt excluded (frame.frontSite mark) := by
  have holds : (excluded.map (frame.moveSpan old new)).any
      (·.holds (frame.frontSite mark).position) =
      excluded.any (·.holds (frame.frontSite mark).position) := by
    rw [List.any_map]
    exact any_congr_of_mem fun span inside =>
      frame.holds_moveSpan_front (spares span inside) (frame.position_frontSite mark)
  rw [Source.arraysAt, Source.arraysAt, holds,
    frame.arrayBehind?_frontSite old_balanced new_balanced member, Option.isSome_map]

theorem arraysAt_backSite {mark : Mark} (member : mark ∈ frame.backMarks label) :
    (frame.fill new).arraysAt (excluded.map (frame.moveSpan old new)) (frame.backSite new mark) =
      (frame.fill old).arraysAt excluded (frame.backSite old mark) := by
  have place : (frame.backSite new mark).position =
      frame.move old new (frame.backSite old mark).position :=
    congrArg LabelSite.position (frame.moveSite_backSite old new member).symm
  have holds : (excluded.map (frame.moveSpan old new)).any
      (·.holds (frame.backSite new mark).position) =
      excluded.any (·.holds (frame.backSite old mark).position) := by
    rw [List.any_map, place]
    exact any_congr_of_mem fun span inside =>
      frame.holds_moveSpan_back (spares span inside) (frame.position_backSite old member).1
  rw [Source.arraysAt, Source.arraysAt, holds, frame.arrayBehind?_backSite member,
    Option.isSome_map]

end Arrays

/-- In the gap a site counts where an array opens, unless an excluded span hides it. -/
theorem arraysAt_innerSite {excluded : List Span}
    (spares : ∀ span ∈ excluded, frame.Spares inner span) (balanced : Balanced inner) {mark : Mark}
    (member : mark ∈ frame.innerMarks label inner) :
    (frame.fill inner).arraysAt excluded (frame.innerSite inner mark) =
      (!excluded.any (frame.hides inner) && opensArray mark.behind) := by
  rw [Source.arraysAt, (frame.arrayBehind?_innerSite balanced member).1]
  by_cases empty : mark.behind = []
  · simp [empty, opensArray]
  · obtain ⟨skipped, split⟩ := Source.marksFrom_le member
    have filled := List.length_pos_iff.mpr empty
    have size := congrArg List.length split
    rw [List.length_append] at size
    have holds : excluded.any (·.holds (frame.innerSite inner mark).position) =
        excluded.any (frame.hides inner) :=
      any_congr_of_mem fun span inside => frame.holds_inner (spares span inside)
        (frame.position_innerSite member).1 (by
          simp only [innerSite, Mark.site]
          omega)
    rw [holds]

/-- The array of a label outside of the gap moves along when the gap gets no hits at a new depth. -/
theorem labeledArray?_fill (isLabel : IsLabel label) (old_balanced : Balanced old)
    (new_balanced : Balanced new) {excluded : List Span}
    (spares : ∀ span ∈ excluded, frame.Spares old span)
    (outside : ∀ span ∈ (frame.fill old).labeledArray? label excluded, frame.Spares old span)
    (milder : excluded.any (frame.hides old) = false →
      Source.hits label opensArray (frame.depth + 1) new ⊆
        Source.hits label opensArray (frame.depth + 1) old) :
    (frame.fill new).labeledArray? label (excluded.map (frame.moveSpan old new)) =
      ((frame.fill old).labeledArray? label excluded).map (frame.moveSpan old new) := by
  have new_spares : ∀ span ∈ excluded.map (frame.moveSpan old new), frame.Spares new span := by
    intro span member
    obtain ⟨other, inside, rfl⟩ := List.mem_map.mp member
    exact (spares other inside).moveSpan
  have away : ∀ site ∈ (frame.fill old).arraySite? label excluded,
      site.position < frame.front.length + 1 ∨
        frame.front.length + 1 + old.length < site.position := by
    intro site found
    obtain ⟨inside, holds, -⟩ := leastSite?_eq_some_iff.mp found
    cases (frame.mem_labelSites_fill isLabel old_balanced _).mp inside with
    | front member => exact .inl (frame.position_frontSite _)
    | inner member =>
        obtain ⟨-, valued⟩ := Bool.and_eq_true_iff.mp holds
        obtain ⟨span, array⟩ := Option.isSome_iff_exists.mp valued
        have begins := (frame.arrayBehind?_innerSite old_balanced member).2 span array
        have located : (frame.fill old).labeledArray? label excluded = some span := by
          rw [Source.labeledArray?_eq, found]
          exact array
        obtain ⟨positive, ordered, apart⟩ := outside span located
        simp only [hides, Bool.and_eq_true, decide_eq_true_eq] at apart
        omega
    | back member => exact .inr (frame.position_backSite old member).1
  have moved : (frame.fill new).arraySite? label (excluded.map (frame.moveSpan old new)) =
      ((frame.fill old).arraySite? label excluded).map (frame.moveSite old new) := by
    refine frame.leastSite?_fill isLabel opensArray (!excluded.any (frame.hides old)) old_balanced
      new_balanced (fun mark => frame.arraysAt_frontSite spares old_balanced new_balanced)
      (fun mark => frame.arraysAt_innerSite spares old_balanced) (fun mark member => ?_)
      (fun mark => frame.arraysAt_backSite spares) (fun visible => milder (by simpa using visible))
      fun site found => ?_
    · rw [frame.arraysAt_innerSite new_spares new_balanced member, frame.any_hides_moveSpan spares]
    · exact away site found
  rw [Source.labeledArray?_eq, Source.labeledArray?_eq, moved]
  cases search : (frame.fill old).arraySite? label excluded with
  | none => rfl
  | some site =>
      have inside := (leastSite?_eq_some_iff.mp search).1
      have bounds := away site search
      rw [Option.map_some, Option.bind_some, Option.bind_some]
      cases (frame.mem_labelSites_fill isLabel old_balanced _).mp inside with
      | front member =>
          rw [frame.moveSite_frontSite, frame.arrayBehind?_frontSite old_balanced
            new_balanced member]
      | inner member =>
          have place := frame.position_innerSite member
          omega
      | back member =>
          rw [frame.moveSite_backSite old new member, frame.arrayBehind?_backSite member]

section Name

variable (old_balanced : Balanced old) (new_balanced : Balanced new)
  (outside : ∀ site ∈ (frame.fill old).nameSite?,
    site.position < frame.front.length + 1 ∨ frame.front.length + 1 + old.length < site.position)
  (milder : Source.hits Field.name.label namesText (frame.depth + 1) new ⊆
    Source.hits Field.name.label namesText (frame.depth + 1) old)
include old_balanced new_balanced outside milder

/-- The site of the name moves along when the gap gets no names at a new depth. -/
theorem nameSite?_fill :
    (frame.fill new).nameSite? = (frame.fill old).nameSite?.map (frame.moveSite old new) := by
  refine frame.leastSite?_fill (isLabel_field .name) namesText true old_balanced new_balanced
    (fun mark member => ?_) (fun mark member => ?_) (fun mark member => ?_) (fun mark member => ?_)
    (fun _ => milder) outside
  · rw [frame.nameBehind?_frontSite new member, frame.nameBehind?_frontSite old member]
  · rw [frame.nameBehind?_innerSite member, namesText, Bool.true_and]
  · rw [frame.nameBehind?_innerSite member, namesText, Bool.true_and]
  · rw [frame.nameBehind?_backSite new member, frame.nameBehind?_backSite old member]

/-- The package keeps its name when the gap gets no names at a new depth. -/
theorem packageName_fill : (frame.fill new).packageName = (frame.fill old).packageName := by
  rw [Source.packageName_eq, Source.packageName_eq,
    frame.nameSite?_fill old_balanced new_balanced outside milder]
  cases search : (frame.fill old).nameSite? with
  | none => rfl
  | some site =>
      have inside := (leastSite?_eq_some_iff.mp search).1
      have bounds := outside site search
      rw [Option.map_some, Option.bind_some, Option.bind_some]
      cases (frame.mem_labelSites_fill (isLabel_field .name) old_balanced _).mp inside with
      | front member =>
          rw [frame.moveSite_frontSite, frame.nameBehind?_frontSite new member,
            frame.nameBehind?_frontSite old member]
      | inner member =>
          have place := frame.position_innerSite member
          omega
      | back member =>
          rw [frame.moveSite_backSite old new member, frame.nameBehind?_backSite new member,
            frame.nameBehind?_backSite old member]

end Name

end Frame

end SwiftWorkspace
