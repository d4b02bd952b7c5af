import SwiftWorkspace.Proofs.Abreast
import SwiftWorkspace.Proofs.Locate

/-!
# The structure of a source

Closing brackets, labels, arrays and elements are the same in two texts that agree in
the kinds of their characters and in their code.  What literals and comments hold can
neither create nor hide nor move any of them.
-/

namespace SwiftWorkspace

namespace Source

theorem labelWidth?_mono {label : Text} {room more width : Nat} {cells : List Cell}
    (le : room ≤ more)
    (found : labelWidth? label room cells = some width) :
    labelWidth? label more cells = some width := by
  rw [labelWidth?] at found ⊢
  cases after : afterLabel? label cells with
  | none => simp [after] at found
  | some rest =>
      simp only [after, Option.ite_none_right_eq_some, Bool.and_eq_true,
        decide_eq_true_eq] at found ⊢
      exact ⟨⟨found.1.1, found.1.2.trans le⟩, found.2⟩

theorem exists_colon_of_labelWidth? {label : Text} {room width : Nat} {cells : List Cell}
    (found : labelWidth? label room cells = some width) :
    ∃ offset colon, width = offset + 1 ∧ cells[offset]? = some colon ∧ colon.isCodeChar ':' := by
  obtain ⟨word, trivia, colon, rest, rfl, -, -, isColon, -, rfl⟩ :=
    (labelWidth?_eq_some_iff (Nat.le_max_right room _)).mp
      (labelWidth?_mono (Nat.le_max_left _ cells.length) found)
  refine ⟨word.length + trivia.length, colon, rfl, ?_, isColon⟩
  simp [← List.append_assoc]

theorem exists_colon_of_mem {label : Text} {stop skip position depth : Nat} {inWord : Bool}
    {cells : List Cell}
    {site : LabelSite} (member : site ∈ labelSitesFrom label stop skip position
      depth inWord cells) :
    ∃ offset colon, site.position = position + offset + 1 ∧ cells[offset]? = some colon ∧
      colon.isCodeChar ':' := by
  have further {position : Nat} {cell : Cell} {cells : List Cell}
      (found : ∃ offset colon, site.position = position + 1 + offset + 1 ∧
        cells[offset]? = some colon ∧
        colon.isCodeChar ':') :
      ∃ offset colon, site.position = position + offset + 1 ∧
        (cell :: cells)[offset]? = some colon ∧
        colon.isCodeChar ':' := by
    obtain ⟨offset, colon, place, there, isColon⟩ := found
    exact ⟨offset + 1, colon, by omega, there, isColon⟩
  fun_induction labelSitesFrom label stop skip position depth inWord cells with
  | case1 => cases member
  | case2 skip position depth _ cell cells ih => exact further (ih member)
  | case3 => cases member
  | case4 position depth inWord cell cells _ _ ih => exact further (ih member)
  | case5 position depth inWord cell cells _ _ width found ih =>
      rcases List.mem_cons.mp member with rfl | member
      · obtain ⟨offset, colon, rfl, there, isColon⟩ := exists_colon_of_labelWidth? found
        exact ⟨offset, colon, rfl, there, isColon⟩
      · exact further (ih member)
  | case6 position depth inWord cell cells _ _ found ih => exact further (ih member)

theorem exists_colon_of_mem_labelSitesFrom {source : Source} {label : Text} {start stop depth : Nat}
    {inWord : Bool} {site : LabelSite}
    (member : site ∈ labelSitesFrom label stop 0 start depth inWord (source.cells.drop start)) :
    ∃ position, site.position = position + 1 ∧ source.hasCodeAt position ':' := by
  obtain ⟨offset, colon, place, there, isColon⟩ := exists_colon_of_mem member
  rw [List.getElem?_drop] at there
  exact ⟨start + offset, place, (Option.any_eq_true _ _).mpr ⟨colon, there, isColon⟩⟩

theorem hasCodeAt_of_colonAround? {source : Source} {label : Text} {stop colon : Nat}
    {cells : List Cell}
    (found : source.colonAround? label stop cells = some colon) : source.hasCodeAt colon ':' := by
  rw [colonAround?] at found
  simp only [Option.ite_none_right_eq_some, Bool.and_eq_true] at found
  obtain ⟨⟨-, code⟩, same⟩ := found
  exact Option.some.inj same ▸ code

/-- A search around the end goes on behind a cell that no label begins with. -/
theorem labelSitesAround_hidden {source : Source} {label : Text} {cell : Cell}
    (isLabel : IsLabel label) (hidden : cell.Hidden) (stop depth : Nat) (cells : List Cell) :
    source.labelSitesAround label stop depth (cell :: cells) =
      source.labelSitesAround label stop depth cells := by
  have none (code : cell.isCode) : source.colonAround? label stop (cell :: cells) = none := by
    have blank := hidden.isBlank code
    obtain ⟨char, label, rfl⟩ := List.exists_cons_of_ne_nil isLabel.filled
    have differs : (char == cell.char) = false := by
      refine beq_eq_false_iff_ne.mpr ?_
      rintro rfl
      simp [isLabel.solid _ (.head _)] at blank
    simp [colonAround?, List.isPrefixOf_cons_cons, differs]
  rw [labelSitesAround, hidden.depthAfter]
  cases code : cell.isCode with
  | false => rfl
  | true => simp only [none code, ite_self]

theorem exists_colon_of_mem_labelSitesAround {source : Source} {label : Text} {stop depth : Nat}
    {last : List Cell}
    {site : LabelSite} (member : site ∈ source.labelSitesAround label stop depth last) :
    ∃ position, site.position = position + 1 ∧ source.hasCodeAt position ':' := by
  induction last generalizing depth with
  | nil => exact exists_colon_of_mem_labelSitesFrom member
  | cons cell last ih =>
      rw [labelSitesAround] at member
      split at member
      · rename_i colon found
        rcases List.mem_cons.mp member with rfl | member
        · exact ⟨colon, rfl, hasCodeAt_of_colonAround? (Option.ite_none_right_eq_some.mp found).2⟩
        · exact exists_colon_of_mem_labelSitesFrom member
      · exact ih member

theorem exists_colon_of_mem_labelSitesWithin {source : Source} {label : Text} {given : GivenSpan}
    {sites : List LabelSite} (found : source.labelSitesWithin label given = .ok sites)
    {site : LabelSite}
    (member : site ∈ sites) :
    ∃ position, site.position = position + 1 ∧ source.hasCodeAt position ':' := by
  rw [labelSitesWithin] at found
  split_ifs at found <;> obtain rfl := Except.ok.inj found
  · cases member
  · exact exists_colon_of_mem_labelSitesFrom member
  · cases member
  · exact exists_colon_of_mem_labelSitesAround member

end Source

theorem Twins.elements_eq {left right : Source} (twins : Twins left.cells right.cells)
    (span : Span) : left.elements span = right.elements span :=
  Twins.elementsFrom_eq (List.forall₂_take span.size (List.forall₂_drop span.start twins))
    0 span.start none

/-- Sources of one structure: they agree cell by cell, and each is that of some text. -/
structure Alike (left right : Source) : Prop where
  abreast : Abreast .start .start left.cells right.cells

namespace Alike

variable {left right : Source} (alike : Alike left right)
include alike

theorem twins : Twins left.cells right.cells := alike.abreast.twins

theorem length_eq : left.length = right.length := alike.twins.length_eq

theorem at? (position : Nat) : Option.Rel Twin (left.at? position) (right.at? position) :=
  alike.twins.getElem? position

theorem hasCodeAt_eq (position : Nat) {char : Char} (filled : isBlank char = false) :
    left.hasCodeAt position char = right.hasCodeAt position char := by
  have related := alike.at? position
  rw [Source.hasCodeAt, Source.hasCodeAt]
  generalize left.at? position = found at related
  generalize right.at? position = found' at related
  cases related with
  | none => rfl
  | some twin => exact twin.isCodeChar_eq filled

/-- Both close a bracket at the same place. -/
theorem closing?_eq (position : Nat) : left.closing? position = right.closing? position := by
  have related := alike.at? position
  rw [Source.closing?, Source.closing?]
  generalize left.at? position = found at related
  generalize right.at? position = found' at related
  cases related with
  | none => rfl
  | some twin =>
      simp only [twin.opens?_eq]
      rw [Twins.closingFrom_eq (List.forall₂_drop position alike.twins)]

theorem insideBefore?_eq (position stop : Nat) :
    left.insideBefore? position stop = right.insideBefore? position stop := by
  rw [Source.insideBefore?, Source.insideBefore?, alike.closing?_eq]

theorem elements_eq (span : Span) : left.elements span = right.elements span :=
  Twins.elements_eq alike.twins span

/-- Some cell stands in front of a place, in both one of the same word. -/
theorem exists_before (position : Nat) : ∃ before before', Twin before before' ∧
    Abreast before before' (left.cells.drop position) (right.cells.drop position) ∧
    left.wordBefore position = before.isWord ∧ right.wordBefore position = before'.isWord := by
  have start (source : Source) : source.wordBefore 0 = Cell.start.isWord := by
    simp [Source.wordBefore]; decide
  cases position with
  | zero => exact ⟨.start, .start, .quiet rfl rfl, alike.abreast, start left, start right⟩
  | succ position =>
      have related := alike.at? position
      rw [Source.wordBefore, Source.wordBefore, Nat.add_sub_cancel]
      generalize found : left.at? position = cell at related
      generalize found' : right.at? position = cell' at related
      cases related with
      | none =>
          have behind {source : Source} (nothing : source.at? position = none) :
              source.cells.drop (position + 1) = [] :=
            List.drop_eq_nil_of_le (Nat.le_succ_of_le (List.getElem?_eq_none_iff.mp nothing))
          rw [behind found, behind found']
          exact ⟨.start, .start, .quiet rfl rfl, ⟨.nil, .singleton _, .singleton _⟩, rfl, rfl⟩
      | some twin => exact ⟨_, _, twin, alike.abreast.drop found found', rfl, rfl⟩

theorem labelSites_eq {label : Text} (isLabel : IsLabel label) (span : Span) :
    left.labelSites label span = right.labelSites label span := by
  obtain ⟨before, before', twin, abreast, word, word'⟩ := alike.exists_before span.start
  rw [Source.labelSites, Source.labelSites, word, word']
  exact abreast.labelSitesFrom_eq isLabel twin span.stop 0 span.start 0

/-- Behind a code character trivia reach to the same place in both. -/
theorem skipTrivia_eq {position : Nat} {char : Char} (code : left.hasCodeAt position char)
    (filled : isBlank char = false) (stop : Nat) :
    left.skipTrivia (position + 1) stop = right.skipTrivia (position + 1) stop := by
  have code' := (alike.hasCodeAt_eq position filled).symm.trans code
  obtain ⟨cell, found, here⟩ := (Option.any_eq_true _ _).mp code
  obtain ⟨cell', found', here'⟩ := (Option.any_eq_true _ _).mp code'
  have outside {cell : Cell} (here : cell.isCodeChar char) : cell.kind ≠ .string := by
    simp only [Cell.isCodeChar, Cell.isCode, Bool.and_eq_true, decide_eq_true_eq] at here
    simp [here.1]
  have count := ((alike.abreast.drop found found').trivia (outside here) (outside here')).1
  rw [Source.skipTrivia, Source.skipTrivia, count]

theorem arrayBehind?_eq {position : Nat} (colon : left.hasCodeAt position ':') (stop : Nat) :
    left.arrayBehind? (position + 1) stop = right.arrayBehind? (position + 1) stop := by
  have opens : isBlank '[' = false := by decide
  rw [Source.arrayBehind?, Source.arrayBehind?, alike.skipTrivia_eq colon (by decide)]
  simp only [alike.hasCodeAt_eq _ opens, alike.insideBefore?_eq]

theorem arrayAmong?_eq {sites : List LabelSite}
    (colons : ∀ site ∈ sites, ∃ position, site.position = position + 1 ∧
      left.hasCodeAt position ':')
    (stop : Nat) (excluded : List Span) :
    left.arrayAmong? sites stop excluded = right.arrayAmong? sites stop excluded := by
  have each : ∀ site ∈ (sites.filter fun site => !excluded.any (·.holds site.position)).mergeSort
      LabelSite.le,
      left.arrayBehind? site.position stop = right.arrayBehind? site.position stop := by
    intro site member
    obtain ⟨position, place, colon⟩ :=
      colons site (List.mem_of_mem_filter (List.mem_mergeSort.mp member))
    rw [place]
    exact alike.arrayBehind?_eq colon stop
  simp only [Source.arrayAmong?, ← List.head?_filterMap, List.filterMap_congr each]

theorem labeledArrayIn?_eq {label : Text} (isLabel : IsLabel label) (span : Span)
    (excluded : List Span) :
    left.labeledArrayIn? label span excluded = right.labeledArrayIn? label span excluded := by
  rw [Source.labeledArrayIn?, Source.labeledArrayIn?, ← alike.labelSites_eq isLabel]
  exact alike.arrayAmong?_eq (fun site member => Source.exists_colon_of_mem_labelSitesFrom member)
    span.stop excluded

theorem labeledArray?_eq {label : Text} (isLabel : IsLabel label) (excluded : List Span) :
    left.labeledArray? label excluded = right.labeledArray? label excluded := by
  rw [Source.labeledArray?, Source.labeledArray?, Source.whole, Source.whole, alike.length_eq,
    alike.labeledArrayIn?_eq isLabel]

theorem targetsSpan?_eq : left.targetsSpan? = right.targetsSpan? :=
  alike.labeledArray?_eq (isLabel_field .targets) []

theorem productsSpan?_eq : left.productsSpan? = right.productsSpan? :=
  alike.labeledArray?_eq (isLabel_field .products) []

theorem dependenciesSpan?_eq : left.dependenciesSpan? = right.dependenciesSpan? := by
  rw [Source.dependenciesSpan?, Source.dependenciesSpan?, alike.targetsSpan?_eq,
    alike.productsSpan?_eq, alike.labeledArray?_eq (isLabel_field .dependencies)]

/-! Ranges that a caller gives, from the end or beyond it -/

theorem underruns_eq (position : Int) : left.underruns position = right.underruns position := by
  rw [Source.underruns, Source.underruns, alike.length_eq]

theorem twins_drop_last (count : Nat) :
    Twins (left.cells.drop (left.length - count)) (right.cells.drop (right.length - count)) := by
  rw [alike.length_eq]
  exact List.forall₂_drop _ alike.twins

theorem elementsWithin_eq (given : GivenSpan) :
    left.elementsWithin given = right.elementsWithin given := by
  have shifted : Twins (left.shiftedFor given).cells (right.shiftedFor given).cells :=
    List.rel_append (alike.twins_drop_last given.lead) alike.twins
  rw [Source.elementsWithin, Source.elementsWithin, alike.underruns_eq, Twins.elements_eq shifted]

/-- Trivia reach from the start to the same place in both. -/
theorem skipTrivia_zero_eq (stop : Nat) : left.skipTrivia 0 stop = right.skipTrivia 0 stop := by
  have outside : Cell.start.kind ≠ .string := by decide
  rw [Source.skipTrivia, Source.skipTrivia, List.drop_zero, List.drop_zero,
    (alike.abreast.trivia outside outside).1]

theorem isWord_first : (left.at? 0).any Cell.isWord = (right.at? 0).any Cell.isWord := by
  rw [Source.at?, Source.at?, ← List.head?_eq_getElem?, ← List.head?_eq_getElem?]
  exact alike.abreast.isWord_head rfl rfl

/-- Where a label begins with the same code character both have its colon at the same place. -/
theorem colonAround?_eq {cell : Cell} {cells cells' : List Cell}
    (abreast : Abreast cell cell cells cells')
    (code : cell.kind = .code) {label : Text} (isLabel : IsLabel label) (stop : Nat) :
    left.colonAround? label stop (cell :: cells) =
      right.colonAround? label stop (cell :: cells') := by
  obtain ⟨char, label, rfl⟩ := List.exists_cons_of_ne_nil isLabel.filled
  obtain ⟨same, behind⟩ := abreast.startsWith code code fun other member =>
    isLabel.word other (.tail _ member)
  have colon : isBlank ':' = false := by decide
  simp only [Source.colonAround?, List.map_cons, List.isPrefixOf_cons_cons, List.length_cons,
    List.drop_succ_cons,
    ← same, alike.skipTrivia_zero_eq, alike.isWord_first, alike.hasCodeAt_eq _ colon]
  cases starts : label.isPrefixOf (cells.map Cell.char) with
  | false => simp
  | true =>
      obtain ⟨last, last', code, code', rest⟩ := behind starts
      rw [rest.isEmpty_eq, rest.all_isTrivia_eq (by simp [code]) (by simp [code'])]

theorem labelSitesFrom_behind {label : Text} (isLabel : IsLabel label) {colon : Nat}
    (isColon : left.hasCodeAt colon ':') (stop position depth : Nat) :
    Source.labelSitesFrom label stop 0 position depth false (left.cells.drop (colon + 1)) =
      Source.labelSitesFrom label stop 0 position depth false (right.cells.drop (colon + 1)) := by
  have isColon' := (alike.hasCodeAt_eq colon (by decide)).symm.trans isColon
  obtain ⟨cell, found, here⟩ := (Option.any_eq_true _ _).mp isColon
  obtain ⟨cell', found', here'⟩ := (Option.any_eq_true _ _).mp isColon'
  have noWord {cell : Cell} (here : cell.isCodeChar ':') : cell.isWord = false := by
    simp only [Cell.isCodeChar, Bool.and_eq_true, decide_eq_true_eq] at here
    rw [Cell.isWord, here.2]
    decide
  have related := alike.at? colon
  rw [found, found', Option.rel_some_some] at related
  have sites := (alike.abreast.drop found found').labelSitesFrom_eq isLabel related stop
    0 position depth
  rw [noWord here, noWord here'] at sites
  exact sites

/-- Both have the same sites of a label in a range that begins with the last cells. -/
theorem labelSitesAround_eq {before before' : Cell} {last last' : List Cell} {label : Text}
    (isLabel : IsLabel label) (abreast : Abreast before before' last last') (stop depth : Nat) :
    left.labelSitesAround label stop depth last =
      right.labelSitesAround label stop depth last' := by
  have noWord : Cell.start.isWord = false := by decide
  obtain ⟨twins, -, -⟩ := id abreast
  induction twins generalizing before before' depth with
  | nil =>
      have sites := alike.abreast.labelSitesFrom_eq isLabel (.quiet rfl rfl) stop 0 0 depth
      rw [noWord] at sites
      exact sites
  | @cons cell cell' cells cells' twin _ ih =>
      have next (depth : Nat) := ih abreast.tail depth
      rcases abreast.same_or_hidden with ⟨rfl, code, -⟩ | ⟨hidden, hidden'⟩
      · rw [Source.labelSitesAround, Source.labelSitesAround,
          ← alike.colonAround?_eq abreast.tail code isLabel]
        simp only [next]
        split
        · rename_i colon found
          have isColon := Source.hasCodeAt_of_colonAround?
            (Option.ite_none_right_eq_some.mp found).2
          rw [alike.labelSitesFrom_behind isLabel isColon]
        · rfl
      · rw [Source.labelSitesAround_hidden isLabel hidden,
          Source.labelSitesAround_hidden isLabel hidden', next]

theorem labelSitesWithin_eq {label : Text} (isLabel : IsLabel label) (given : GivenSpan) :
    left.labelSitesWithin label given = right.labelSitesWithin label given := by
  obtain ⟨before, before', -, last, -, -⟩ := alike.exists_before (right.length - given.lead)
  simp only [Source.labelSitesWithin, alike.underruns_eq, alike.length_eq,
    alike.labelSites_eq isLabel, alike.labelSitesAround_eq isLabel last]

theorem labeledArrayWithin_eq {label : Text} (isLabel : IsLabel label) (given : GivenSpan)
    (excluded : List Span) :
    left.labeledArrayWithin label given excluded =
      right.labeledArrayWithin label given excluded := by
  rw [Source.labeledArrayWithin, Source.labeledArrayWithin, ← alike.labelSitesWithin_eq isLabel]
  cases found : left.labelSitesWithin label given with
  | error => rfl
  | ok sites =>
      have same := alike.arrayAmong?_eq
        (fun site member => Source.exists_colon_of_mem_labelSitesWithin found member)
        given.stop.toNat excluded
      exact congrArg Except.ok same

end Alike

/-- Characters of one kind that are equal as code are not told apart. -/
theorem Twin.of_kind {left right : Char} {kind : Kind} (code : kind = .code → left = right) :
    Twin ⟨left, kind⟩ ⟨right, kind⟩ := by
  cases kind with
  | string => exact .string rfl rfl
  | comment => exact .quiet rfl rfl
  | code =>
      obtain rfl := code rfl
      cases blank : isBlank left with
      | false => exact .solid rfl blank
      | true =>
          have quiet : Cell.isQuiet ⟨left, .code⟩ := Cell.isQuiet_iff.mpr (.inr ⟨rfl, blank⟩)
          exact .quiet quiet quiet

/--
Texts that agree in the kinds of their characters and in their code have sources of one
structure.
-/
theorem Alike.of_code {left right : Text} (kinds : Kind.classify left = Kind.classify right)
    (code : ∀ position : Nat, (Kind.classify left)[position]? = some .code →
      left[position]? = right[position]?) :
    Alike (.ofText left) (.ofText right) := by
  refine ⟨List.forall₂_iff_get.mpr ⟨?_, fun position within within' => ?_⟩,
    isChain_joined_ofText left, isChain_joined_ofText right⟩
  · have lengths := congrArg List.length kinds
    rw [Kind.length_classify, Kind.length_classify] at lengths
    exact ((Source.length_ofText left).trans lengths).trans (Source.length_ofText right).symm
  · simp only [Source.ofText, List.get_eq_getElem, List.getElem_zipWith, ← kinds]
    refine Twin.of_kind fun isCode => ?_
    have same := code position (List.getElem?_eq_some_iff.mpr ⟨_, isCode⟩)
    exact Option.some.inj ((List.getElem?_eq_getElem _).symm.trans
      (same.trans (List.getElem?_eq_getElem _)))

/--
Two texts whose characters are of the same kinds, and which agree in their code, have the same
brackets, labels, arrays and elements, in all ranges.
-/
theorem structure_of_code {left right : Text} (kinds : Kind.classify left = Kind.classify right)
    (code : ∀ position : Nat, (Kind.classify left)[position]? = some .code →
      left[position]? = right[position]?) :
    (∀ position, (Source.ofText left).closing? position = (Source.ofText right).closing? position) ∧
    (∀ label, IsLabel label → ∀ span,
      (Source.ofText left).labelSites label span = (Source.ofText right).labelSites label span) ∧
    (∀ label, IsLabel label → ∀ given,
      (Source.ofText left).labelSitesWithin label given =
        (Source.ofText right).labelSitesWithin label given) ∧
    (∀ label, IsLabel label → ∀ span excluded,
      (Source.ofText left).labeledArrayIn? label span excluded =
        (Source.ofText right).labeledArrayIn? label span excluded) ∧
    (∀ label, IsLabel label → ∀ given excluded,
      (Source.ofText left).labeledArrayWithin label given excluded =
        (Source.ofText right).labeledArrayWithin label given excluded) ∧
    (∀ span, (Source.ofText left).elements span = (Source.ofText right).elements span) ∧
    (∀ given, (Source.ofText left).elementsWithin given =
      (Source.ofText right).elementsWithin given) ∧
    (Source.ofText left).targetsSpan? = (Source.ofText right).targetsSpan? ∧
    (Source.ofText left).productsSpan? = (Source.ofText right).productsSpan? ∧
    (Source.ofText left).dependenciesSpan? = (Source.ofText right).dependenciesSpan? := by
  have alike := Alike.of_code kinds code
  exact ⟨alike.closing?_eq, fun label isLabel => alike.labelSites_eq isLabel,
    fun label isLabel => alike.labelSitesWithin_eq isLabel,
      fun label isLabel => alike.labeledArrayIn?_eq isLabel,
    fun label isLabel => alike.labeledArrayWithin_eq isLabel, alike.elements_eq,
      alike.elementsWithin_eq,
    alike.targetsSpan?_eq, alike.productsSpan?_eq, alike.dependenciesSpan?_eq⟩

theorem isWordChar_of_isIdentifierChar {char : Char} (inside : Source.isIdentifierChar char) :
    isWordChar char := by
  simp only [Source.isIdentifierChar, Bool.or_eq_true, decide_eq_true_eq] at inside
  rcases inside with (letter | digit) | rfl
  · exact isWordChar_of_isAsciiLetter letter
  · have small : char.toNat < 128 := by
      simp only [isAsciiDigit, Bool.and_eq_true, decide_eq_true_eq, Char.le_def,
        UInt32.le_iff_toNat_le] at digit
      have whole : char.toNat = char.val.toNat := rfl
      have nine : ('9' : Char).val.toNat = 57 := rfl
      omega
    simp [isWordChar, isAlphanumeric, small, digit]
  · decide

theorem isLabel_of_identifier {label : Text} (filled : label ≠ [])
    (inside : ∀ char ∈ label, Source.isIdentifierChar char) : IsLabel label := by
  refine ⟨filled, fun char member => isWordChar_of_isIdentifierChar (inside char member),
    fun char member => ?_⟩
  cases blank : isBlank char with
  | false => rfl
  | true =>
      exact (isWordChar_of_isIdentifierChar (inside char member)).symm.trans
        (isWordChar_of_isBlank blank)

/-- A call whose comment and literal hold a label and a bracket. -/
def speaking : Text := "p(/* x: [ */ x: [\"]\"])".toList

/-- The call with others in their place. -/
def mumbling : Text := "p(/*, \x7b\x7b ,*/ x: [\"[\"])".toList

/-- The array of the call is the same, whatever its comment and its literal hold. -/
theorem structure_of_code_mumbling :
    Kind.classify speaking = Kind.classify mumbling ∧
      (∀ position : Nat, (Kind.classify speaking)[position]? = some .code →
        speaking[position]? = mumbling[position]?) ∧
      (Source.ofText speaking).closing? 1 = (Source.ofText mumbling).closing? 1 ∧
      (Source.ofText speaking).labeledArrayIn? ['x'] ⟨2, 21⟩ [] =
        (Source.ofText mumbling).labeledArrayIn? ['x'] ⟨2, 21⟩ [] := by
  have kinds : Kind.classify speaking = Kind.classify mumbling := by decide
  have code (position : Nat) (isCode : (Kind.classify speaking)[position]? = some .code) :
      speaking[position]? = mumbling[position]? := by
    have each : ∀ position < 22, (Kind.classify speaking)[position]? = some .code →
        speaking[position]? = mumbling[position]? := by decide
    refine each position ?_ isCode
    obtain ⟨within, -⟩ := List.getElem?_eq_some_iff.mp isCode
    exact within
  have isLabel : IsLabel ['x'] :=
    isLabel_of_identifier (by decide) (List.forall_mem_singleton.mpr (by decide))
  obtain ⟨closing, -, -, arrays, -⟩ := structure_of_code kinds code
  exact ⟨kinds, code, closing 1, arrays ['x'] isLabel ⟨2, 21⟩ []⟩

end SwiftWorkspace
