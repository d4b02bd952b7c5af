import SwiftWorkspace.Proofs.Shapes
import SwiftWorkspace.Source.Label

/-!
# Labels in parts of a source

The search for a label passes over a source from left to right.  A comma or a
bracket stops every label that begins before it, so that the labels in a source
are those of its parts.
-/

namespace SwiftWorkspace

/-- A label in code: how many brackets are open around it, and the cells behind its colon. -/
structure Mark where
  depth : Nat
  behind : List Cell

namespace Mark

def extend (more : List Cell) (mark : Mark) : Mark := ⟨mark.depth, mark.behind ++ more⟩

/-- The site of a mark among cells that end at a position. -/
def site (stop : Nat) (mark : Mark) : LabelSite := ⟨stop - mark.behind.length, mark.depth⟩

end Mark

theorem Cell.noBrackets_of_isWord {cell : Cell} (word : cell.isWord) :
    cell.opens? = none ∧ cell.closes? = none := by
  obtain ⟨char, kind⟩ := cell
  change isWordChar char = true at word
  have noOpening : Bracket.opened? char = none := by
    unfold Bracket.opened?
    split <;> first | rfl | (revert word; decide)
  have noClosing : Bracket.closed? char = none := by
    unfold Bracket.closed?
    split <;> first | rfl | (revert word; decide)
  simp [opens?, closes?, noOpening, noClosing]

/-- A label consists of word characters, and does not begin with a blank. -/
structure IsLabel (label : Text) : Prop where
  filled : label ≠ []
  word : ∀ char ∈ label, isWordChar char
  solid : ∀ char ∈ label, isBlank char = false

namespace Source

def marksFrom (label : Text) : (skip depth : Nat) → (inWord : Bool) → List Cell → List Mark
  | _, _, _, [] => []
  | skip + 1, depth, _, cell :: cells => marksFrom label skip depth cell.isWord cells
  | 0, depth, inWord, cell :: cells =>
      if !cell.isCode || cell.opens?.isSome || cell.closes?.isSome || inWord then
        marksFrom label 0 (cell.depthAfter depth) cell.isWord cells
      else
        match labelWidth? label (cells.length + 1) (cell :: cells) with
        | some width =>
            ⟨depth, (cell :: cells).drop width⟩ ::
              marksFrom label (width - 1) depth cell.isWord cells
        | none => marksFrom label 0 depth cell.isWord cells

theorem afterLabel?_eq_some_iff {label : Text} {cells rest : List Cell} :
    afterLabel? label cells = some rest ↔
      ∃ word, cells = word ++ rest ∧ word.map Cell.char = label ∧
        ∀ cell ∈ rest.head?, cell.isWord = false := by
  fun_induction afterLabel? label cells with
  | case1 =>
      constructor
      · rintro ⟨rfl⟩
        exact ⟨[], rfl, rfl, by simp⟩
      · rintro ⟨word, split, -⟩
        rw [(List.append_eq_nil_iff.mp split.symm).2]
  | case2 cell cells word =>
      simp only [reduceCtorEq, false_iff]
      rintro ⟨letters, split, same, boundary⟩
      obtain rfl := List.map_eq_nil_iff.mp same
      obtain rfl : cell :: cells = rest := split
      simp [word] at boundary
  | case3 cell cells word =>
      constructor
      · rintro ⟨rfl⟩
        exact ⟨[], rfl, rfl, by simpa using word⟩
      · rintro ⟨letters, split, same, -⟩
        obtain rfl := List.map_eq_nil_iff.mp same
        exact congrArg some split
  | case4 => simp
  | case5 label cell cells ih =>
      rw [ih]
      constructor
      · rintro ⟨word, rfl, same, boundary⟩
        exact ⟨cell :: word, rfl, congrArg (cell.char :: ·) same, boundary⟩
      · rintro ⟨word, split, same, boundary⟩
        cases word with
        | nil => simp at same
        | cons first word =>
            obtain ⟨rfl, rfl⟩ : cell = first ∧ cells = word ++ rest := by simpa using split
            exact ⟨word, rfl, by simpa using same, boundary⟩
  | case6 char label cell cells differs =>
      simp only [reduceCtorEq, false_iff]
      rintro ⟨word, split, same, -⟩
      cases word with
      | nil => simp at same
      | cons first word => simp_all

def colonWidth? : List Cell → Option Nat
  | [] => none
  | cell :: cells =>
      if cell.isTrivia then (colonWidth? cells).map (· + 1)
      else if cell.isCodeChar ':' then some 1 else none

theorem colonWidth?_eq (cells : List Cell) :
    colonWidth? cells =
      if (cells.dropWhile Cell.isTrivia).head?.any (·.isCodeChar ':') then
        some ((cells.takeWhile Cell.isTrivia).length + 1)
      else none := by
  induction cells with
  | nil => rfl
  | cons cell cells ih =>
      rw [colonWidth?, ih, List.dropWhile_cons, List.takeWhile_cons]
      cases cell.isTrivia with
      | true =>
          simp only [if_true, List.length_cons]
          split <;> rfl
      | false => simp

theorem colonWidth?_eq_some_iff {width : Nat} {cells : List Cell} :
    colonWidth? cells = some width ↔
      ∃ trivia colon rest, cells = trivia ++ colon :: rest ∧ width = trivia.length + 1 ∧
        (∀ cell ∈ trivia, cell.isTrivia) ∧ colon.isCodeChar ':' := by
  constructor
  · intro found
    fun_induction colonWidth? cells generalizing width with
    | case1 => simp at found
    | case2 cell cells trivial ih =>
        obtain ⟨count, same, rfl⟩ := Option.map_eq_some_iff.mp found
        obtain ⟨trivia, colon, rest, rfl, rfl, inside, isColon⟩ := ih same
        exact ⟨cell :: trivia, colon, rest, rfl, rfl, by simpa [trivial] using inside, isColon⟩
    | case3 cell cells trivial colon =>
        exact ⟨[], cell, cells, rfl, (Option.some.inj found).symm, by simp, colon⟩
    | case4 => cases found
  · rintro ⟨trivia, colon, rest, rfl, rfl, inside, isColon⟩
    induction trivia with
    | nil => simp [colonWidth?, isColon, (Cell.isTrivia_colon isColon).1]
    | cons cell trivia ih =>
        simp [colonWidth?, inside cell (by simp), ih fun other member =>
          inside other (by simp [member])]

theorem labelWidth?_eq {label : Text} {room : Nat} {cells : List Cell}
    (enough : cells.length ≤ room) :
    labelWidth? label room cells =
      (afterLabel? label cells).bind fun rest => (colonWidth? rest).map (label.length + ·) := by
  rw [labelWidth?]
  cases found : afterLabel? label cells with
  | none => rfl
  | some rest =>
      obtain ⟨word, rfl, rfl, -⟩ := afterLabel?_eq_some_iff.mp found
      have parts (width : Nat) (found : colonWidth? rest = some width) :=
        colonWidth?_eq_some_iff.mp found
      simp only [Option.bind_some, colonWidth?_eq] at parts ⊢
      cases follows : (rest.dropWhile Cell.isTrivia).head?.any (·.isCodeChar ':') with
      | false => simp
      | true =>
          obtain ⟨trivia, colon, tail, rfl, size, -⟩ := parts _ (by rw [follows]; rfl)
          have fits : (word.map Cell.char).length +
              ((trivia ++ colon :: tail).takeWhile Cell.isTrivia).length + 1 ≤ room := by
            simp only [List.length_append, List.length_cons, List.length_map] at enough ⊢
            omega
          simp only [fits, decide_true, Bool.and_self, if_true, Option.map_some]
          rfl

theorem labelWidth?_eq_some_iff {label : Text} {room width : Nat} {cells : List Cell}
    (enough : cells.length ≤ room) :
    labelWidth? label room cells = some width ↔
      ∃ word trivia colon rest, cells = word ++ (trivia ++ colon :: rest) ∧
        word.map Cell.char = label ∧ (∀ cell ∈ trivia, cell.isTrivia) ∧ colon.isCodeChar ':' ∧
        (∀ cell ∈ (trivia ++ [colon]).head?, cell.isWord = false) ∧
        width = word.length + trivia.length + 1 := by
  rw [labelWidth?_eq enough, Option.bind_eq_some_iff]
  constructor
  · rintro ⟨behind, after, found⟩
    obtain ⟨count, colons, rfl⟩ := Option.map_eq_some_iff.mp found
    obtain ⟨word, rfl, rfl, boundary⟩ := afterLabel?_eq_some_iff.mp after
    obtain ⟨trivia, colon, rest, rfl, rfl, trivial, isColon⟩ := colonWidth?_eq_some_iff.mp colons
    refine ⟨word, trivia, colon, rest, rfl, rfl, trivial, isColon, ?_, by simp; omega⟩
    cases trivia <;> simpa using boundary
  · rintro ⟨word, trivia, colon, rest, rfl, rfl, trivial, isColon, boundary, rfl⟩
    refine ⟨trivia ++ colon :: rest, afterLabel?_eq_some_iff.mpr ⟨word, rfl, rfl, ?_⟩, ?_⟩
    · cases trivia <;> simpa using boundary
    · have colons := colonWidth?_eq_some_iff.mpr ⟨trivia, colon, rest, rfl, rfl, trivial, isColon⟩
      simp [colons, Nat.add_assoc]

theorem labelWidth?_le {label : Text} {room width : Nat} {cells : List Cell}
    (enough : cells.length ≤ room) (found : labelWidth? label room cells = some width) :
    label.length < width ∧ width ≤ cells.length := by
  obtain ⟨word, trivia, colon, rest, rfl, rfl, -, -, -, rfl⟩ :=
    (labelWidth?_eq_some_iff enough).mp found
  simp only [List.length_append, List.length_cons, List.length_map]
  omega

theorem labelWidth?_noBrackets {label : Text} (word : ∀ char ∈ label, isWordChar char)
    {room width : Nat} {cells : List Cell} (enough : cells.length ≤ room)
    (found : labelWidth? label room cells = some width) :
    ∀ cell ∈ cells.take width, cell.opens? = none ∧ cell.closes? = none := by
  obtain ⟨letters, trivia, colon, rest, rfl, rfl, trivial, isColon, -, rfl⟩ :=
    (labelWidth?_eq_some_iff enough).mp found
  have taken : (letters ++ (trivia ++ colon :: rest)).take (letters.length + trivia.length + 1) =
      letters ++ (trivia ++ [colon]) := by
    have taken : ((letters ++ (trivia ++ [colon])) ++ rest).take
        (letters ++ (trivia ++ [colon])).length = letters ++ (trivia ++ [colon]) := List.take_left
    simpa [Nat.add_assoc] using taken
  rw [taken]
  intro cell member
  simp only [List.mem_append, List.mem_singleton] at member
  rcases member with member | member | rfl
  · exact Cell.noBrackets_of_isWord (word cell.char (List.mem_map_of_mem member))
  · exact Cell.noBrackets_of_isTrivia (trivial cell member)
  · exact (Cell.isTrivia_colon isColon).2

theorem marksFrom_le {label : Text} {skip depth : Nat} {inWord : Bool} {cells : List Cell}
    {mark : Mark} (member : mark ∈ marksFrom label skip depth inWord cells) :
    ∃ front, cells = front ++ mark.behind := by
  fun_induction marksFrom label skip depth inWord cells with
  | case1 => simp at member
  | case2 skip depth _ cell cells ih =>
      obtain ⟨front, rfl⟩ := ih member
      exact ⟨cell :: front, rfl⟩
  | case3 depth inWord cell cells plain ih =>
      obtain ⟨front, rfl⟩ := ih member
      exact ⟨cell :: front, rfl⟩
  | case4 depth inWord cell cells plain width found ih =>
      rcases List.mem_cons.mp member with rfl | member
      · exact ⟨_, (List.take_append_drop width (cell :: cells)).symm⟩
      · obtain ⟨front, rfl⟩ := ih member
        exact ⟨cell :: front, rfl⟩
  | case5 depth inWord cell cells plain found ih =>
      obtain ⟨front, rfl⟩ := ih member
      exact ⟨cell :: front, rfl⟩

/-- The sites of a label are those of its marks, when nothing stops the search. -/
theorem labelSitesFrom_eq {label : Text} {stop skip position depth : Nat} {inWord : Bool}
    {cells : List Cell} (within : position + cells.length ≤ stop) :
    labelSitesFrom label stop skip position depth inWord cells =
      (marksFrom label skip depth inWord cells).map (Mark.site (position + cells.length)) := by
  induction cells generalizing skip position depth inWord with
  | nil => cases skip <;> rfl
  | cons cell cells ih =>
      rw [List.length_cons] at within
      have place : position + (cell :: cells).length = position + 1 + cells.length := by
        rw [List.length_cons]
        omega
      have step (skip depth : Nat) (inWord : Bool) :
          labelSitesFrom label stop skip (position + 1) depth inWord cells =
            (marksFrom label skip depth inWord cells).map
              (Mark.site (position + 1 + cells.length)) := ih (by omega)
      rw [place]
      cases skip with
      | succ skip => rw [labelSitesFrom, marksFrom, step]
      | zero =>
          have inside : ¬stop ≤ position := by omega
          have room : labelWidth? label (stop - position) (cell :: cells) =
              labelWidth? label (cells.length + 1) (cell :: cells) :=
            (labelWidth?_eq (by simp only [List.length_cons]; omega)).trans
              (labelWidth?_eq (by simp)).symm
          rw [labelSitesFrom, marksFrom, if_neg inside, room]
          split
          · rw [step]
          · cases found : labelWidth? label (cells.length + 1) (cell :: cells) with
            | none => simp only [step]
            | some width =>
                have le := labelWidth?_le (by simp) found
                simp only [step, List.map_cons, Mark.site, List.length_drop, List.length_cons]
                simp only [List.length_cons] at le
                congr 2
                omega

theorem labelSites_whole (source : Source) (label : Text) : source.labelSites label source.whole =
    (marksFrom label 0 0 false source.cells).map (Mark.site source.length) := by
  have sites : labelSitesFrom label source.length 0 0 0 false source.cells =
      (marksFrom label 0 0 false source.cells).map (Mark.site (0 + source.cells.length)) :=
    labelSitesFrom_eq (by simp [length])
  simpa [labelSites, whole, wordBefore, length] using sites

end Source

/-- Whether no label reaches over the cell: it is code, but no blank, colon or part of a word. -/
structure Stops (cell : Cell) : Prop where
  code : cell.isCode
  noWord : cell.isWord = false
  noTrivia : cell.isTrivia = false
  noColon : cell.isCodeChar ':' = false

namespace Source

theorem afterLabel?_append {label : Text} (word : ∀ char ∈ label, isWordChar char) {stop : Cell}
    (stops : Stops stop) (cells rest : List Cell) :
    afterLabel? label (cells ++ stop :: rest) =
      (afterLabel? label cells).map (· ++ stop :: rest) := by
  induction label generalizing cells with
  | nil =>
      cases cells with
      | nil => simp [afterLabel?, stops.noWord]
      | cons cell cells =>
          simp only [List.cons_append, afterLabel?]
          split <;> simp
  | cons char label ih =>
      cases cells with
      | nil =>
          have differs : stop.char ≠ char := by
            rintro rfl
            have := (word stop.char (by simp)).symm.trans stops.noWord
            cases this
          simp [afterLabel?, differs]
      | cons cell cells =>
          simp only [List.cons_append, afterLabel?]
          split
          · exact ih (fun other member => word other (by simp [member])) cells
          · rfl

theorem colonWidth?_append {stop : Cell} (stops : Stops stop) (cells rest : List Cell) :
    colonWidth? (cells ++ stop :: rest) = colonWidth? cells := by
  induction cells with
  | nil => simp [colonWidth?, stops.noTrivia, stops.noColon]
  | cons cell cells ih => rw [List.cons_append, colonWidth?, ih, colonWidth?]

theorem labelWidth?_append {label : Text} (word : ∀ char ∈ label, isWordChar char) {stop : Cell}
    (stops : Stops stop) (cells rest : List Cell) :
    labelWidth? label (cells ++ stop :: rest).length (cells ++ stop :: rest) =
      labelWidth? label cells.length cells := by
  rw [labelWidth?_eq (Nat.le_refl _), labelWidth?_eq (Nat.le_refl _), afterLabel?_append word stops]
  cases found : afterLabel? label cells with
  | none => rfl
  | some behind => simp [colonWidth?_append stops]

theorem labelWidth?_stop {label : Text} (isLabel : IsLabel label) {stop : Cell} (stops : Stops stop)
    (rest : List Cell) : labelWidth? label (rest.length + 1) (stop :: rest) = none := by
  have whole := labelWidth?_append isLabel.word stops [] rest
  have empty : afterLabel? label [] = none := by
    cases same : label with
    | nil => exact absurd same isLabel.filled
    | cons => rfl
  simpa [labelWidth?, empty] using whole

theorem marksFrom_append {label : Text} (isLabel : IsLabel label) {stop : Cell} (stops : Stops stop)
    {skip depth : Nat} {inWord : Bool} {cells : List Cell} (within : skip ≤ cells.length)
    (skipped : ∀ cell ∈ cells.take skip, cell.opens? = none ∧ cell.closes? = none)
    (rest : List Cell) :
    marksFrom label skip depth inWord (cells ++ stop :: rest) =
      (marksFrom label skip depth inWord cells).map (Mark.extend (stop :: rest)) ++
        marksFrom label 0 (stop.depthAfter (Cell.depthOver depth cells)) false rest := by
  induction cells generalizing skip depth inWord with
  | nil =>
      obtain rfl : skip = 0 := by simpa using within
      have plain : marksFrom label 0 depth inWord (stop :: rest) =
          marksFrom label 0 (stop.depthAfter depth) false rest := by
        rw [marksFrom, stops.noWord, labelWidth?_stop isLabel stops]
        split
        · rfl
        · rename_i noBrackets
          obtain ⟨⟨⟨-, noOpening⟩, noClosing⟩, -⟩ :
              ((stop.isCode = true ∧ stop.opens? = none) ∧ stop.closes? = none) ∧
                inWord = false := by
            simpa using noBrackets
          rw [Cell.depthAfter_plain noOpening noClosing]
      simpa [marksFrom] using plain
  | cons cell cells ih =>
      rw [List.cons_append, Cell.depthOver_cons]
      cases skip with
      | succ skip =>
          obtain ⟨noOpening, noClosing⟩ := skipped cell (by simp)
          rw [marksFrom, marksFrom, Cell.depthAfter_plain noOpening noClosing]
          exact ih (by simpa using within) fun other member => skipped other (by simp [member])
      | zero =>
          have width := labelWidth?_append isLabel.word stops (cell :: cells) rest
          rw [List.cons_append, List.length_cons, List.length_cons] at width
          rw [marksFrom, marksFrom, width]
          split
          · exact ih (Nat.zero_le _) (by simp)
          · rename_i plain
            obtain ⟨⟨⟨-, noOpening⟩, noClosing⟩, -⟩ :
                ((cell.isCode = true ∧ cell.opens? = none) ∧ cell.closes? = none) ∧
                  inWord = false := by
              simpa using plain
            rw [Cell.depthAfter_plain noOpening noClosing]
            cases found : labelWidth? label (cells.length + 1) (cell :: cells) with
            | none => exact ih (Nat.zero_le _) (by simp)
            | some width =>
                have le := labelWidth?_le (by simp) found
                have noBrackets := labelWidth?_noBrackets isLabel.word (by simp) found
                obtain ⟨width, rfl⟩ : ∃ count, width = count + 1 := ⟨width - 1, by omega⟩
                simp only [List.length_cons] at le
                simp only [Nat.add_sub_cancel, ih (show width ≤ cells.length by omega)
                  fun other member => noBrackets other (by simp [member]), List.map_cons,
                  List.cons_append, Mark.extend, List.drop_succ_cons,
                  List.drop_append_of_le_length (show width ≤ cells.length by omega)]

theorem labelWidth?_padding {label : Text} (isLabel : IsLabel label) {cell : Cell}
    (padding : cell.isPadding) (code : cell.isCode) (rest : List Cell) :
    labelWidth? label (rest.length + 1) (cell :: rest) = none := by
  cases found : labelWidth? label (rest.length + 1) (cell :: rest) with
  | none => rfl
  | some width =>
      obtain ⟨word, trivia, colon, tail, split, rfl, -⟩ :=
        (labelWidth?_eq_some_iff (by simp)).mp found
      cases word with
      | nil => exact absurd rfl isLabel.filled
      | cons first word =>
          obtain rfl : cell = first := by simpa using (List.cons.inj split).1
          have isWord := isLabel.word cell.char (by simp)
          have solid := isLabel.solid cell.char (by simp)
          simp only [Cell.isPadding, Cell.isComma, Cell.isCodeChar, Cell.isSignificant, code, solid,
            Bool.true_and, Bool.not_false, Bool.or_true, Bool.not_true, Bool.or_false,
            decide_eq_true_eq] at padding
          rw [padding] at isWord
          exact absurd isWord (by decide)

theorem marksFrom_padding {label : Text} (isLabel : IsLabel label) {cells : List Cell}
    (padding : ∀ cell ∈ cells, cell.isPadding) (depth : Nat) (inWord : Bool) (rest : List Cell) :
    marksFrom label 0 depth inWord (cells ++ rest) =
      marksFrom label 0 depth ((cells.getLast?.map Cell.isWord).getD inWord) rest := by
  induction cells generalizing inWord with
  | nil => rfl
  | cons cell cells ih =>
      obtain ⟨noOpening, noClosing⟩ := Cell.noBrackets_of_isPadding (padding cell (by simp))
      have passed : marksFrom label 0 depth inWord (cell :: (cells ++ rest)) =
          marksFrom label 0 depth cell.isWord (cells ++ rest) := by
        rw [marksFrom, Cell.depthAfter_plain noOpening noClosing]
        split
        · rfl
        · rename_i plain
          obtain ⟨code, -⟩ : cell.isCode = true ∧ _ := by
            simpa [and_assoc] using plain
          rw [labelWidth?_padding isLabel (padding cell (by simp)) code]
      rw [List.cons_append, passed, ih (fun other member => padding other (by simp [member]))]
      cases cells with
      | nil => simp
      | cons other cells => simp [List.getLast?_cons]

theorem isCodeChar_colon_of_isPadding {cell : Cell} (padding : cell.isPadding) :
    cell.isCodeChar ':' = false := by
  cases colon : cell.isCodeChar ':' with
  | false => rfl
  | true =>
      obtain ⟨char, kind⟩ := cell
      simp only [Cell.isCodeChar, Cell.isCode, Bool.and_eq_true, decide_eq_true_eq] at colon
      obtain ⟨rfl, rfl⟩ := colon
      revert padding
      decide

theorem marksFrom_of_noColon {label : Text} {cells : List Cell}
    (noColon : ∀ cell ∈ cells, cell.isCodeChar ':' = false) (skip depth : Nat) (inWord : Bool) :
    marksFrom label skip depth inWord cells = [] := by
  refine List.eq_nil_iff_forall_not_mem.mpr fun mark member => ?_
  fun_induction marksFrom label skip depth inWord cells with
  | case1 => simp at member
  | case2 skip depth _ cell cells ih =>
      exact ih (fun other inside => noColon other (by simp [inside])) member
  | case3 depth inWord cell cells plain ih =>
      exact ih (fun other inside => noColon other (by simp [inside])) member
  | case4 depth inWord cell cells plain width found ih =>
      obtain ⟨word, trivia, colon, rest, split, -, -, isColon, -⟩ :=
        (labelWidth?_eq_some_iff (by simp)).mp found
      simp [noColon colon (by simp [split])] at isColon
  | case5 depth inWord cell cells plain found ih =>
      exact ih (fun other inside => noColon other (by simp [inside])) member

theorem labelWidth?_append_noColon {label : Text} {cells more : List Cell}
    (noColon : ∀ cell ∈ more, cell.isCodeChar ':' = false) :
    labelWidth? label (cells ++ more).length (cells ++ more) =
      labelWidth? label cells.length cells := by
  refine Option.ext fun width => ?_
  rw [labelWidth?_eq_some_iff (Nat.le_refl _), labelWidth?_eq_some_iff (Nat.le_refl _)]
  constructor
  · rintro ⟨word, trivia, colon, rest, split, rfl, trivial, isColon, boundary, rfl⟩
    have within : (word ++ (trivia ++ [colon])).length ≤ cells.length := by
      by_cases le : (word ++ (trivia ++ [colon])).length ≤ cells.length
      · exact le
      · have cut : (word ++ (trivia ++ [colon])) ++ rest = cells ++ more := by
          simpa using split.symm
        obtain ⟨middle, parts, rfl⟩ := exists_middle cut (by omega)
        have member : colon ∈ middle ++ rest := by
          rcases middle.eq_nil_or_concat with rfl | ⟨front, last, rfl⟩
          · simp only [List.append_nil] at parts
            exact absurd (congrArg List.length parts) (by omega)
          · have same := congrArg List.getLast? parts
            obtain rfl : colon = last := by simpa using same
            simp
        simp [noColon colon member] at isColon
    have cut : cells ++ more = (word ++ (trivia ++ [colon])) ++ rest := by simpa using split
    obtain ⟨middle, rfl, rfl⟩ := exists_middle cut within
    exact ⟨word, trivia, colon, middle, by simp, rfl, trivial, isColon, boundary, rfl⟩
  · rintro ⟨word, trivia, colon, rest, rfl, rfl, trivial, isColon, boundary, rfl⟩
    exact ⟨word, trivia, colon, rest ++ more, by simp, rfl, trivial, isColon, boundary, rfl⟩

/-- Cells without a colon in code add no marks to those of the cells in front of them. -/
theorem marksFrom_append_noColon {label : Text} {more : List Cell}
    (noColon : ∀ cell ∈ more, cell.isCodeChar ':' = false) {skip depth : Nat} {inWord : Bool}
    {cells : List Cell} (within : skip ≤ cells.length) :
    marksFrom label skip depth inWord (cells ++ more) =
      (marksFrom label skip depth inWord cells).map (Mark.extend more) := by
  induction cells generalizing skip depth inWord with
  | nil =>
      rw [List.nil_append, marksFrom_of_noColon noColon, marksFrom_of_noColon (by simp)]
      rfl
  | cons cell cells ih =>
      rw [List.cons_append]
      cases skip with
      | succ skip =>
          rw [marksFrom, marksFrom]
          exact ih (by simpa using within)
      | zero =>
          have width : labelWidth? label ((cell :: cells) ++ more).length
              ((cell :: cells) ++ more) = labelWidth? label (cell :: cells).length
                (cell :: cells) :=
            labelWidth?_append_noColon noColon
          rw [List.cons_append, List.length_cons, List.length_cons] at width
          rw [marksFrom, marksFrom, width]
          split
          · exact ih (Nat.zero_le _)
          · cases found : labelWidth? label (cells.length + 1) (cell :: cells) with
            | none => exact ih (Nat.zero_le _)
            | some width =>
                have le := labelWidth?_le (by simp) found
                obtain ⟨width, rfl⟩ : ∃ count, width = count + 1 := ⟨width - 1, by omega⟩
                simp only [List.length_cons] at le
                simp only [Nat.add_sub_cancel, ih (show width ≤ cells.length by omega),
                  List.map_cons, Mark.extend, List.drop_succ_cons,
                  List.drop_append_of_le_length (show width ≤ cells.length by omega)]

end Source

end SwiftWorkspace
