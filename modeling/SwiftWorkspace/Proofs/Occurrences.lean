import SwiftWorkspace.Proofs.Enclosure
import SwiftWorkspace.Proofs.Seams
import SwiftWorkspace.Proofs.Search

/-!
# Occurrences of a label

What the search for a label finds is known at each position by itself: the label is written
there in code, as a whole word, and trivia alone separate it from a colon in code.  In a text
whose brackets are well nested the depth of such a place is the number of pairs around it, and
the array of the label is that of the first place, by depth and position, that has one.
-/

namespace SwiftWorkspace

open Kind (cellsOf)

namespace Source

variable {source : Source} {cell : Cell} {label : Text} {start stop position colon : Nat}

structure SkipsTo (source : Source) (start stop : Nat) : Prop where
  ordered : start ≤ stop
  trivial : ∀ position, start ≤ position → position < stop → (source.at? position).any Cell.isTrivia

/--
Whether a label is written at a position, as a whole word in code that trivia separate from its
colon.
-/
structure LabelAt (source : Source) (label : Text) (start colon : Nat) : Prop where
  written : source.cellsIn ⟨start, start + label.length⟩ = cellsOf .code label
  starts : source.wordBefore start = false
  ends : (source.at? (start + label.length)).any Cell.isWord = false
  skips : source.SkipsTo (start + label.length) colon
  colon : source.hasCodeAt colon ':'

/--
Whether a site is that of a label, outside of some spans, and the value there begins with a
square bracket.
-/
structure OffersArray (source : Source) (label : Text) (excluded : List Span) (site : LabelSite)
    (opening : Nat) : Prop where
  labeled : ∃ start colon, source.LabelAt label start colon ∧
    site = ⟨colon + 1, source.pairsAround start⟩
  included : ∀ span ∈ excluded, span.holds site.position = false
  skips : source.SkipsTo site.position opening
  opens : source.hasCodeAt opening '['

theorem at?_eq_head? (source : Source) (position : Nat) :
    source.at? position = (source.cells.drop position).head? := by
  rw [at?, List.head?_drop]

theorem exists_at? (inside : position < source.length) : ∃ cell, source.at? position = some cell :=
  ⟨_, List.getElem?_eq_getElem inside⟩

theorem lt_of_at? (there : source.at? position = some cell) : position < source.length :=
  (List.getElem?_eq_some_iff.mp there).1

theorem drop_of_at? (there : source.at? position = some cell) :
    source.cells.drop position = cell :: source.cells.drop (position + 1) := by
  obtain ⟨inside, rfl⟩ := List.getElem?_eq_some_iff.mp there
  exact List.drop_eq_getElem_cons inside

theorem at?_of_drop_eq {cells : List Cell} (stands : source.cells.drop position = cell :: cells) :
    source.at? position = some cell ∧ source.cells.drop (position + 1) = cells := by
  rw [at?, ← List.head?_drop, ← List.drop_drop, stands]
  exact ⟨rfl, rfl⟩

theorem skipsTo_iff {cell : Cell} (there : source.at? stop = some cell) :
    source.SkipsTo start stop ↔ ∃ trivia rest, source.cells.drop start = trivia ++ cell :: rest ∧
      (∀ other ∈ trivia, other.isTrivia) ∧ stop = start + trivia.length := by
  constructor
  · intro skips
    have ordered := skips.ordered
    have within := (List.getElem?_eq_some_iff.mp there).1
    have place : start + (stop - start) = stop := by omega
    have behind : source.cells.drop stop = cell :: source.cells.drop (stop + 1) := by
      rw [List.drop_eq_getElem_cons within]
      congr 1
      exact Option.some.inj ((List.getElem?_eq_getElem within).symm.trans there)
    refine ⟨(source.cells.drop start).take (stop - start), source.cells.drop (stop + 1), ?_,
      fun other member => ?_, ?_⟩
    · rw [← behind, ← place, ← List.drop_drop, place, List.take_append_drop]
    · obtain ⟨index, before, rfl⟩ := List.mem_iff_getElem.mp member
      rw [List.length_take, List.length_drop] at before
      have trivial := skips.trivial (start + index) (by omega) (by omega)
      rw [at?, List.getElem?_eq_getElem (by omega)] at trivial
      simpa using trivial
    · simp only [List.length_take, List.length_drop]
      omega
  · rintro ⟨trivia, rest, stands, trivial, rfl⟩
    refine ⟨by omega, fun position behind before => ?_⟩
    have place : position = start + (position - start) := by omega
    have inside : position - start < trivia.length := by omega
    rw [place, at?, ← List.getElem?_drop, stands, List.getElem?_append_left inside,
      List.getElem?_eq_getElem inside]
    exact trivial _ (List.getElem_mem inside)

theorem hasCodeAt_iff {position : Nat} {char : Char} : source.hasCodeAt position char ↔
    ∃ cell, source.at? position = some cell ∧ cell.isCodeChar char := by
  rw [hasCodeAt, Option.any_eq_true]

theorem labelAt_iff : source.LabelAt label start colon ↔ source.wordBefore start = false ∧
    ∃ trivia cell rest, source.cells.drop start = cellsOf .code label ++ (trivia ++ cell :: rest) ∧
      (∀ other ∈ trivia, other.isTrivia) ∧ cell.isCodeChar ':' ∧
      (∀ other ∈ (trivia ++ [cell]).head?, other.isWord = false) ∧
      colon = start + label.length + trivia.length := by
  have first (trivia rest : List Cell) (cell : Cell)
      (stands : source.cells.drop (start + label.length) = trivia ++ cell :: rest) :
      source.at? (start + label.length) = (trivia ++ [cell]).head? := by
    rw [at?_eq_head?, stands]
    cases trivia <;> rfl
  constructor
  · intro occurs
    obtain ⟨cell, there, isColon⟩ := hasCodeAt_iff.mp occurs.colon
    obtain ⟨trivia, rest, stands, trivial, place⟩ := (skipsTo_iff there).mp occurs.skips
    refine ⟨occurs.starts, trivia, cell, rest, ?_, trivial, isColon, fun other found => ?_, place⟩
    · have written := occurs.written
      rw [cellsIn, Span.size, Nat.add_sub_cancel_left] at written
      rw [← written, ← stands, ← List.drop_drop, List.take_append_drop]
    · have ends := occurs.ends
      rw [first _ _ _ stands, Option.mem_def.mp found] at ends
      exact ends
  · rintro ⟨starts, trivia, cell, rest, whole, trivial, isColon, boundary, rfl⟩
    have stands : source.cells.drop (start + label.length) = trivia ++ cell :: rest := by
      rw [← List.drop_drop, whole, ← Kind.length_cellsOf .code label, List.drop_left]
    have there : source.at? (start + label.length + trivia.length) = some cell := by
      rw [at?_eq_head?, ← List.drop_drop, stands, List.drop_left]
      rfl
    refine ⟨?_, starts, ?_, (skipsTo_iff there).mpr ⟨trivia, rest, stands, trivial, rfl⟩,
      hasCodeAt_iff.mpr ⟨cell, there, isColon⟩⟩
    · rw [cellsIn, Span.size, Nat.add_sub_cancel_left, whole, ← Kind.length_cellsOf .code label,
        List.take_left]
    · rw [first _ _ _ stands]
      cases head : (trivia ++ [cell]).head? with
      | none => rfl
      | some other => exact boundary other head

def siteAt? (source : Source) (label : Text) (position : Nat) : Option LabelSite :=
  match source.cells.drop position with
  | [] => none
  | cell :: cells =>
      if !cell.isCode || cell.opens?.isSome || cell.closes?.isSome ||
        source.wordBefore position then none
      else (labelWidth? label (cells.length + 1) (cell :: cells)).map fun width =>
        ⟨position + width, source.depthAt position⟩

theorem siteAt?_eq_some_iff (isLabel : IsLabel label) {site : LabelSite} :
    source.siteAt? label start = some site ↔ source.wordBefore start = false ∧
      ∃ word trivia cell rest, source.cells.drop start = word ++ (trivia ++ cell :: rest) ∧
        word.map Cell.char = label ∧ (∀ other ∈ word.head?, other.isCode) ∧
        (∀ other ∈ trivia, other.isTrivia) ∧ cell.isCodeChar ':' ∧
        (∀ other ∈ (trivia ++ [cell]).head?, other.isWord = false) ∧
        site = ⟨start + (word.length + trivia.length + 1), source.depthAt start⟩ := by
  rw [siteAt?]
  cases stands : source.cells.drop start with
  | nil => simp
  | cons first cells =>
      dsimp only
      constructor
      · intro found
        split at found
        · cases found
        · rename_i plain
          obtain ⟨⟨⟨code, -⟩, -⟩, starts⟩ :
              ((first.isCode = true ∧ first.opens? = none) ∧ first.closes? = none) ∧
                source.wordBefore start = false := by
            simpa using plain
          obtain ⟨width, wide, rfl⟩ := Option.map_eq_some_iff.mp found
          obtain ⟨word, trivia, cell, rest, split, same, trivial, isColon, boundary, rfl⟩ :=
            (labelWidth?_eq_some_iff (by simp)).mp wide
          refine ⟨starts, word, trivia, cell, rest, split, same, fun other head => ?_,
            trivial, isColon, boundary, rfl⟩
          cases word with
          | nil => cases head
          | cons letter word =>
              obtain rfl : letter = other := by simpa using head
              exact (List.cons.inj split).1 ▸ code
      · rintro ⟨starts, word, trivia, cell, rest, split, same, code, trivial,
          isColon, boundary, rfl⟩
        cases word with
        | nil => exact absurd same.symm isLabel.filled
        | cons letter word =>
            obtain ⟨rfl, rest_split⟩ := List.cons.inj split
            have isWord : first.isWord := isLabel.word first.char (same ▸ List.mem_cons_self)
            obtain ⟨noOpening, noClosing⟩ := Cell.noBrackets_of_isWord isWord
            have width : labelWidth? label (cells.length + 1) (first :: cells) = some _ :=
              (labelWidth?_eq_some_iff (by simp)).mpr
                ⟨first :: word, trivia, cell, rest, split, same, trivial, isColon, boundary, rfl⟩
            rw [if_neg (by simp [code first rfl, noOpening, noClosing, starts]), width]
            rfl

/-- A label begins with a word character of code that continues no word. -/
theorem siteAt?_eq_none (isLabel : IsLabel label)
    (noLabel : source.wordBefore start ∨ ∀ cell ∈ source.at? start, cell.isCode →
      cell.isWord = false) :
    source.siteAt? label start = none := by
  refine Option.eq_none_iff_forall_ne_some.mpr fun site found => ?_
  obtain ⟨starts, word, trivia, cell, rest, stands, same, code, -⟩ :=
    (siteAt?_eq_some_iff isLabel).mp found
  rcases noLabel with inWord | noWord
  · simp [starts] at inWord
  · cases word with
    | nil => exact isLabel.filled same.symm
    | cons letter word =>
        have isWord : letter.isWord := isLabel.word letter.char (same ▸ List.mem_cons_self)
        have here : letter ∈ source.at? start := by
          rw [at?_eq_head?, stands]
          rfl
        simp [noWord letter here (code letter rfl)] at isWord

/-- No label begins behind the first character of another one and up to its colon. -/
theorem siteAt?_inside (isLabel : IsLabel label) {word trivia rest : List Cell} {cell : Cell}
    (stands : source.cells.drop start = word ++ (trivia ++ cell :: rest))
    (same : word.map Cell.char = label)
    (trivial : ∀ other ∈ trivia, other.isTrivia) (isColon : cell.isCodeChar ':') {offset : Nat}
    (before : offset < word.length + trivia.length) :
    source.siteAt? label (start + 1 + offset) = none := by
  have there (index : Nat) : source.at? (start + index) =
      (word ++ (trivia ++ cell :: rest))[index]? := by
    rw [at?, ← List.getElem?_drop, stands]
  refine siteAt?_eq_none isLabel ?_
  by_cases inWord : offset < word.length
  · refine .inl ?_
    have place : start + 1 + offset - 1 = start + offset := by omega
    rw [wordBefore, place, there, List.getElem?_append_left inWord, List.getElem?_eq_getElem inWord]
    have isWord : word[offset].isWord :=
      isLabel.word _ (same ▸ List.mem_map_of_mem (List.getElem_mem inWord))
    simpa using isWord
  · refine .inr fun other found code => ?_
    have behind : word.length ≤ 1 + offset := by omega
    have inside : 1 + offset - word.length < (trivia ++ [cell]).length := by
      rw [List.length_append, List.length_singleton]
      omega
    rw [Nat.add_assoc, there, List.getElem?_append_right behind,
      ← List.singleton_append (l := rest),
      ← List.append_assoc, List.getElem?_append_left inside] at found
    rcases List.mem_append.mp (List.mem_of_getElem? found) with trivia_member | colon_member
    · have blank : isBlank other.char := by
        simpa [Cell.isTrivia, show other.kind ≠ .comment by simp_all [Cell.isCode]]
          using trivial other trivia_member
      exact isWordChar_of_isBlank blank
    · obtain rfl := List.mem_singleton.mp colon_member
      obtain ⟨-, same⟩ : _ ∧ other.char = ':' := by simpa [Cell.isCodeChar] using isColon
      rw [Cell.isWord, same]
      decide

theorem code_of_word {before : Cell} {word rest : List Cell}
    (chain : List.IsChain Joined (before :: (word ++ rest))) (code : before.kind = .code)
    (isWord : ∀ cell ∈ word, cell.isWord) : ∀ cell ∈ word, cell.kind = .code := by
  induction word generalizing before with
  | nil => simp
  | cons cell word ih =>
      obtain ⟨joined, chain⟩ := List.isChain_cons_cons.mp chain
      have solid (char : Char) (noWord : isWordChar char = false) : cell.char ≠ char := by
        rintro rfl
        have := isWord cell List.mem_cons_self
        rw [Cell.isWord, noWord] at this
        cases this
      have here : cell.kind = .code := by
        cases kind : cell.kind with
        | code => rfl
        | string => exact absurd (joined.quoted kind (by simp [code])) (solid '"' (by decide))
        | comment => exact absurd (joined.slashed kind (by simp [code])) (solid '/' (by decide))
      intro other member
      rcases List.mem_cons.mp member with rfl | member
      · exact here
      · exact ih chain here (fun letter inside => isWord letter (List.mem_cons_of_mem _ inside))
          other member

theorem eq_cellsOf_of_word {text : Text} {word rest : List Cell}
    (stands : (ofText text).cells.drop start = word ++ rest)
    (code : ∀ other ∈ word.head?, other.isCode)
    (isWord : ∀ cell ∈ word, cell.isWord) : word = cellsOf .code (word.map Cell.char) := by
  have kinds : ∀ cell ∈ word, cell.kind = .code := by
    cases word with
    | nil => simp
    | cons first word =>
        have chain := (isChain_joined_ofText text).tail.drop start
        rw [List.tail_cons, stands] at chain
        have here : first.kind = .code := by simpa [Cell.isCode] using code first rfl
        intro other member
        rcases List.mem_cons.mp member with rfl | member
        · exact here
        · exact code_of_word chain here
            (fun letter inside => isWord letter (List.mem_cons_of_mem _ inside))
            other member
  rw [cellsOf, List.map_map]
  refine (List.map_id word).symm.trans (List.map_congr_left fun cell member => ?_)
  simp only [Function.comp_apply, ← kinds cell member]
  rfl

theorem siteAt?_eq_some_iff_labelAt (isLabel : IsLabel label) (text : Text) {site : LabelSite} :
    (ofText text).siteAt? label start = some site ↔
      ∃ colon, (ofText text).LabelAt label start colon ∧
        site = ⟨colon + 1, (ofText text).depthAt start⟩ := by
  rw [siteAt?_eq_some_iff isLabel]
  constructor
  · rintro ⟨starts, word, trivia, cell, rest, stands, rfl, code, trivial, isColon, boundary, rfl⟩
    have written := eq_cellsOf_of_word stands code fun letter member =>
      isLabel.word letter.char (List.mem_map_of_mem member)
    refine ⟨_, labelAt_iff.mpr ⟨starts, trivia, cell, rest, ?_, trivial, isColon,
      boundary, rfl⟩, ?_⟩
    · rw [← written, stands]
    · simp only [List.length_map, LabelSite.mk.injEq, and_true]
      omega
  · rintro ⟨colon, occurs, rfl⟩
    obtain ⟨starts, trivia, cell, rest, stands, trivial, isColon, boundary, rfl⟩ :=
      labelAt_iff.mp occurs
    refine ⟨starts, cellsOf .code label, trivia, cell, rest, stands, Kind.chars_cellsOf .code label,
      fun other head => ?_, trivial, isColon, boundary, ?_⟩
    · have := (Kind.mem_cellsOf.mp (List.mem_of_mem_head? head)).1
      simp [Cell.isCode, this]
    · simp only [Kind.length_cellsOf, LabelSite.mk.injEq, and_true]
      omega

def labelColon? (source : Source) (label : Text) (position stop : Nat) : Option Nat :=
  if source.wordBefore position then none
  else (labelWidth? label (stop - position) (source.cells.drop position)).map (position + · - 1)

theorem wordBefore_succ (there : source.at? position = some cell) :
    source.wordBefore (position + 1) = cell.isWord := by
  simp [wordBefore, there]

def sitesFrom (source : Source) (label : Text) (stop position depth : Nat) : List LabelSite :=
  labelSitesFrom label stop 0 position depth (source.wordBefore position)
    (source.cells.drop position)

theorem labelSitesFrom_skip (source : Source) (skip depth : Nat) :
    labelSitesFrom label stop skip position depth (source.wordBefore position)
      (source.cells.drop position) =
      source.sitesFrom label stop (position + skip) depth := by
  induction skip generalizing position with
  | zero => rfl
  | succ skip ih =>
      rw [Nat.add_comm skip 1, ← Nat.add_assoc, ← ih]
      cases stands : source.cells.drop position with
      | nil =>
          rw [← List.drop_drop, stands]
          cases skip <;> rfl
      | cons cell cells =>
          obtain ⟨there, behind⟩ := at?_of_drop_eq stands
          rw [Nat.add_comm 1, labelSitesFrom, wordBefore_succ there, behind]

theorem labelWidth?_pos {room width : Nat} {cells : List Cell}
    (found : labelWidth? label room cells = some width) : 0 < width := by
  rw [labelWidth?] at found
  split at found
  · cases found
  · obtain ⟨-, same⟩ := Option.ite_none_right_eq_some.mp found
    exact Option.some.inj same ▸ Nat.succ_pos _

/-- No label begins at a bracket or outside of code. -/
theorem sitesFrom_of_no_label (there : source.at? position = some cell) (before : position < stop)
    (noLabel : !cell.isCode || cell.opens?.isSome || cell.closes?.isSome) (depth : Nat) :
    source.sitesFrom label stop position depth =
      source.sitesFrom label stop (position + 1) (cell.depthAfter depth) := by
  rw [sitesFrom, drop_of_at? there, labelSitesFrom, if_neg (Nat.not_le_of_lt before), noLabel,
    Bool.true_or, if_pos rfl, ← wordBefore_succ there, sitesFrom]

/-- Where a label begins the search goes on behind its colon. -/
theorem sitesFrom_of_code (there : source.at? position = some cell) (before : position < stop)
    (code : cell.isCode) (noOpening : cell.opens? = none) (noClosing : cell.closes? = none)
    (depth : Nat) : source.sitesFrom label stop position depth =
      match source.labelColon? label position stop with
      | some colon => ⟨colon + 1, depth⟩ :: source.sitesFrom label stop (colon + 1) depth
      | none => source.sitesFrom label stop (position + 1) depth := by
  rw [sitesFrom, labelColon?, drop_of_at? there, labelSitesFrom, if_neg (Nat.not_le_of_lt before),
    code, noOpening, noClosing, Cell.depthAfter_plain noOpening noClosing, ← wordBefore_succ there]
  simp only [Bool.not_true, Option.isSome_none, Bool.or_self, Bool.false_or]
  cases source.wordBefore position with
  | true => rfl
  | false =>
      simp only [Bool.false_eq_true, if_false]
      cases wide : labelWidth? label (stop - position)
        (cell :: source.cells.drop (position + 1)) with
      | none => rfl
      | some width =>
          have filled := labelWidth?_pos wide
          have place : position + width - 1 + 1 = position + width := by omega
          have behind : position + 1 + (width - 1) = position + width := by omega
          simp only [Option.map_some, place, labelSitesFrom_skip, behind]

theorem siteAt?_of_no_label (there : source.at? position = some cell)
    (noLabel : !cell.isCode || cell.opens?.isSome || cell.closes?.isSome) :
    source.siteAt? label position = none := by
  rw [siteAt?, drop_of_at? there]
  dsimp only
  rw [noLabel, Bool.true_or, if_pos rfl]

theorem siteAt?_of_code (there : source.at? position = some cell) (code : cell.isCode)
    (noOpening : cell.opens? = none) (noClosing : cell.closes? = none) :
    source.siteAt? label position =
      (source.labelColon? label position source.length).map fun colon =>
      ⟨colon + 1, source.depthAt position⟩ := by
  have room : (source.cells.drop (position + 1)).length + 1 = source.length - position := by
    have := lt_of_at? there
    rw [List.length_drop]
    simp only [length] at this ⊢
    omega
  rw [siteAt?, labelColon?, drop_of_at? there]
  dsimp only
  rw [code, noOpening, noClosing, room]
  simp only [Bool.not_true, Option.isSome_none, Bool.or_self, Bool.false_or]
  cases source.wordBefore position with
  | true => rfl
  | false =>
      simp only [Bool.false_eq_true, if_false]
      cases wide : labelWidth? label (source.length - position)
        (cell :: source.cells.drop (position + 1)) with
      | none => rfl
      | some width =>
          have filled := labelWidth?_pos wide
          simp only [Option.map_some, Option.some.injEq, LabelSite.mk.injEq, and_true]
          omega

theorem depthAt_add (source : Source) (position count : Nat) : source.depthAt (position + count) =
    Cell.depthOver (source.depthAt position) ((source.cells.drop position).take count) := by
  rw [depthAt, depthAt, List.take_add, Cell.depthOver_append]

theorem depthAt_succ (there : source.at? position = some cell) :
    source.depthAt (position + 1) = cell.depthAfter (source.depthAt position) := by
  rw [depthAt_add, drop_of_at? there]
  rfl

/-- Between the start of a label and its colon there is no bracket and no other label begins. -/
theorem quiet_of_labelColon? (isLabel : IsLabel label)
    (found : source.labelColon? label position source.length = some colon) :
    position ≤ colon ∧ colon < source.length ∧
      source.depthAt (colon + 1) = source.depthAt position ∧
      ∀ other, position < other → other ≤ colon → source.siteAt? label other = none := by
  obtain ⟨-, found⟩ := Option.ite_none_left_eq_some.mp found
  obtain ⟨width, wide, rfl⟩ := Option.map_eq_some_iff.mp found
  have enough : (source.cells.drop position).length ≤ source.length - position := by simp [length]
  have brackets := labelWidth?_noBrackets isLabel.word enough wide
  obtain ⟨word, trivia, cell, rest, stands, same, trivial, isColon, -, rfl⟩ :=
    (labelWidth?_eq_some_iff enough).mp wide
  have size := congrArg List.length stands
  simp only [List.length_drop, List.length_append, List.length_cons] at size
  refine ⟨by omega, ?_, ?_, fun other behind before => ?_⟩
  · simp only [length]
    omega
  · have place : position + (word.length + trivia.length + 1) - 1 + 1 =
        position + (word.length + trivia.length + 1) := by omega
    rw [place, depthAt_add, (Balanced.of_noBrackets brackets).depthOver]
  · obtain ⟨offset, rfl⟩ := Nat.exists_eq_add_of_lt behind
    rw [Nat.add_right_comm]
    exact siteAt?_inside isLabel stands same trivial isColon (by omega)

theorem sitesFrom_eq_filterMap (isLabel : IsLabel label) (position : Nat) :
    source.sitesFrom label source.length position (source.depthAt position) =
      (List.range' position (source.length - position)).filterMap (source.siteAt? label) := by
  generalize count : source.length - position = size
  induction size using Nat.strongRecOn generalizing position with
  | ind size ih =>
      by_cases inside : position < source.length
      · obtain ⟨cell, there⟩ := exists_at? inside
        obtain ⟨size, rfl⟩ : ∃ rest, size = rest + 1 := ⟨size - 1, by omega⟩
        have next := ih size (Nat.lt_succ_self _) (position + 1) (by omega)
        rw [depthAt_succ there] at next
        rw [List.range'_succ, List.filterMap_cons]
        cases noLabel : !cell.isCode || cell.opens?.isSome || cell.closes?.isSome with
        | true =>
            rw [sitesFrom_of_no_label there inside noLabel, siteAt?_of_no_label there noLabel, next]
        | false =>
            obtain ⟨⟨code, noOpening⟩, noClosing⟩ :
                (cell.isCode = true ∧ cell.opens? = none) ∧ cell.closes? = none := by
              simpa using noLabel
            rw [Cell.depthAfter_plain noOpening noClosing] at next
            rw [sitesFrom_of_code there inside code noOpening noClosing,
              siteAt?_of_code there code noOpening noClosing]
            cases found : source.labelColon? label position source.length with
            | none => exact next
            | some colon =>
                -- The positions up to the colon hold no site, and behind it the search goes on.
                obtain ⟨ordered, within, depth, silent⟩ := quiet_of_labelColon? isLabel found
                have behind := ih (source.length - (colon + 1)) (by omega) (colon + 1) rfl
                have parts : List.range' (position + 1) size =
                    List.range' (position + 1) (colon - position) ++
                      List.range' (colon + 1) (source.length - (colon + 1)) := by
                  have place : position + 1 + (colon - position) = colon + 1 := by omega
                  have rest : size = colon - position + (source.length - (colon + 1)) := by omega
                  rw [rest, ← List.range'_append_1, place]
                have none : (List.range' (position + 1) (colon - position)).filterMap
                    (source.siteAt? label) = [] := by
                  refine List.filterMap_eq_nil_iff.mpr fun other member => ?_
                  have := List.mem_range'_1.mp member
                  exact silent other (by omega) (by omega)
                rw [depth] at behind
                simp only [Option.map_some, parts, List.filterMap_append, none,
                  List.nil_append, behind]
      · obtain rfl : size = 0 := by omega
        rw [sitesFrom, List.drop_eq_nil_of_le (Nat.le_of_not_lt inside)]
        rfl

/-- The sites of a label are those at the positions of the source, in their order. -/
theorem labelSites_eq_filterMap (isLabel : IsLabel label) : source.labelSites label source.whole =
    (List.range source.length).filterMap (source.siteAt? label) := by
  have sites : source.sitesFrom label source.length 0 (source.depthAt 0) = _ :=
    sitesFrom_eq_filterMap isLabel 0
  rw [List.range_eq_range']
  exact sites

theorem skipTrivia_eq_iff {cell : Cell} (there : source.at? stop = some cell)
    (solid : cell.isTrivia = false) :
    source.skipTrivia start source.length = stop ↔ source.SkipsTo start stop := by
  have within : stop < source.length := (List.getElem?_eq_some_iff.mp there).1
  constructor
  · rintro rfl
    have short : start ≤ source.length := by
      by_cases le : start ≤ source.length
      · exact le
      · rw [skipTrivia] at within
        omega
    obtain ⟨trivia, rest, stands, trivial, place⟩ :=
      source.skipTrivia_spec start (source.length - start)
    rw [show start + (source.length - start) = source.length by omega] at place
    have first : rest.head? = some cell := by
      rw [at?_eq_head?, place, ← List.drop_drop, stands, List.drop_left] at there
      exact there
    cases rest with
    | nil => cases first
    | cons other rest =>
        obtain rfl := Option.some.inj first
        exact (skipsTo_iff there).mpr ⟨trivia, rest, stands, trivial, place⟩
  · intro skips
    obtain ⟨trivia, rest, stands, trivial, rfl⟩ := (skipsTo_iff there).mp skips
    have shows : source.Shows start (trivia ++ cell :: rest) :=
      ⟨[], by rw [stands, List.append_nil]⟩
    exact shows.skipTrivia trivial solid (by omega)

/--
The array behind a position is the pair of square brackets that trivia alone separate from it.
-/
theorem arrayBehind?_eq_some_iff {span : Span} :
    source.arrayBehind? start source.length = some span ↔ ∃ opening, source.SkipsTo start opening ∧
      source.hasCodeAt opening '[' ∧ source.closing? opening = some span.stop ∧
        span.start = opening + 1 := by
  have solid {opening : Nat} (opens : source.hasCodeAt opening '[') :
      ∃ cell, source.at? opening = some cell ∧ cell.isTrivia = false := by
    obtain ⟨cell, there, isOpening⟩ := hasCodeAt_iff.mp opens
    refine ⟨cell, there, ?_⟩
    obtain ⟨char, kind⟩ := cell
    simp only [Cell.isCodeChar, Cell.isCode, Bool.and_eq_true, decide_eq_true_eq] at isOpening
    obtain ⟨rfl, rfl⟩ := isOpening
    decide
  rw [arrayBehind?, insideBefore?_length]
  constructor
  · intro found
    simp only [Option.ite_none_right_eq_some, Bool.and_eq_true, decide_eq_true_eq] at found
    obtain ⟨⟨-, opens⟩, found⟩ := found
    obtain ⟨closing, closes, rfl⟩ := Option.map_eq_some_iff.mp found
    obtain ⟨cell, there, noTrivia⟩ := solid opens
    exact ⟨_, (skipTrivia_eq_iff there noTrivia).mp rfl, opens, closes, rfl⟩
  · rintro ⟨opening, skips, opens, closes, place⟩
    obtain ⟨cell, there, noTrivia⟩ := solid opens
    have within : opening < source.length := (List.getElem?_eq_some_iff.mp there).1
    simp only [(skipTrivia_eq_iff there noTrivia).mpr skips, within, opens,
      decide_true, Bool.and_self, if_true, closes, Option.map_some, ← place]

theorem opensAt_of_hasCodeAt {position : Nat} (opens : source.hasCodeAt position '[') :
    source.opensAt position := by
  obtain ⟨⟨char, kind⟩, there, isOpening⟩ := hasCodeAt_iff.mp opens
  simp only [Cell.isCodeChar, Cell.isCode, Bool.and_eq_true, decide_eq_true_eq] at isOpening
  obtain ⟨rfl, rfl⟩ := isOpening
  simp [opensAt, there, Cell.opens?, Cell.isCode, Bracket.opened?]

theorem arrayBehind?_isSome_iff (nested : WellNested (brackets source.cells)) :
    (source.arrayBehind? start source.length).isSome ↔
      ∃ opening, source.SkipsTo start opening ∧ source.hasCodeAt opening '[' := by
  rw [Option.isSome_iff_exists]
  constructor
  · rintro ⟨span, found⟩
    obtain ⟨opening, skips, opens, -⟩ := arrayBehind?_eq_some_iff.mp found
    exact ⟨opening, skips, opens⟩
  · rintro ⟨opening, skips, opens⟩
    obtain ⟨closing, closes⟩ := exists_closing?_of_wellNested nested (opensAt_of_hasCodeAt opens)
    exact ⟨⟨opening + 1, closing⟩, arrayBehind?_eq_some_iff.mpr
      ⟨opening, skips, opens, closes, rfl⟩⟩

theorem LabelAt.depthAt (occurs : source.LabelAt label start colon) (isLabel : IsLabel label)
    (nested : WellNested (brackets source.cells)) :
    source.depthAt start = source.pairsAround start := by
  obtain ⟨first, letters, rfl⟩ := List.exists_cons_of_ne_nil isLabel.filled
  obtain ⟨-, trivia, cell, rest, stands, -⟩ := labelAt_iff.mp occurs
  have here : source.at? start = some ⟨first, .code⟩ := by
    rw [at?_eq_head?, stands]
    rfl
  have isWord : Cell.isWord ⟨first, .code⟩ := isLabel.word first (.head _)
  exact depthAt_eq_pairsAround nested here (Cell.noBrackets_of_isWord isWord).2

/-- The sites of a label in a text with well-nested brackets are those of its occurrences. -/
theorem siteAt?_eq_some_iff_pairsAround (isLabel : IsLabel label) {text : Text}
    (nested : WellNested (brackets (ofText text).cells)) {site : LabelSite} :
    (ofText text).siteAt? label start = some site ↔
      ∃ colon, (ofText text).LabelAt label start colon ∧
      site = ⟨colon + 1, (ofText text).pairsAround start⟩ := by
  rw [siteAt?_eq_some_iff_labelAt isLabel]
  refine exists_congr fun colon => and_congr_right fun occurs => ?_
  rw [occurs.depthAt isLabel nested]

theorem LabelAt.lt_length (occurs : source.LabelAt label start colon) : start < source.length := by
  obtain ⟨-, trivia, cell, rest, stands, -⟩ := labelAt_iff.mp occurs
  have size := congrArg List.length stands
  simp only [List.length_drop, List.length_append, List.length_cons] at size
  simp only [length]
  omega

theorem mem_labelSites_iff (isLabel : IsLabel label) {text : Text}
    (nested : WellNested (brackets (ofText text).cells)) {site : LabelSite} :
    site ∈ (ofText text).labelSites label (ofText text).whole ↔ ∃ start colon,
      (ofText text).LabelAt label start colon ∧
        site = ⟨colon + 1, (ofText text).pairsAround start⟩ := by
  rw [labelSites_eq_filterMap isLabel, List.mem_filterMap]
  refine exists_congr fun start => ?_
  rw [siteAt?_eq_some_iff_pairsAround isLabel nested, List.mem_range]
  exact and_iff_right_of_imp fun ⟨colon, occurs, _⟩ => occurs.lt_length

theorem arraysAt_iff (isLabel : IsLabel label) {text : Text}
    (nested : WellNested (brackets (ofText text).cells)) (excluded : List Span) {site : LabelSite} :
    (site ∈ (ofText text).labelSites label (ofText text).whole ∧
      (ofText text).arraysAt excluded site) ↔
      ∃ opening, (ofText text).OffersArray label excluded site opening := by
  rw [mem_labelSites_iff isLabel nested, arraysAt, Bool.and_eq_true, arrayBehind?_isSome_iff nested]
  simp only [Bool.not_eq_true', List.any_eq_false, Bool.not_eq_true]
  constructor
  · rintro ⟨labeled, included, opening, skips, opens⟩
    exact ⟨opening, labeled, included, skips, opens⟩
  · rintro ⟨opening, offers⟩
    exact ⟨offers.labeled, offers.included, opening, offers.skips, offers.opens⟩

theorem exists_occurrences (isLabel : IsLabel label) {text : Text}
    (nested : WellNested (brackets (ofText text).cells)) :
    ∃ occurrences : List (Nat × Nat),
      occurrences.Pairwise (fun first second => first.1 < second.1) ∧
      (∀ start colon, (start, colon) ∈ occurrences ↔ (ofText text).LabelAt label start colon) ∧
      (ofText text).labelSites label (ofText text).whole =
        occurrences.map fun (start, colon) => ⟨colon + 1, (ofText text).pairsAround start⟩ := by
  have sites {start : Nat} {site : LabelSite} : (ofText text).siteAt? label start = some site ↔ _ :=
    siteAt?_eq_some_iff_pairsAround isLabel nested
  refine ⟨(List.range (ofText text).length).filterMap fun start =>
    ((ofText text).siteAt? label start).map fun site => (start, site.position - 1), ?_,
      fun start colon => ?_, ?_⟩
  · refine List.pairwise_filterMap.mpr (List.pairwise_lt_range.imp fun {first second} lt => ?_)
    intro left found right there
    obtain ⟨_, -, rfl⟩ := Option.map_eq_some_iff.mp found
    obtain ⟨_, -, rfl⟩ := Option.map_eq_some_iff.mp there
    exact lt
  · rw [List.mem_filterMap]
    constructor
    · rintro ⟨position, -, found⟩
      obtain ⟨site, found, same⟩ := Option.map_eq_some_iff.mp found
      obtain ⟨behind, occurs, rfl⟩ := sites.mp found
      obtain ⟨rfl, rfl⟩ := Prod.mk.inj same
      exact occurs
    · intro occurs
      refine ⟨start, List.mem_range.mpr occurs.lt_length, ?_⟩
      rw [sites.mpr ⟨colon, occurs, rfl⟩]
      rfl
  · rw [labelSites_eq_filterMap isLabel, List.map_filterMap]
    refine List.filterMap_congr fun start _ => ?_
    cases found : (ofText text).siteAt? label start with
    | none => rfl
    | some site =>
        obtain ⟨colon, -, rfl⟩ := sites.mp found
        rfl

theorem labeledArray?_eq_some_iff_offersArray (isLabel : IsLabel label) {text : Text}
    (nested : WellNested (brackets (ofText text).cells)) {excluded : List Span} {span : Span} :
    (ofText text).labeledArray? label excluded = some span ↔
      ∃ site opening, (ofText text).OffersArray label excluded site opening ∧
        (∀ other elsewhere, (ofText text).OffersArray label excluded other elsewhere →
          site.le other) ∧
        (ofText text).closing? opening = some span.stop ∧ span.start = opening + 1 := by
  have offers {site : LabelSite} : site ∈ _ ∧ _ ↔ _ := arraysAt_iff isLabel nested excluded
  rw [labeledArray?_eq, Option.bind_eq_some_iff]
  simp only [arraySite?, leastSite?_eq_some_iff, arrayBehind?_eq_some_iff]
  constructor
  · rintro ⟨site, ⟨listed, good, least⟩, opening, skips, opens, closes, place⟩
    obtain ⟨_, offered⟩ := offers.mp ⟨listed, good⟩
    refine ⟨site, opening, ⟨offered.labeled, offered.included, skips, opens⟩,
      fun other elsewhere offered => ?_, closes, place⟩
    obtain ⟨there, fits⟩ := offers.mpr ⟨elsewhere, offered⟩
    exact least other there fits
  · rintro ⟨site, opening, offered, least, closes, place⟩
    obtain ⟨listed, good⟩ := offers.mpr ⟨opening, offered⟩
    refine ⟨site, ⟨listed, good, fun other there fits => ?_⟩, opening, offered.skips,
      offered.opens, closes, place⟩
    obtain ⟨elsewhere, other_offered⟩ := offers.mp ⟨there, fits⟩
    exact least other elsewhere other_offered

theorem labeledArray?_eq_none_iff_offersArray (isLabel : IsLabel label) {text : Text}
    (nested : WellNested (brackets (ofText text).cells)) {excluded : List Span} :
    (ofText text).labeledArray? label excluded = none ↔
      ¬∃ site opening, (ofText text).OffersArray label excluded site opening := by
  have offers {site : LabelSite} : site ∈ _ ∧ _ ↔ _ := arraysAt_iff isLabel nested excluded
  have missing : (ofText text).labeledArray? label excluded = none ↔
      (ofText text).arraySite? label excluded = none := by
    rw [labeledArray?_eq, Option.bind_eq_none_iff]
    refine ⟨fun nothing => Option.eq_none_iff_forall_ne_some.mpr fun site found => ?_,
      fun none => by simp [none]⟩
    obtain ⟨-, good, -⟩ := leastSite?_eq_some_iff.mp found
    rw [arraysAt, nothing site found] at good
    simp at good
  rw [missing, arraySite?, leastSite?_eq_none_iff]
  constructor
  · rintro nothing ⟨site, opening, offered⟩
    obtain ⟨listed, good⟩ := offers.mpr ⟨opening, offered⟩
    simp [nothing site listed] at good
  · intro nothing site listed
    cases good : (ofText text).arraysAt excluded site with
    | false => rfl
    | true =>
        obtain ⟨opening, offered⟩ := offers.mp ⟨listed, good⟩
        exact absurd ⟨site, opening, offered⟩ nothing

end Source

theorem IsLabel.of_word {label : Text} (filled : label ≠ [])
    (word : ∀ char ∈ label, isWordChar char) : IsLabel label := by
  refine ⟨filled, word, fun char member => ?_⟩
  cases blank : isBlank char with
  | false => rfl
  | true => exact absurd (word char member) (by simp [isWordChar_of_isBlank blank])

/--
Labels and arrays are found where they are written.  In every text whose brackets of code are
well nested, the search for a label lists, in the order of the text and once each, the places
where the label stands in code as a whole word that trivia alone separate from a colon of code,
each with the number of the pairs of brackets around it.  The array of the label, outside of
some spans, is the inside of the pair of brackets that belongs to the first of these places, by
depth and then by position, whose value begins with a square bracket; there is none exactly if
there is no such place.
-/
theorem labels_of_wellNested {text label : Text} (filled : label ≠ [])
    (word : ∀ char ∈ label, isWordChar char)
    (nested : WellNested (brackets (Source.ofText text).cells)) :
    (∃ occurrences : List (Nat × Nat),
      occurrences.Pairwise (fun first second => first.1 < second.1) ∧
      (∀ start colon, (start, colon) ∈ occurrences ↔
        (Source.ofText text).LabelAt label start colon) ∧
      (Source.ofText text).labelSites label (Source.ofText text).whole =
        occurrences.map fun (start, colon) => ⟨colon + 1, (Source.ofText text).pairsAround start⟩) ∧
      ∀ excluded,
        (∀ span, (Source.ofText text).labeledArray? label excluded = some span ↔
          ∃ site opening, (Source.ofText text).OffersArray label excluded site opening ∧
            (∀ other elsewhere, (Source.ofText text).OffersArray label excluded other elsewhere →
              site.le other) ∧
            (Source.ofText text).closing? opening = some span.stop ∧ span.start = opening + 1) ∧
        ((Source.ofText text).labeledArray? label excluded = none ↔
          ¬∃ site opening, (Source.ofText text).OffersArray label excluded site opening) := by
  have isLabel : IsLabel label := .of_word filled word
  exact ⟨Source.exists_occurrences isLabel nested, fun excluded =>
    ⟨fun span => Source.labeledArray?_eq_some_iff_offersArray isLabel nested,
      Source.labeledArray?_eq_none_iff_offersArray isLabel nested⟩⟩

/--
A call with a label in a comment, in a literal, inside of an array and without an array of its
own.
-/
def shadedText : Text :=
  "f(deps: nil, /* deps: [ */ xdeps: [0], deps /* : */ : [g(deps: [1], y: \"deps: [\")])".toList

theorem labels_of_shadedText :
    WellNested (brackets (Source.ofText shadedText).cells) ∧
      (∃ occurrences : List (Nat × Nat),
        occurrences.Pairwise (fun first second => first.1 < second.1) ∧
        (∀ start colon, (start, colon) ∈ occurrences ↔
          (Source.ofText shadedText).LabelAt "deps".toList start colon) ∧
        (Source.ofText shadedText).labelSites "deps".toList (Source.ofText shadedText).whole =
          occurrences.map fun (start, colon) =>
            ⟨colon + 1, (Source.ofText shadedText).pairsAround start⟩) ∧
      ∃ site opening, (Source.ofText shadedText).OffersArray "deps".toList [⟨0, 9⟩] site opening ∧
        (∀ other elsewhere, (Source.ofText shadedText).OffersArray "deps".toList [⟨0, 9⟩]
          other elsewhere →
          site.le other) ∧
        (Source.ofText shadedText).closing? opening = some 81 ∧ 55 = opening + 1 := by
  have spelled : brackets (Source.ofText shadedText).cells =
      [.opening .round, .opening .square, .closing .square, .opening .square, .opening .round,
        .opening .square, .closing .square, .closing .round, .closing .square,
          .closing .round] := by
    decide +kernel
  have empty : WellNested [.opening .square, .closing .square] := .pair .square .nil .nil
  have element : WellNested [.opening .round, .opening .square, .closing .square,
      .closing .round] :=
    .pair .round empty .nil
  have nested : WellNested (brackets (Source.ofText shadedText).cells) := by
    rw [spelled]
    exact .pair .round (.pair .square .nil (.pair .square element .nil)) .nil
  have word : ∀ char ∈ "deps".toList, isWordChar char := Text.forall_mem_of_all (by decide)
  have found : (Source.ofText shadedText).labeledArray? "deps".toList [⟨0, 9⟩] = some ⟨55, 81⟩ := by
    rw [Source.labeledArray?_eq_locate]
    decide +kernel
  obtain ⟨occurrences, arrays⟩ := labels_of_wellNested (by decide) word nested
  exact ⟨nested, occurrences, ((arrays [⟨0, 9⟩]).1 ⟨55, 81⟩).mp found⟩

end SwiftWorkspace
