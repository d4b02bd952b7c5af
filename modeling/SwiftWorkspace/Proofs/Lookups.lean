import SwiftWorkspace.Lookup.Query
import SwiftWorkspace.Proofs.Abreast
import SwiftWorkspace.Proofs.Occurrences
import SwiftWorkspace.Proofs.Separators

/-!
# Queries that find what they look up

Asked of the text and the kinds of a source, the queries by position never go too far: each of
them answers, and its answer is that of the query about the source.  A span that a query is asked
about must not reach behind the last character; the spans of elements, of the values of arguments
and of the insides of brackets do not.
-/

namespace SwiftWorkspace

namespace Lookup

variable {α β : Type} {items : List α}

theorem mapM_eq_ok {action : α → Lookup β} {result : α → β}
    (each : ∀ item ∈ items, action item = .ok (result item)) :
    items.mapM action = .ok (items.map result) := by
  induction items with
  | nil => rfl
  | cons item items ih =>
      rw [List.mapM_cons, each item List.mem_cons_self, ok_bind,
        ih fun other member => each other (List.mem_cons_of_mem _ member)]
      rfl

theorem filterMapM_eq_ok {action : α → Lookup (Option β)} {result : α → Option β}
    (each : ∀ item ∈ items, action item = .ok (result item)) :
    items.filterMapM action = .ok (items.filterMap result) := by
  induction items with
  | nil => rfl
  | cons item items ih =>
      rw [List.filterMapM_cons, each item List.mem_cons_self, ok_bind,
        ih fun other member => each other (List.mem_cons_of_mem _ member), List.filterMap_cons]
      cases result item <;> rfl

theorem findSomeM?_eq_ok {action : α → Lookup (Option β)} {result : α → Option β}
    (each : ∀ item ∈ items, action item = .ok (result item)) :
    items.findSomeM? action = .ok (items.findSome? result) := by
  induction items with
  | nil => rfl
  | cons item items ih =>
      rw [List.findSomeM?_cons, each item List.mem_cons_self, ok_bind,
        ih fun other member => each other (List.mem_cons_of_mem _ member), List.findSome?_cons]
      cases result item <;> rfl

theorem foldlM_eq_ok {action : β → α → Lookup β} {result : β → α → β} {start : β}
    (each : ∀ state, ∀ item ∈ items, action state item = .ok (result state item)) :
    items.foldlM action start = .ok (items.foldl result start) := by
  induction items generalizing start with
  | nil => rfl
  | cons item items ih =>
      rw [List.foldlM_cons, each start item List.mem_cons_self, ok_bind,
        ih fun state other member => each state other (List.mem_cons_of_mem _ member),
          List.foldl_cons]

end Lookup

namespace Literal

theorem unescapeFrom_eq (body : Text) (position : Nat) :
    unescapeFrom body position = .ok (unescape (body.drop position)) := by
  fun_induction unescapeFrom body position with
  | case1 position inside escapes plain =>
      have stands : body.drop position = body[position] :: body.drop (position + 1) :=
        List.drop_eq_getElem_cons inside
      simp only [Lookup.character, List.getElem?_eq_getElem inside, Lookup.ok_bind]
      split
      · rename_i escape
        obtain ⟨slash, more⟩ : body[position] = '\\' ∧ position + 1 < body.length := by
          simpa using escape
        rw [List.getElem?_eq_getElem more, stands, slash, List.drop_eq_getElem_cons more, unescape]
        simp [escapes]
      · rename_i noEscape
        have last (char : Char) (rest : Text) (slash : body[position] = '\\')
            (behind : body.drop (position + 1) = char :: rest) : False := by
          have size : (body.drop (position + 1)).length = rest.length + 1 := by
            rw [behind, List.length_cons]
          rw [List.length_drop] at size
          simp only [slash, decide_true, Bool.true_and, decide_eq_true_eq] at noEscape
          omega
        rw [stands, unescape.eq_2 _ _ last]
        simp [plain]
  | case2 position outside => simp [List.drop_eq_nil_of_le (Nat.le_of_not_lt outside), unescape]

end Literal

namespace Cell

variable {cell : Cell}

theorem opens?_of_code (code : cell.kind = .code) : cell.opens? = Bracket.opened? cell.char := by
  simp [opens?, isCode, code]

theorem closes?_of_code (code : cell.kind = .code) : cell.closes? = Bracket.closed? cell.char := by
  simp [closes?, isCode, code]

theorem opens?_of_not_code (noCode : cell.kind ≠ .code) : cell.opens? = none := by
  simp [opens?, isCode, noCode]

theorem closes?_of_not_code (noCode : cell.kind ≠ .code) : cell.closes? = none := by
  simp [closes?, isCode, noCode]

end Cell

theorem Span.isEmpty_eq_false {span : Span} (filled : span.start < span.stop) :
    span.isEmpty = false := by
  simpa [isEmpty] using filled

namespace Source

variable {source : Source} {cell : Cell} {label : Text} {span : Span} {position stop : Nat}

/-- The text and the kinds of a source. -/
def tables (source : Source) : Tables := ⟨source.text, source.kinds⟩

/-- The kinds of a source are those that the pass gives to its text. -/
theorem kinds_ofText (text : Text) : (ofText text).kinds = Kind.classify text := by
  rw [kinds, ofText, ← List.map_uncurry_zip_eq_zipWith, List.map_map]
  exact List.map_snd_zip (Nat.le_of_eq (Kind.length_classify text))

@[simp] theorem length_tables : source.tables.text.length = source.length := by
  simp [tables, text, length]

section Places

variable (there : source.at? position = some cell)

include there

theorem charAt_tables : source.tables.charAt position = .ok cell.char := by
  rw [at?] at there
  simp [Tables.charAt, Lookup.character, tables, text, there]

theorem kindAt_tables : source.tables.kindAt position = .ok cell.kind := by
  rw [at?] at there
  simp [Tables.kindAt, Lookup.kind, tables, kinds, there]

theorem hasCharAt_of_at? (char : Char) :
    source.hasCharAt position char = decide (cell.char = char) := by
  rw [hasCharAt, there]
  rfl

theorem isTriviaAt_tables : source.tables.isTriviaAt position = .ok cell.isTrivia := by
  rw [Tables.isTriviaAt, kindAt_tables there, Lookup.ok_bind, charAt_tables there, Lookup.ok_bind]
  by_cases comment : cell.kind = .comment <;> simp [comment, Cell.isTrivia]

end Places

@[simp] theorem isCodeAt_tables :
    source.tables.isCodeAt position = .ok (source.isCodeAt position) := by
  rw [Tables.isCodeAt, length_tables, isCodeAt]
  by_cases inside : position < source.length
  · obtain ⟨cell, there⟩ := exists_at? inside
    rw [if_pos inside, kindAt_tables there, there]
    rfl
  · rw [if_neg inside, at?, List.getElem?_eq_none (Nat.le_of_not_lt inside)]
    rfl

@[simp] theorem isWordAt_tables :
    source.tables.isWordAt position = .ok ((source.at? position).any Cell.isWord) := by
  rw [Tables.isWordAt, length_tables]
  by_cases inside : position < source.length
  · obtain ⟨cell, there⟩ := exists_at? inside
    rw [if_pos inside, charAt_tables there, there]
    rfl
  · rw [if_neg inside, at?, List.getElem?_eq_none (Nat.le_of_not_lt inside)]
    rfl

theorem hasCodeAt_tables (inside : position < source.length) (char : Char) :
    source.tables.hasCodeAt position char = .ok (source.hasCodeAt position char) := by
  obtain ⟨cell, there⟩ := exists_at? inside
  rw [Tables.hasCodeAt, charAt_tables there, Lookup.ok_bind, isCodeAt_tables, isCodeAt,
    hasCodeAt, there]
  by_cases same : cell.char = char <;> simp [same, Cell.isCodeChar]

theorem skipTrivia_tables (within : stop ≤ source.length) :
    source.tables.skipTrivia position stop = .ok (source.skipTrivia position stop) := by
  generalize count : stop - position = size
  induction size generalizing position with
  | zero =>
      have behind : ¬position < stop := by omega
      rw [Tables.skipTrivia, if_neg behind, skipTrivia, count, Nat.min_zero]
      rfl
  | succ size ih =>
      have before : position < stop := by omega
      obtain ⟨cell, there⟩ := exists_at? (Nat.lt_of_lt_of_le before within)
      rw [Tables.skipTrivia, if_pos before, isTriviaAt_tables there, Lookup.ok_bind, skipTrivia,
        drop_of_at? there, List.takeWhile_cons]
      cases cell.isTrivia with
      | false => simp
      | true =>
          simp only [if_true, List.length_cons]
          rw [ih (by omega), skipTrivia]
          congr 1
          omega

theorem closingFrom_tables (pending : List Bracket) :
    source.tables.closingFrom pending position =
      .ok (closingFrom pending position (source.cells.drop position)) := by
  generalize cells_eq : source.cells.drop position = cells
  induction cells generalizing pending position with
  | nil =>
      have outside : ¬position < source.tables.text.length := by
        simpa [length] using List.drop_eq_nil_iff.mp cells_eq
      rw [Tables.closingFrom, if_neg outside]
      rfl
  | cons cell cells ih =>
      obtain ⟨there, behind⟩ := at?_of_drop_eq cells_eq
      have inside : position < source.tables.text.length := by simpa using lt_of_at? there
      rw [Tables.closingFrom, if_pos inside, kindAt_tables there, Lookup.ok_bind, closingFrom]
      by_cases code : cell.kind = .code
      · rw [if_neg (not_not_intro code), charAt_tables there, Lookup.ok_bind,
          Cell.opens?_of_code code, Cell.closes?_of_code code]
        cases Bracket.opened? cell.char with
        | some shape => exact ih _ behind
        | none =>
            cases Bracket.closed? cell.char with
            | none => exact ih _ behind
            | some shape =>
                cases pending with
                | nil => rfl
                | cons innermost outer =>
                    have rest := ih outer behind
                    by_cases same : innermost = shape
                    · cases outer <;> simp [Lookup.item, same, rest]
                    · simp [Lookup.item, same]
      · rw [if_pos code, Cell.opens?_of_not_code code, Cell.closes?_of_not_code code]
        exact ih _ behind

@[simp] theorem closing?_tables :
    source.tables.closing? position = .ok (source.closing? position) := by
  rw [Tables.closing?, isCodeAt_tables, Lookup.ok_bind, closing?, isCodeAt]
  cases there : source.at? position with
  | none => rfl
  | some cell =>
      cases code : cell.isCode with
      | false => simp [code, Cell.opens?]
      | true =>
          simp only [Option.any_some, code, if_true, charAt_tables there,
            Lookup.ok_bind, Cell.opens?, closingFrom_tables, Lookup.pure_eq_ok]
          split <;> rfl

@[simp] theorem insideBefore?_tables :
    source.tables.insideBefore? position stop = .ok (source.insideBefore? position stop) := by
  rw [Tables.insideBefore?, closing?_tables, Lookup.ok_bind, insideBefore?]
  cases source.closing? position <;> rfl

theorem standsAt_tables :
    Kind.standsAt source.tables.text label position =
      label.isPrefixOf ((source.cells.drop position).map Cell.char) := by
  rw [Kind.standsAt, Text.startsWith, List.map_drop]
  rfl

theorem hasWordAt_tables : source.tables.hasWordAt label position =
    .ok (!source.wordBefore position &&
      (afterLabel? label (source.cells.drop position)).isSome) := by
  have ends : source.at? (position + label.length) =
      ((source.cells.drop position).drop label.length).head? := by
    rw [List.drop_drop, List.head?_drop]
    rfl
  have starts : (if position = 0 then pure false else source.tables.isWordAt (position - 1)) =
      (.ok (source.wordBefore position) : Lookup Bool) := by
    cases position <;> simp [wordBefore]
  rw [Tables.hasWordAt, standsAt_tables, starts, isWordAt_tables, ends, afterLabel?_eq_ite]
  cases label.isPrefixOf ((source.cells.drop position).map Cell.char) with
  | false => simp
  | true =>
      cases source.wordBefore position with
      | true => simp
      | false =>
          cases ((source.cells.drop position).drop label.length).head?.any Cell.isWord <;> simp

theorem at?_behind_trivia (source : Source) (position : Nat) :
    source.at? (position + ((source.cells.drop position).takeWhile Cell.isTrivia).length) =
      ((source.cells.drop position).dropWhile Cell.isTrivia).head? := by
  rw [at?, ← List.getElem?_drop, getElem?_length_takeWhile]

theorem colonOf?_tables (within : stop ≤ source.length) (before : position < stop) :
    source.tables.colonOf? label position stop = .ok (source.labelColon? label position stop) := by
  rw [Tables.colonOf?, hasWordAt_tables, Lookup.ok_bind, labelColon?, labelWidth?]
  cases source.wordBefore position with
  | true => rfl
  | false =>
      cases found : afterLabel? label (source.cells.drop position) with
      | none => rfl
      | some rest =>
          obtain rfl : source.cells.drop (position + label.length) = rest := by
            rw [afterLabel?_eq_ite] at found
            split at found
            · rw [← List.drop_drop]
              exact Option.some.inj found
            · cases found
          simp only [Bool.not_false, Option.isSome_some, Bool.and_self, if_true,
            skipTrivia_tables within,
            Lookup.ok_bind, skipTrivia, ← at?_behind_trivia, Bool.false_eq_true, if_false]
          generalize ((source.cells.drop (position + label.length)).takeWhile
            Cell.isTrivia).length = count
          by_cases fits : label.length + count + 1 ≤ stop - position
          · have colon : position + label.length + min count (stop - (position + label.length)) =
                position + label.length + count := by omega
            have last : position + (label.length + count + 1) - 1 = position + label.length +
                count := by omega
            rw [colon, if_neg (by omega), hasCodeAt_tables (by omega), Lookup.ok_bind, hasCodeAt]
            cases (source.at? (position + label.length + count)).any
              (·.isCodeChar ':') <;> simp [fits, last]
          · rw [if_pos (by omega)]
            simp [fits]

theorem labelSitesFrom_tables (within : stop ≤ source.length) (depth : Nat) :
    source.tables.labelSitesFrom label stop position depth =
      .ok (source.sitesFrom label stop position depth) := by
  fun_induction Tables.labelSitesFrom source.tables label stop position depth with
  | case1 position depth before pass opening closing found =>
      obtain ⟨cell, there⟩ := exists_at? (Nat.lt_of_lt_of_le before within)
      rw [kindAt_tables there, Lookup.ok_bind, charAt_tables there, Lookup.ok_bind]
      by_cases code : cell.kind = .code
      · have opens := Cell.opens?_of_code code
        have closes := Cell.closes?_of_code code
        rw [if_neg (not_not_intro code)]
        cases shape : Bracket.opened? cell.char with
        | some bracket =>
            rw [sitesFrom_of_no_label there before (by simp [opens, shape])]
            simpa [Cell.depthAfter, opens, shape] using opening
        | none =>
            cases end_shape : Bracket.closed? cell.char with
            | some bracket =>
                rw [sitesFrom_of_no_label there before (by simp [closes, end_shape])]
                simpa [Cell.depthAfter, opens, closes, shape, end_shape] using closing
            | none =>
                have colons : source.tables.colonOf? label position stop = _ :=
                  colonOf?_tables within before
                rw [sitesFrom_of_code there before (by simp [Cell.isCode, code]) (opens.trans shape)
                  (closes.trans end_shape)]
                simp only [Option.isSome_none, Bool.false_eq_true, if_false]
                split
                · rename_i missing failed
                  cases colons.symm.trans failed
                · rename_i none_eq
                  rw [Except.ok.inj (colons.symm.trans none_eq)]
                  exact pass
                · rename_i colon colon_eq
                  rw [Except.ok.inj (colons.symm.trans colon_eq), found _ colon_eq]
                  rfl
      · rw [if_pos code, sitesFrom_of_no_label there before (by simp [Cell.isCode, code]),
          Cell.depthAfter_plain (Cell.opens?_of_not_code code) (Cell.closes?_of_not_code code)]
        exact pass
  | case2 position depth behind =>
      rw [sitesFrom]
      cases source.cells.drop position with
      | nil => rfl
      | cons cell cells =>
          rw [labelSitesFrom, if_pos (Nat.le_of_not_lt behind)]
          rfl

@[simp] theorem labelSites_tables :
    source.tables.labelSites label = .ok (source.labelSites label source.whole) := by
  rw [Tables.labelSites, length_tables, labelSitesFrom_tables (Nat.le_refl _)]
  rfl

@[simp] theorem arrayBehind?_tables :
    source.tables.arrayBehind? position source.length =
      .ok (source.arrayBehind? position source.length) := by
  rw [Tables.arrayBehind?, skipTrivia_tables (Nat.le_refl _), Lookup.ok_bind, arrayBehind?]
  by_cases early : source.skipTrivia position source.length < source.length
  · rw [if_neg (Nat.not_le_of_lt early), hasCodeAt_tables early, Lookup.ok_bind,
      insideBefore?_tables]
    cases source.hasCodeAt (source.skipTrivia position source.length) '[' <;> simp [early]
  · simp [early, Nat.le_of_not_lt early]

@[simp] theorem labeledArray?_tables (excluded : List Span) :
    source.tables.labeledArray? label excluded = .ok (source.labeledArray? label excluded) := by
  rw [Tables.labeledArray?, labelSites_tables, Lookup.ok_bind, length_tables]
  exact Lookup.findSomeM?_eq_ok fun site _ => arrayBehind?_tables

theorem cellsIn_eq_cons (there : source.at? position = some cell) (before : position < stop) :
    source.cellsIn ⟨position, stop⟩ = cell :: source.cellsIn ⟨position + 1, stop⟩ := by
  have size : stop - position = stop - (position + 1) + 1 := by omega
  rw [cellsIn, drop_of_at? there, Span.size, size, List.take_succ_cons]
  rfl

theorem elementsFrom_tables (within : stop ≤ source.length) (depth : Nat) (current : Option Span) :
    source.tables.elementsFrom stop depth position current =
      .ok (elementsFrom depth position current (source.cellsIn ⟨position, stop⟩)) := by
  generalize count : stop - position = size
  induction size generalizing position depth current with
  | zero =>
      have behind : ¬position < stop := by omega
      rw [Tables.elementsFrom, if_neg behind, cellsIn, Span.size, count, List.take_zero]
      rfl
  | succ size ih =>
      have before : position < stop := by omega
      obtain ⟨cell, there⟩ := exists_at? (Nat.lt_of_lt_of_le before within)
      have rest (depth : Nat) (current : Option Span) :
          source.tables.elementsFrom stop depth (position + 1) current = _ :=
            ih depth current (by omega)
      rw [Tables.elementsFrom, if_pos before, kindAt_tables there, Lookup.ok_bind,
        charAt_tables there, cellsIn_eq_cons there before, elementsFrom]
      obtain ⟨char, kind⟩ := cell
      cases kind with
      | comment =>
          simp [rest, Cell.separates, Cell.isSignificant, Cell.isCodeChar, Cell.isCode,
            Cell.depthAfter, Cell.opens?, Cell.closes?]
      | string =>
          simp [rest, Cell.separates, Cell.isSignificant, Cell.isCodeChar, Cell.isCode,
            Cell.depthAfter, Cell.opens?, Cell.closes?]
      | code =>
          simp only [rest, Cell.separates, Cell.isSignificant, Cell.isCodeChar, Cell.isCode,
            Cell.depthAfter,
            Cell.opens?, Cell.closes?, Lookup.ok_bind, decide_true, Bool.true_and, reduceCtorEq,
              if_false, if_true,
            decide_false, Bool.false_or, Lookup.pure_eq_ok]
          by_cases comma : char = ','
          · have noOpening : Bracket.opened? ',' = none := rfl
            have noClosing : Bracket.closed? ',' = none := rfl
            have solid : isBlank ',' = false := by decide
            subst comma
            by_cases outermost : depth = 0 <;> simp [outermost, noOpening, noClosing, solid]
          · cases isBlank char <;> cases Bracket.opened? char <;> cases Bracket.closed?
              char <;> simp [comma]

@[simp] theorem elements_tables : source.tables.elements span = .ok (source.elements span) := by
  have same : source.cellsIn ⟨span.start, min span.stop source.length⟩ = source.cellsIn span := by
    rw [cellsIn, cellsIn, Span.size, Span.size, List.take_eq_take_iff, List.length_drop]
    simp only [length]
    omega
  rw [Tables.elements, length_tables, elementsFrom_tables (Nat.min_le_right _ _), same]
  rfl

/-- No element reaches behind the last character. -/
theorem stop_le_of_mem_elements {element : Span} (member : element ∈ source.elements span) :
    element.stop ≤ source.length := by
  have shared := shared_elementsFrom (pending_none _) (source.tells_cellsIn span)
  have inside := shared.inside element member
  simp only [cellsIn, Span.size, List.length_take, List.length_drop, length] at inside ⊢
  omega

@[simp] theorem identifierAt?_tables :
    source.tables.identifierAt? position = source.identifierAt? position := by
  have characters : source.tables.text.drop position =
      (source.cells.drop position).map Cell.char := by
    rw [List.map_drop]
    rfl
  rw [Tables.identifierAt?, characters, identifierAt?]
  cases source.cells.drop position with
  | nil => rfl
  | cons cell cells =>
      rw [identifierOf?, List.map_cons]
      dsimp only
      rw [← List.map_cons, List.takeWhile_map]
      rfl

theorem stop_argumentOf (element : Span) :
    (source.argumentOf element).value.stop = element.stop := by
  rw [argumentOf]
  split
  · rfl
  · dsimp only
    split <;> rfl

theorem argumentOf_tables {element : Span} (within : element.stop ≤ source.length) :
    source.tables.argumentOf element = .ok (source.argumentOf element) := by
  rw [Tables.argumentOf, identifierAt?_tables, argumentOf]
  cases source.identifierAt? element.start with
  | none => rfl
  | some label =>
      have colons : source.tables.skipTrivia (element.start + label.length) element.stop = _ :=
        skipTrivia_tables within
      dsimp only
      by_cases long : element.stop < element.start + label.length
      · rw [if_pos long]
        simp [Nat.not_le_of_lt long]
      · rw [if_neg long, colons, Lookup.ok_bind]
        by_cases early : source.skipTrivia (element.start + label.length) element.stop <
          element.stop
        · rw [if_neg (Nat.not_le_of_lt early), hasCodeAt_tables (Nat.lt_of_lt_of_le early within),
            skipTrivia_tables within]
          cases source.hasCodeAt (source.skipTrivia (element.start + label.length) element.stop)
            ':' <;>
            simp [early, Nat.le_of_not_lt long]
        · simp [early, Nat.le_of_not_lt early]

@[simp] theorem arguments_tables : source.tables.arguments span = .ok (source.arguments span) := by
  rw [Tables.arguments, elements_tables, Lookup.ok_bind]
  exact Lookup.mapM_eq_ok fun element member => argumentOf_tables (stop_le_of_mem_elements member)

@[simp] theorem labeledValue?_tables :
    source.tables.labeledValue? span label = .ok (source.labeledValue? span label) := by
  rw [Tables.labeledValue?, arguments_tables]
  rfl

/-- No value of an argument reaches behind the last character. -/
theorem stop_le_of_mem_arguments {argument : Argument} (member : argument ∈ source.arguments span) :
    argument.value.stop ≤ source.length := by
  obtain ⟨element, inside, rfl⟩ := List.mem_map.mp member
  rw [stop_argumentOf]
  exact stop_le_of_mem_elements inside

theorem stop_le_of_labeledValue? {value : Span}
    (found : source.labeledValue? span label = some value) : value.stop ≤ source.length := by
  obtain ⟨argument, first, rfl⟩ := Option.map_eq_some_iff.mp found
  exact stop_le_of_mem_arguments (List.mem_of_find?_eq_some first)

theorem isString_tables (within : stop ≤ source.length) :
    source.tables.isString position stop =
      .ok ((source.cellsIn ⟨position, stop⟩).all (·.kind = .string)) := by
  generalize count : stop - position = size
  induction size generalizing position with
  | zero =>
      have behind : ¬position < stop := by omega
      rw [Tables.isString, if_neg behind, cellsIn, Span.size, count, List.take_zero]
      rfl
  | succ size ih =>
      have before : position < stop := by omega
      obtain ⟨cell, there⟩ := exists_at? (Nat.lt_of_lt_of_le before within)
      rw [Tables.isString, if_pos before, kindAt_tables there, Lookup.ok_bind, ih (by omega),
        cellsIn_eq_cons there before, List.all_cons]
      by_cases string : cell.kind = .string <;> simp [string]

theorem textIn_tables : source.tables.textIn span = source.textIn span := by
  rw [Tables.textIn, Text.slice, textIn, cellsIn, List.map_take, List.map_drop]
  rfl

theorem stringIn?_tables (within : span.stop ≤ source.length) :
    source.tables.stringIn? span = .ok (source.stringIn? span) := by
  rw [Tables.stringIn?, stringIn?]
  by_cases filled : span.start < span.stop
  · obtain ⟨cell, there⟩ := exists_at? (Nat.lt_of_lt_of_le filled within)
    have cells : source.cellsIn span = cell :: source.cellsIn ⟨span.start + 1, span.stop⟩ :=
      cellsIn_eq_cons there filled
    have string : source.tables.isString span.start span.stop =
        .ok ((source.cellsIn span).all (·.kind = .string)) := isString_tables within
    rw [charAt_tables there, string, textIn_tables, Literal.unescapeFrom_eq, cells]
    dsimp only
    generalize (cell :: source.cellsIn ⟨span.start + 1, span.stop⟩).all (·.kind = .string) = strings
    have nonempty := Span.isEmpty_eq_false filled
    by_cases mark : cell.char = '"'
    · cases strings <;> simp [nonempty, mark, Literal.decode]
    · simp [nonempty, mark]
  · have empty : source.cellsIn span = [] := by
      rw [cellsIn, Span.size, Nat.sub_eq_zero_of_le (Nat.le_of_not_lt filled), List.take_zero]
    rw [empty]
    simp [Span.isEmpty, Nat.le_of_not_lt filled]

@[simp] theorem labeledString?_tables :
    source.tables.labeledString? span label = .ok (source.labeledString? span label) := by
  rw [Tables.labeledString?, labeledValue?_tables, Lookup.ok_bind, labeledString?]
  cases found : source.labeledValue? span label with
  | none => rfl
  | some value => exact stringIn?_tables (stop_le_of_labeledValue? found)

@[simp] theorem argumentArray?_tables :
    source.tables.argumentArray? span label = .ok (source.argumentArray? span label) := by
  rw [Tables.argumentArray?, labeledValue?_tables, Lookup.ok_bind, argumentArray?]
  cases found : source.labeledValue? span label with
  | none => rfl
  | some value =>
      have within := stop_le_of_labeledValue? found
      rw [Option.bind_some, arrayOf?]
      dsimp only
      by_cases filled : value.start < value.stop
      · obtain ⟨cell, there⟩ := exists_at? (Nat.lt_of_lt_of_le filled within)
        have nonempty := Span.isEmpty_eq_false filled
        rw [charAt_tables there, hasCharAt_of_at? there]
        by_cases opens : cell.char = '[' <;> simp [nonempty, opens]
      · simp [Span.isEmpty, Nat.le_of_not_lt filled]

theorem stringEnd_tables : source.tables.stringEnd position =
    .ok (position + ((source.cells.drop position).takeWhile (·.kind = .string)).length) := by
  generalize stands : source.cells.drop position = cells
  induction cells generalizing position with
  | nil =>
      have outside : ¬position < source.tables.text.length := by
        simpa [length] using List.drop_eq_nil_iff.mp stands
      rw [Tables.stringEnd, if_neg outside]
      rfl
  | cons cell cells ih =>
      obtain ⟨there, behind⟩ := at?_of_drop_eq stands
      have inside : position < source.tables.text.length := by simpa using lt_of_at? there
      rw [Tables.stringEnd, if_pos inside, kindAt_tables there, Lookup.ok_bind, ih behind]
      by_cases string : cell.kind = .string
      · simp [string]
        omega
      · simp [string]

@[simp] theorem literalAt?_tables :
    source.tables.literalAt? position = .ok (source.literalAt? position) := by
  rw [Tables.literalAt?, length_tables, literalAt?]
  by_cases inside : position < source.length
  · obtain ⟨cell, there⟩ := exists_at? inside
    rw [if_neg (Nat.not_le_of_lt inside), charAt_tables there, kindAt_tables there,
      stringEnd_tables, there]
    by_cases mark : cell.char = '"' <;> by_cases string : cell.kind =
      .string <;> simp [mark, string]
  · rw [if_pos (Nat.le_of_not_lt inside), at?, List.getElem?_eq_none (Nat.le_of_not_lt inside)]
    rfl

/-- No literal reaches behind the last character. -/
theorem stop_le_of_literalAt? {literal : Span} (found : source.literalAt? position = some literal) :
    literal.stop ≤ source.length := by
  rw [literalAt?] at found
  split at found
  · rename_i cell there
    obtain ⟨-, same⟩ := Option.ite_none_right_eq_some.mp found
    obtain rfl := Option.some.inj same
    have inside := lt_of_at? there
    have run :=
      (List.takeWhile_sublist (l := source.cells.drop position) (·.kind = .string)).length_le
    rw [List.length_drop] at run
    simp only [length] at inside ⊢
    omega
  · cases found

@[simp] theorem stringElements_tables :
    source.tables.stringElements span = .ok (source.stringElements span) := by
  rw [Tables.stringElements, elements_tables, Lookup.ok_bind]
  exact Lookup.filterMapM_eq_ok fun element member =>
    stringIn?_tables (stop_le_of_mem_elements member)

theorem callIn?_tables (within : span.stop ≤ source.length) :
    source.tables.callIn? span = .ok (source.callIn? span) := by
  rw [Tables.callIn?, callIn?]
  by_cases filled : span.start < span.stop
  · rw [hasCodeAt_tables (Nat.lt_of_lt_of_le filled within), Lookup.ok_bind, identifierAt?_tables]
    cases source.hasCodeAt span.start '.' with
    | false => simp
    | true =>
        cases source.identifierAt? (span.start + 1) with
        | none => simp
        | some keyword =>
            have behind : source.tables.skipTrivia (span.start + 1 + keyword.length)
                span.stop = _ :=
              skipTrivia_tables within
            have nonempty := Span.isEmpty_eq_false filled
            simp only [nonempty, behind, Lookup.ok_bind, insideBefore?_tables]
            generalize source.skipTrivia (span.start + 1 + keyword.length) span.stop = opening
            by_cases early : opening < span.stop
            · obtain ⟨cell, there⟩ := exists_at? (Nat.lt_of_lt_of_le early within)
              rw [charAt_tables there, hasCharAt_of_at? there]
              by_cases opens : cell.char = '(' <;> simp [Nat.not_le_of_lt early, opens]
            · simp [Nat.le_of_not_lt early]
  · simp [Span.isEmpty, Nat.le_of_not_lt filled]

end Source

end SwiftWorkspace
