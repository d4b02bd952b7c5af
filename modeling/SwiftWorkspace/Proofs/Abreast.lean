import Mathlib.Data.List.TakeWhile
import SwiftWorkspace.Proofs.Labels
import SwiftWorkspace.Proofs.Twins

/-!
# Labels in sources of one structure

The search for a label looks at characters whatever they belong to.  It gets to the
first character of a literal or a comment at most, and that one is a quotation mark or
a slash.  So sources of one structure have the same labels and the same arrays.
-/

namespace SwiftWorkspace

/-- Whether the cell is a part of a literal, a part of a comment or blank code. -/
def Cell.Hidden (cell : Cell) : Prop := cell.kind = .string ∨ cell.isQuiet

namespace Cell.Hidden

variable {cell : Cell} (hidden : cell.Hidden)
include hidden

theorem depthAfter (depth : Nat) : cell.depthAfter depth = depth := by
  rcases hidden with string | quiet
  · obtain ⟨-, opens, closes⟩ := Cell.of_string string
    simp [Cell.depthAfter, opens, closes]
  · exact Cell.depthAfter_of_isQuiet quiet

theorem isBlank (code : cell.isCode) : isBlank cell.char := by
  rcases hidden with string | quiet
  · simp [Cell.of_string string] at code
  · rcases Cell.isQuiet_iff.mp quiet with comment | ⟨-, blank⟩
    · simp [isCode, comment] at code
    · exact blank

end Cell.Hidden

namespace Joined

variable {before cell : Cell}

/-- What begins behind code is no word, unless it is code itself. -/
theorem noWord (joined : Joined before cell) (code : before.kind = .code) (hidden : cell.Hidden) :
    cell.isWord = false := by
  rcases hidden with string | quiet
  · rw [Cell.isWord, joined.quoted string (by simp [code])]
    decide
  · rcases Cell.isQuiet_iff.mp quiet with comment | ⟨-, blank⟩
    · rw [Cell.isWord, joined.slashed comment (by simp [code])]
      decide
    · exact isWordChar_of_isBlank blank

/-- What ends in front of code is no word, unless it is code itself. -/
theorem noWord_before (joined : Joined before cell) (code : cell.kind = .code)
    (filled : isBlank cell.char = false) (hidden : before.Hidden) : before.isWord = false := by
  have ends (inside : before.kind ≠ .code) : before.isWord = false := by
    rcases joined.closed inside code with feed | quote | slash
    · rw [feed] at filled
      exact absurd filled (by decide)
    · rw [Cell.isWord, quote]
      decide
    · rw [Cell.isWord, slash]
      decide
  rcases hidden with string | quiet
  · exact ends (by simp [string])
  · rcases Cell.isQuiet_iff.mp quiet with comment | ⟨-, blank⟩
    · exact ends (by simp [comment])
    · exact isWordChar_of_isBlank blank

end Joined

/-- Runs of cells of one structure, each behind a cell that it can follow. -/
structure Abreast (before before' : Cell) (cells cells' : List Cell) : Prop where
  twins : Twins cells cells'
  joined : List.IsChain Joined (before :: cells)
  joined' : List.IsChain Joined (before' :: cells')

namespace Abreast

variable {before before' cell cell' : Cell} {cells cells' : List Cell}

theorem head (abreast : Abreast before before' (cell :: cells) (cell' :: cells')) :
    Twin cell cell' ∧ Joined before cell ∧ Joined before' cell' :=
  ⟨(List.forall₂_cons.mp abreast.twins).1, abreast.joined.rel, abreast.joined'.rel⟩

theorem tail (abreast : Abreast before before' (cell :: cells) (cell' :: cells')) :
    Abreast cell cell' cells cells' :=
  ⟨(List.forall₂_cons.mp abreast.twins).2, abreast.joined.of_cons, abreast.joined'.of_cons⟩

theorem drop {position : Nat} (abreast : Abreast before before' cells cells')
    (found : cells[position]? = some cell) (found' : cells'[position]? = some cell') :
    Abreast cell cell' (cells.drop (position + 1)) (cells'.drop (position + 1)) := by
  induction position generalizing before before' cells cells' with
  | zero =>
      cases cells with
      | nil => cases found
      | cons first cells =>
          cases cells' with
          | nil => cases found'
          | cons first' cells' =>
              obtain rfl := Option.some.inj found
              obtain rfl := Option.some.inj found'
              exact abreast.tail
  | succ position ih =>
      cases cells with
      | nil => cases found
      | cons first cells =>
          cases cells' with
          | nil => cases found'
          | cons first' cells' => exact ih abreast.tail found found'

/--
Behind anything but a literal there are as many trivia in both, and cells of one structure
behind them.
-/
theorem trivia (abreast : Abreast before before' cells cells') (outside : before.kind ≠ .string)
    (outside' : before'.kind ≠ .string) :
    (cells.takeWhile Cell.isTrivia).length = (cells'.takeWhile Cell.isTrivia).length ∧
      Twins (cells.dropWhile Cell.isTrivia) (cells'.dropWhile Cell.isTrivia) := by
  obtain ⟨twins, joined, joined'⟩ := abreast
  induction twins generalizing before before' with
  | nil => exact ⟨rfl, .nil⟩
  | @cons cell cell' cells cells' twin twins ih =>
      have stops (trivial : cell.isTrivia = false) (trivial' : cell'.isTrivia = false) :
          ((cell :: cells).takeWhile Cell.isTrivia).length =
            ((cell' :: cells').takeWhile Cell.isTrivia).length ∧
            Twins ((cell :: cells).dropWhile Cell.isTrivia)
              ((cell' :: cells').dropWhile Cell.isTrivia) := by
        simp only [List.takeWhile_cons, List.dropWhile_cons, trivial, trivial']
        exact ⟨rfl, .cons twin twins⟩
      cases twin with
      | solid code filled =>
          have solid : cell.isTrivia = false := by simp [Cell.isTrivia, code, filled]
          exact stops solid solid
      | string left_string right_string =>
          have quote {first : Cell} (string : first.kind = .string) (opens : first.char = '"') :
              first.isTrivia = false := by
            rw [Cell.isTrivia, string, opens]
            decide
          exact stops (quote left_string (joined.rel.quoted left_string outside))
            (quote right_string (joined'.rel.quoted right_string outside'))
      | quiet left_quiet right_quiet =>
          have left_trivia := Cell.isTrivia_of_isQuiet left_quiet
          have right_trivia := Cell.isTrivia_of_isQuiet right_quiet
          have noString {first : Cell} (quiet : first.isQuiet) : first.kind ≠ .string := by
            rcases Cell.isQuiet_iff.mp quiet with comment | ⟨code, -⟩
            · simp [comment]
            · simp [code]
          obtain ⟨same, rest⟩ :=
            ih (noString left_quiet) (noString right_quiet) joined.of_cons joined'.of_cons
          simp only [List.takeWhile_cons, List.dropWhile_cons, left_trivia, right_trivia, if_true,
            List.length_cons, same]
          exact ⟨trivial, rest⟩

/-- Either both cells are the same code character other than a blank, or neither is one. -/
theorem same_or_hidden (abreast : Abreast before before' (cell :: cells) (cell' :: cells')) :
    (cell = cell' ∧ cell.kind = .code ∧ isBlank cell.char = false) ∨
      (cell.Hidden ∧ cell'.Hidden) := by
  cases abreast.head.1 with
  | solid code filled => exact .inl ⟨rfl, code, filled⟩
  | string left_string right_string => exact .inr ⟨.inl left_string, .inl right_string⟩
  | quiet left_quiet right_quiet => exact .inr ⟨.inr left_quiet, .inr right_quiet⟩

/--
Behind code both begin with a word or neither does, and behind the word there is code in front
of what follows.
-/
theorem startsWith (abreast : Abreast before before' cells cells') (code : before.kind = .code)
    (code' : before'.kind = .code) {word : Text} (inside : ∀ char ∈ word, isWordChar char) :
    word.isPrefixOf (cells.map Cell.char) = word.isPrefixOf (cells'.map Cell.char) ∧
      (word.isPrefixOf (cells.map Cell.char) → ∃ last last' : Cell, last.kind = .code ∧
        last'.kind = .code ∧
        Abreast last last' (cells.drop word.length) (cells'.drop word.length)) := by
  induction word generalizing before before' cells cells' with
  | nil => exact ⟨by simp, fun _ => ⟨before, before', code, code', abreast⟩⟩
  | cons char word ih =>
      cases abreast.twins with
      | nil => exact ⟨rfl, nofun⟩
      | @cons cell cell' cells cells' _ _ =>
          obtain ⟨-, joined, joined'⟩ := abreast.head
          simp only [List.map_cons, List.isPrefixOf_cons_cons, Bool.and_eq_true, List.length_cons,
            List.drop_succ_cons]
          rcases abreast.same_or_hidden with ⟨rfl, here, -⟩ | ⟨hidden, hidden'⟩
          · obtain ⟨same, behind⟩ := ih abreast.tail here here fun other member =>
              inside other (.tail _ member)
            exact ⟨by rw [same], fun starts => behind starts.2⟩
          · have differs {first last : Cell} (joined : Joined last first) (code : last.kind = .code)
                (hidden : first.Hidden) : (char == first.char) = false := by
              refine beq_eq_false_iff_ne.mpr ?_
              rintro rfl
              have none := joined.noWord code hidden
              rw [Cell.isWord, inside _ (.head _)] at none
              cases none
            rw [differs joined code hidden, differs joined' code' hidden']
            exact ⟨rfl, nofun⟩

/-- Behind code a word goes on in both or in neither. -/
theorem isWord_head (abreast : Abreast before before' cells cells') (code : before.kind = .code)
    (code' : before'.kind = .code) :
    cells.head?.any Cell.isWord = cells'.head?.any Cell.isWord := by
  cases abreast.twins with
  | nil => rfl
  | @cons cell cell' cells cells' _ _ =>
      obtain ⟨-, joined, joined'⟩ := abreast.head
      rcases abreast.same_or_hidden with ⟨rfl, -, -⟩ | ⟨hidden, hidden'⟩
      · rfl
      · simp [joined.noWord code hidden, joined'.noWord code' hidden']

end Abreast

theorem getElem?_length_takeWhile {α : Type} (p : α → Bool) (items : List α) :
    items[(items.takeWhile p).length]? = (items.dropWhile p).head? := by
  induction items with
  | nil => rfl
  | cons first items ih =>
      rw [List.takeWhile_cons, List.dropWhile_cons]
      cases p first <;> simp [ih]

/-- What a label is followed by is what follows its characters, unless a word goes on there. -/
theorem Source.afterLabel?_eq_ite (label : Text) (cells : List Cell) :
    afterLabel? label cells =
      if label.isPrefixOf (cells.map Cell.char) &&
        !(cells.drop label.length).head?.any Cell.isWord then
        some (cells.drop label.length)
      else none := by
  fun_induction afterLabel? label cells with
  | case1 => rfl
  | case2 cell cells word => simp [word]
  | case3 cell cells word => simp [word]
  | case4 => simp
  | case5 label cell cells ih => simp [ih]
  | case6 char label cell cells differs =>
      have other : (char == cell.char) = false := beq_eq_false_iff_ne.mpr (Ne.symm differs)
      rw [List.map_cons, List.isPrefixOf_cons_cons, other, Bool.false_and, Bool.false_and]
      rfl

namespace Abreast

variable {before before' cell cell' : Cell} {cells cells' : List Cell}

/-- A character behind trivia is code in both or in neither. -/
theorem isCodeChar_behind (twins : Twins cells cells') {char : Char}
    (filled : isBlank char = false) :
    cells.head?.any (·.isCodeChar char) = cells'.head?.any (·.isCodeChar char) := by
  cases twins with
  | nil => rfl
  | cons twin _ => exact twin.isCodeChar_eq filled

theorem isEmpty_eq (abreast : Abreast before before' cells cells') :
    cells.isEmpty = cells'.isEmpty := by
  cases abreast.twins with
  | nil => rfl
  | cons => rfl

/-- Behind anything but a literal either both have nothing but trivia or neither. -/
theorem all_isTrivia_eq (abreast : Abreast before before' cells cells')
    (outside : before.kind ≠ .string)
    (outside' : before'.kind ≠ .string) : cells.all Cell.isTrivia = cells'.all Cell.isTrivia := by
  have all (cells : List Cell) : cells.all Cell.isTrivia =
      (cells.dropWhile Cell.isTrivia).isEmpty := by
    rw [Bool.eq_iff_iff, List.all_eq_true, List.isEmpty_iff, List.dropWhile_eq_nil_iff]
  have behind := (abreast.trivia outside outside').2
  rw [all, all]
  generalize cells.dropWhile Cell.isTrivia = rest at behind
  generalize cells'.dropWhile Cell.isTrivia = rest' at behind
  cases behind with
  | nil => rfl
  | cons => rfl

/-- A label that begins with the same code character is of one width in both. -/
theorem labelWidth?_eq (abreast : Abreast cell cell cells cells')
    (code : cell.kind = .code) {label : Text} (isLabel : IsLabel label) (room : Nat) :
    Source.labelWidth? label room (cell :: cells) =
      Source.labelWidth? label room (cell :: cells') := by
  obtain ⟨char, label, rfl⟩ := List.exists_cons_of_ne_nil isLabel.filled
  obtain ⟨same, behind⟩ := abreast.startsWith code code fun other member =>
    isLabel.word other (.tail _ member)
  rw [Source.labelWidth?, Source.labelWidth?, Source.afterLabel?, Source.afterLabel?]
  by_cases first : cell.char = char
  · rw [if_pos first, if_pos first, Source.afterLabel?_eq_ite, Source.afterLabel?_eq_ite, ← same]
    cases starts : label.isPrefixOf (cells.map Cell.char) with
    | false => rfl
    | true =>
        obtain ⟨last, last', code, code', rest⟩ := behind starts
        obtain ⟨count, tail⟩ := rest.trivia (by simp [code]) (by simp [code'])
        have colon : isBlank ':' = false := by decide
        rw [rest.isWord_head code code']
        cases (cells'.drop label.length).head?.any Cell.isWord with
        | true => rfl
        | false =>
            simp only [Bool.not_false, Bool.and_true, if_true, count, isCodeChar_behind tail colon]
  · rw [if_neg first, if_neg first]

/-- A search for a label goes on behind a cell that no label begins with. -/
theorem labelSitesFrom_hidden {label : Text} (isLabel : IsLabel label) (hidden : cell.Hidden)
    (stop position depth : Nat) (inWord : Bool) (cells : List Cell) :
    Source.labelSitesFrom label stop 0 position depth inWord (cell :: cells) =
      if stop ≤ position then []
      else Source.labelSitesFrom label stop 0 (position + 1) depth cell.isWord cells := by
  rw [Source.labelSitesFrom, hidden.depthAfter]
  split
  · rfl
  split
  · rfl
  rename_i plain
  have blank : isBlank cell.char := by
    refine hidden.isBlank ?_
    simp only [Bool.or_eq_true, not_or, Bool.not_eq_true', Bool.not_eq_false] at plain
    exact plain.1.1.1
  obtain ⟨char, label, rfl⟩ := List.exists_cons_of_ne_nil isLabel.filled
  have differs : cell.char ≠ char := by
    rintro rfl
    simp [isLabel.solid _ (.head _)] at blank
  rw [Source.labelWidth?, Source.afterLabel?, if_neg differs]

theorem labelSitesFrom_eq {label : Text} (isLabel : IsLabel label)
    (abreast : Abreast before before' cells cells')
    (twin : Twin before before') (stop skip position depth : Nat) :
    Source.labelSitesFrom label stop skip position depth before.isWord cells =
      Source.labelSitesFrom label stop skip position depth before'.isWord cells' := by
  obtain ⟨twins, joined, joined'⟩ := id abreast
  induction twins generalizing before before' skip position depth with
  | nil => cases skip <;> rfl
  | @cons cell cell' cells cells' _ _ ih =>
      have next (skip position depth : Nat) :=
        ih abreast.tail abreast.head.1 skip position depth joined.of_cons joined'.of_cons
      cases skip with
      | succ skip => exact next skip _ _
      | zero =>
          rcases abreast.same_or_hidden with ⟨rfl, code, filled⟩ | ⟨hidden, hidden'⟩
          · have words : before.isWord = before'.isWord := by
              cases twin with
              | solid => rfl
              | string left_string right_string =>
                  rw [joined.rel.noWord_before code filled (.inl left_string),
                    joined'.rel.noWord_before code filled (.inl right_string)]
              | quiet left_quiet right_quiet =>
                  rw [joined.rel.noWord_before code filled (.inr left_quiet),
                    joined'.rel.noWord_before code filled (.inr right_quiet)]
            rw [Source.labelSitesFrom, Source.labelSitesFrom, words,
              abreast.tail.labelWidth?_eq code isLabel]
            simp only [next]
          · rw [labelSitesFrom_hidden isLabel hidden, labelSitesFrom_hidden isLabel hidden', next]

end Abreast

end SwiftWorkspace
