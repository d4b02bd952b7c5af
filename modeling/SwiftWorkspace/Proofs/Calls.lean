import SwiftWorkspace.Proofs.Boundaries
import SwiftWorkspace.Proofs.Depths
import SwiftWorkspace.Proofs.Joined

/-!
# Calls with named arguments

A call is put together from the text in front of it, arguments that are a name, a colon and a value,
and the text behind it.  When every value is closed, the call is read in these parts: a frame around
the row of the arguments.
-/

namespace SwiftWorkspace

open Kind (Bland cellsOf isClosed)

namespace Source

variable {front rest : Text}

/-- Code that takes part in no marks is read on its own. -/
theorem cells_plain_append (bland : ∀ char ∈ front, Bland [char]) (rest : Text) :
    (ofText (front ++ rest)).cells = cellsOf .code front ++ (ofText rest).cells := by
  have read := (Kind.Scans.plain bland rest).cellsFrom
  rwa [Kind.chars_cellsOf] at read

theorem cells_closed_append (closed : isClosed front) (bland : Bland rest) :
    (ofText (front ++ rest)).cells = (ofText front).cells ++ (ofText rest).cells :=
  cells_append (Kind.classify_append_of_isClosed closed bland)

section Joined

variable {α : Type} {text : α → Text} {cells : α → List Cell} {items : List α}
  (reads : ∀ item ∈ items, ∀ {rest : Text}, Bland rest →
    (ofText (text item ++ rest)).cells = cells item ++ (ofText rest).cells)
include reads

theorem cells_behind_item (back : Text) :
    (ofText ((items.map text).flatMap ([',', ' '] ++ ·) ++ ')' :: back)).cells =
      Row.flat ((items.map cells).map (cellsOf .code [',', ' '], ·)) ++
        ⟨')', .code⟩ :: (ofText back).cells := by
  induction items with
  | nil =>
      have bracket : ∀ char ∈ [')'], Bland [char] := by simp
      simpa [cellsOf] using cells_plain_append bracket back
  | cons item items ih =>
      have rest := ih fun other member => reads other (.tail _ member)
      have comma : ∀ char ∈ [',', ' '], Bland [char] := by simp
      have bland : Bland ((items.map text).flatMap ([',', ' '] ++ ·) ++ ')' :: back) := by
        cases items <;> simp
      rw [List.map_cons, List.flatMap_cons, List.append_assoc, List.append_assoc,
        cells_plain_append comma, reads item (.head _) bland, rest]
      simp

/-- Items of which each is read on its own are read as a row in front of a closing bracket. -/
theorem cells_joined (back : Text) :
    (ofText (Text.join [',', ' '] (items.map text) ++ ')' :: back)).cells =
      (joinedRow (items.map cells)).cells ++ ⟨')', .code⟩ :: (ofText back).cells := by
  cases items with
  | nil => simpa [Text.join, joinedRow, Row.cells] using cells_behind_item reads back
  | cons item items =>
      have rest := cells_behind_item (fun other member => reads other (.tail _ member)) back
      have bland : Bland ((items.map text).flatMap ([',', ' '] ++ ·) ++ ')' :: back) := by
        cases items <;> simp
      rw [List.map_cons, Text.join_cons, List.append_assoc, reads item (.head _) bland, rest]
      simp [joinedRow, Row.cells]

end Joined

end Source

/-- The brackets among some cells pair up when the ones put around them do. -/
theorem balanced_iff {cells : List Cell} : Balanced cells ↔
    (⟨⟨'(', .code⟩ :: (cells ++ [⟨')', .code⟩])⟩ : Source).closing? 0 =
      some (1 + cells.length) := by
  rw [Source.closing?_eq_some_iff]
  constructor
  · intro balanced
    exact ⟨[], ⟨'(', .code⟩, cells, ⟨')', .code⟩, [], rfl, rfl, ⟨.round, rfl, rfl⟩,
      balanced, by simp⟩
  · rintro ⟨before, opening, inner, closing, behind, whole, place, -, balanced, found⟩
    obtain rfl := List.length_eq_zero_iff.mp place
    have same : cells ++ [⟨')', .code⟩] = inner ++ closing :: behind := (List.cons.inj whole).2
    obtain ⟨rfl, -⟩ := List.append_inj same (by omega)
    exact balanced

instance (cells : List Cell) : Decidable (Balanced cells) := decidable_of_iff _ balanced_iff.symm

theorem solid_iff {cells : List Cell} :
    Solid cells ↔ Balanced cells ∧ Source.piecesOf cells = [cells] := by
  constructor
  · intro solid
    have valid : (joinedRow [cells]).Valid := valid_joinedRow (by simpa using solid)
    have whole : (joinedRow [cells]).cells = cells := by simp [joinedRow, Row.cells]
    have alone := Source.piecesOf_row valid
    rw [whole, pieces_joinedRow] at alone
    exact ⟨solid.unbroken.balanced, alone⟩
  · rintro ⟨balanced, alone⟩
    exact Source.solid_of_mem_piecesOf balanced (by simp [alone])

instance (cells : List Cell) : Decidable (Solid cells) := decidable_of_iff _ solid_iff.symm

/-- An argument of a call: its name and the text of its value. -/
structure NamedValue where
  name : Text
  value : Text
  deriving DecidableEq, Repr

namespace NamedValue

def text (argument : NamedValue) : Text := argument.name ++ [':', ' '] ++ argument.value

def source (argument : NamedValue) : Source := Source.ofText argument.value

def cells (argument : NamedValue) : List Cell :=
  cellsOf .code (argument.name ++ [':', ' ']) ++ argument.source.cells

/--
Whether the name is a word, and the value a closed text whose brackets pair up, without a comma
outside of them, from its first to its last significant character.
-/
structure Fits (argument : NamedValue) : Prop where
  filled : argument.name ≠ []
  word : ∀ char ∈ argument.name, isWordChar char
  closed : isClosed argument.value
  solid : Solid argument.source.cells

instance (argument : NamedValue) : Decidable argument.Fits :=
  decidable_of_iff (argument.name ≠ [] ∧ argument.name.all isWordChar ∧ isClosed argument.value ∧
      Solid argument.source.cells)
    ⟨fun ⟨filled, word, closed, solid⟩ => ⟨filled, List.all_eq_true.mp word, closed, solid⟩,
      fun ⟨filled, word, closed, solid⟩ => ⟨filled, List.all_eq_true.mpr word, closed, solid⟩⟩

namespace Fits

variable {argument : NamedValue}

theorem isLabel (fits : argument.Fits) : IsLabel argument.name := by
  refine ⟨fits.filled, fits.word, fun char member => ?_⟩
  cases blank : isBlank char with
  | false => rfl
  | true => exact absurd (isWordChar_of_isBlank blank) (by simp [fits.word char member])

theorem bland_name {char : Char} (word : isWordChar char) : Bland [char] := by
  simp only [Kind.bland_cons]
  refine ⟨?_, ?_, ?_⟩ <;> rintro rfl <;> revert word <;> decide

theorem solid_cells (fits : argument.Fits) : Solid argument.cells := by
  have plain : ∀ cell ∈ cellsOf .code (argument.name ++ [':', ' ']), cell.opens? = none ∧
      cell.closes? = none ∧
      cell.isComma = false := by
    rw [Kind.cellsOf_append]
    intro cell member
    rcases List.mem_append.mp member with inside | inside
    · have word : cell.isWord := Source.isWord_of_mem_cellsOf fits.word inside
      obtain ⟨noOpening, noClosing⟩ := Cell.noBrackets_of_isWord word
      refine ⟨noOpening, noClosing, ?_⟩
      cases comma : cell.isComma with
      | false => rfl
      | true => simp [(stops_of_isComma comma).noWord] at word
    · have each : ∀ cell ∈ cellsOf .code [':', ' '], cell.opens? = none ∧ cell.closes? = none ∧
          cell.isComma = false := by decide
      exact each cell inside
  obtain ⟨first, name, same⟩ := List.exists_cons_of_ne_nil fits.filled
  have solid : isBlank first = false := fits.isLabel.solid first (by simp [same])
  obtain ⟨last, found, significant⟩ := fits.solid.last
  refine ⟨(Unbroken.of_plain plain).append fits.solid.unbroken, ⟨⟨first, .code⟩, ?_, ?_⟩,
    ⟨last, ?_, significant⟩⟩
  · simp [cells, same, cellsOf]
  · simp [Cell.isSignificant, Cell.isCode, solid]
  · simp [cells, List.getLast?_append, Option.mem_def.mp found]

theorem cells_append (fits : argument.Fits) {rest : Text} (bland : Bland rest) :
    (Source.ofText (argument.text ++ rest)).cells =
      argument.cells ++ (Source.ofText rest).cells := by
  have plain : ∀ char ∈ argument.name ++ [':', ' '], Bland [char] := by
    intro char member
    rcases List.mem_append.mp member with inside | inside
    · exact bland_name (fits.word char inside)
    · have each : ∀ char ∈ [':', ' '], Bland [char] := by simp
      exact each char inside
  rw [text, List.append_assoc, Source.cells_plain_append plain,
    Source.cells_closed_append fits.closed bland, cells, source, List.append_assoc]

end Fits

end NamedValue

def callText (front back : Text) (arguments : List NamedValue) : Text :=
  front ++ "Package(".toList ++ Text.join [',', ' '] (arguments.map NamedValue.text) ++
    [')'] ++ back

def callFrame (front back : Text) : Frame where
  front := (Source.ofText front).cells ++ cellsOf .code "Package".toList
  opening := ⟨'(', .code⟩
  closing := ⟨')', .code⟩
  back := (Source.ofText back).cells
  pairs := ⟨.round, rfl, rfl⟩

def argumentCells (arguments : List NamedValue) : List Cell :=
  (joinedRow (arguments.map NamedValue.cells)).cells

def tailCells (arguments : List NamedValue) : List Cell :=
  Row.flat ((arguments.map NamedValue.cells).map (cellsOf .code [',', ' '], ·))

def callSource (front back : Text) (arguments : List NamedValue) : Source :=
  (callFrame front back).fill (argumentCells arguments)

@[simp] theorem argumentCells_nil : argumentCells [] = [] := rfl

@[simp] theorem argumentCells_cons (argument : NamedValue) (behind : List NamedValue) :
    argumentCells (argument :: behind) = argument.cells ++ tailCells behind := by
  simp [argumentCells, tailCells, joinedRow, Row.cells]

@[simp] theorem tailCells_nil : tailCells [] = [] := rfl

@[simp] theorem tailCells_cons (argument : NamedValue) (behind : List NamedValue) :
    tailCells (argument :: behind) =
      cellsOf .code [',', ' '] ++ (argument.cells ++ tailCells behind) := by
  simp [tailCells]

@[simp] theorem tailCells_append (first last : List NamedValue) :
    tailCells (first ++ last) = tailCells first ++ tailCells last := by
  simp [tailCells]

section Call

variable {front : Text} {arguments : List NamedValue} (fits : ∀ argument ∈ arguments, argument.Fits)
include fits

/-- A call is its brackets around the row of its arguments. -/
theorem ofText_callText (closed : isClosed front) (back : Text) :
    Source.ofText (callText front back arguments) = callSource front back arguments := by
  have plain : ∀ char ∈ "Package(".toList, Bland [char] := by
    simp only [Kind.bland_cons]
    exact Text.forall_mem_of_all (by decide)
  have inside :
      (Source.ofText (Text.join [',', ' '] (arguments.map NamedValue.text) ++ ')' :: back)).cells =
      argumentCells arguments ++ ⟨')', .code⟩ :: (Source.ofText back).cells :=
    Source.cells_joined (fun argument member _ bland =>
      (fits argument member).cells_append bland) back
  have whole : callText front back arguments = front ++ ("Package(".toList ++
      (Text.join [',', ' '] (arguments.map NamedValue.text) ++ ')' :: back)) := by
    simp [callText]
  have bland : Bland ("Package(".toList ++
      (Text.join [',', ' '] (arguments.map NamedValue.text) ++ ')' :: back)) := by
    simp
  have cells := Source.cells_closed_append closed bland
  rw [← whole, Source.cells_plain_append plain, inside] at cells
  refine congrArg Source.mk (cells.trans ?_)
  simp [callFrame, cellsOf]

theorem balanced_argumentCells : Balanced (argumentCells arguments) := by
  refine (valid_joinedRow fun piece member => ?_).balanced
  obtain ⟨argument, inside, rfl⟩ := List.mem_map.mp member
  exact (fits argument inside).solid_cells

end Call

namespace Source

variable {label : Text} (isLabel : IsLabel label) (depth : Nat)
include isLabel

theorem marksFrom_append_tail {cells : List Cell} (balanced : Balanced cells)
    (behind : List NamedValue) : marksFrom label 0 depth false (cells ++ tailCells behind) =
      (marksFrom label 0 depth false cells).map (Mark.extend (tailCells behind)) ++
        marksFrom label 0 depth false (argumentCells behind) := by
  cases behind with
  | nil =>
      have same : Mark.extend [] = id := funext fun mark => by simp [Mark.extend]
      simp [same, marksFrom]
  | cons argument behind =>
      have comma : Stops ⟨',', .code⟩ := stops_of_isComma (by decide)
      have blank : ∀ cell ∈ [(⟨' ', .code⟩ : Cell)], cell.isPadding := by decide
      have noWord : Cell.isWord ⟨' ', .code⟩ = false := by decide
      have whole : tailCells (argument :: behind) =
          ⟨',', .code⟩ :: ([⟨' ', .code⟩] ++ argumentCells (argument :: behind)) := by
        simp [cellsOf]
      rw [whole, marksFrom_append isLabel comma (Nat.zero_le _) (by simp), balanced.depthOver,
        Cell.depthAfter_plain (by decide) (by decide), marksFrom_padding isLabel blank]
      simp [noWord]

theorem mem_marksFrom_arguments {arguments : List NamedValue}
    (fits : ∀ argument ∈ arguments, argument.Fits)
    {mark : Mark} : mark ∈ marksFrom label 0 depth false (argumentCells arguments) ↔
      ∃ before argument behind, arguments = before ++ argument :: behind ∧
        ((argument.name = label ∧
            mark = ⟨depth, ⟨' ', .code⟩ :: (argument.source.cells ++ tailCells behind)⟩) ∨
          ∃ own ∈ marksFrom label 0 depth false argument.source.cells, mark =
            own.extend (tailCells behind)) := by
  induction arguments with
  | nil => simp [marksFrom]
  | cons argument arguments ih =>
      have here := (fits argument (.head _))
      have there := ih fun other member => fits other (.tail _ member)
      have marks : marksFrom label 0 depth false argument.cells =
          (if argument.name = label then [⟨depth, ⟨' ', .code⟩ :: argument.source.cells⟩]
            else []) ++
            marksFrom label 0 depth false argument.source.cells :=
        marksFrom_labeled isLabel here.isLabel depth argument.source.cells
      rw [argumentCells_cons, marksFrom_append_tail isLabel depth
        here.solid_cells.unbroken.balanced, marks,
        List.mem_append, there, List.map_append, List.mem_append]
      constructor
      · rintro ((own | inside) | ⟨before, other, behind, rfl, found⟩)
        · refine ⟨[], argument, arguments, rfl, .inl ?_⟩
          split at own
          · rename_i same
            exact ⟨same, by simpa [Mark.extend] using own⟩
          · simp at own
        · obtain ⟨own, member, rfl⟩ := List.mem_map.mp inside
          exact ⟨[], argument, arguments, rfl, .inr ⟨own, member, rfl⟩⟩
        · exact ⟨argument :: before, other, behind, rfl, found⟩
      · rintro ⟨before, other, behind, split, found⟩
        cases before with
        | nil =>
            obtain ⟨rfl, rfl⟩ := List.cons.inj split
            rcases found with ⟨same, rfl⟩ | ⟨own, member, rfl⟩
            · exact .inl (.inl (by simp [same, Mark.extend]))
            · exact .inl (.inr (List.mem_map_of_mem member))
        | cons first before =>
            obtain ⟨rfl, rfl⟩ := List.cons.inj split
            exact .inr ⟨before, other, behind, rfl, found⟩

end Source

end SwiftWorkspace
