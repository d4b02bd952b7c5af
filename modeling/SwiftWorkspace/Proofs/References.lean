import SwiftWorkspace.Proofs.Declarations
import SwiftWorkspace.Proofs.Exchange

/-!
# Cells of new references

A reference is a literal at the end of an array of dependencies, or the only
element of a new argument that holds such an array.  What is inside of an array
is extended by an element when the old ones and their comments stay.
-/

namespace SwiftWorkspace

open Kind (Clear Firm Scans Bland chars cellsOf)

namespace Row

variable {front back : List (List Cell × List Cell)} {padding piece rest : List Cell}

/-- Another entry can be put behind an element of a row. -/
theorem Valid.insert (valid : Row.Valid ⟨front ++ (padding, piece) :: back, rest⟩)
    {gap other : List Cell} (solid : Solid other) (gap_padding : ∀ cell ∈ gap, cell.isPadding)
    (comma : ∃ cell ∈ gap, cell.isComma) :
    Row.Valid ⟨front ++ (padding, piece) :: (gap, other) :: back, rest⟩ := by
  have old {entry : List Cell × List Cell}
      (member : entry ∈ front ++ (padding, piece) :: (gap, other) :: back) :
      entry = (gap, other) ∨ entry ∈ front ++ (padding, piece) :: back := by
    simp only [List.mem_append, List.mem_cons] at member ⊢
    grind
  constructor
  · intro entry member
    rcases old member with rfl | inside
    · exact solid
    · exact valid.solid entry inside
  · intro entry member
    rcases old member with rfl | inside
    · exact gap_padding
    · exact valid.padding entry inside
  · intro entry member
    cases front with
    | nil =>
        rcases List.mem_cons.mp member with rfl | inside
        · exact comma
        · exact valid.parted entry inside
    | cons first front =>
        have parted := valid.parted
        simp only [List.cons_append, List.tail_cons, List.mem_append,
          List.mem_cons] at parted member
        rcases member with before | rfl | rfl | behind
        · exact parted entry (.inl before)
        · exact parted _ (.inr (.inl rfl))
        · exact comma
        · exact parted entry (.inr (.inr behind))
  · exact valid.rest

/-- What follows an element of a row begins with padding. -/
theorem Valid.head_isPadding (valid : Row.Valid ⟨front ++ (padding, piece) :: back, rest⟩) :
    ∀ cell ∈ (flat back ++ rest).head?, cell.isPadding := by
  intro cell found
  cases back with
  | nil => exact valid.rest cell (List.mem_of_mem_head? (by simpa using found))
  | cons entry back =>
      have parted : ∃ cell ∈ entry.1, cell.isComma := by
        refine valid.parted entry ?_
        cases front <;> simp
      obtain ⟨comma, inside, -⟩ := parted
      refine valid.padding entry (by simp) cell ?_
      obtain ⟨first, rest⟩ := entry
      cases first with
      | nil => simp at inside
      | cons head tail =>
          obtain rfl : head = cell := by simpa using found
          simp

theorem Valid.cut (valid : Row.Valid ⟨front ++ (padding, piece) :: back, rest⟩)
    (clear : Clear (Row.cells ⟨front ++ (padding, piece) :: back, rest⟩)) :
    Scans .code (flat front ++ (padding ++ piece)) (chars (flat back ++ rest)) .code ∧
      Clear (flat back ++ rest) := by
  have whole : Row.cells ⟨front ++ (padding, piece) :: back, rest⟩ =
      (flat front ++ (padding ++ piece)) ++ (flat back ++ rest) := by
    simp [cells]
  rw [whole] at clear
  obtain ⟨last, found, significant⟩ := (valid.solid (padding, piece) (by simp)).last
  have ends : last ∈ (flat front ++ (padding ++ piece)).getLast? := by
    simp [Option.mem_def.mp found]
  have begins := valid.head_isPadding
  cases behind : flat back ++ rest with
  | nil =>
      rw [behind, List.append_nil] at clear
      exact ⟨clear, .nil⟩
  | cons right more =>
      rw [behind] at clear
      have noString := (Cell.kind_of_isPadding (begins right (by simp [behind]))).1
      have parted : Kind.Parted last right := by
        cases kind : last.kind with
        | code => exact .inl kind
        | string => exact .inr (.inl ⟨kind, noString⟩)
        | comment => simp [Cell.isSignificant, Cell.isCode, kind] at significant
      simpa [Clear] using Scans.cut clear ends (by simp) parted

/-- Firm cells that begin with a comma can be put behind an element. -/
theorem Valid.clear_insert (valid : Row.Valid ⟨front ++ (padding, piece) :: back, rest⟩)
    (clear : Clear (Row.cells ⟨front ++ (padding, piece) :: back, rest⟩)) {new : List Cell}
    (firm : Firm (commaCell :: new)) :
    Clear (flat front ++ (padding ++ piece) ++ (commaCell :: new ++ (flat back ++ rest))) := by
  obtain ⟨before, behind⟩ := valid.cut clear
  refine Scans.insert (by simpa using before) behind (by simp [commaCell]) (firm _ ?_)
  have noMark := behind.head_ne_mark fun cell found =>
    (Cell.kind_of_isPadding (valid.head_isPadding cell found)).1
  simpa using noMark

end Row

def dependenciesCells (dependency : Text) : List Cell :=
  cellsOf .code "dependencies: [".toList ++ (literalCells dependency ++ cellsOf .code [']'])

theorem chars_dependenciesCells (dependency : Text) :
    chars (dependenciesCells dependency) =
      "dependencies: [".toList ++ Literal.encode dependency ++ [']'] := by
  simp [dependenciesCells]

theorem sturdy_dependencies {dependency : Text} (noFeed : '\n' ∉ dependency) :
    Sturdy (dependenciesCells dependency) := by
  have literal := sturdy_literal noFeed
  have word : Solid (cellsOf .code "dependencies:".toList) :=
    .of_plain (by decide) ⟨_, rfl, by decide⟩ ⟨⟨':', .code⟩, by decide, by decide⟩
  have blank : Unbroken (cellsOf .code [' ']) := .of_padding (by decide) (by decide)
  have brackets : Solid (⟨'[', .code⟩ :: (literalCells dependency ++ [⟨']', .code⟩])) :=
    .enclose ⟨.square, rfl, rfl⟩ literal.solid.unbroken.balanced
  have plain : ∀ char ∈ "dependencies: [".toList, Bland [char] := by
    simp only [Kind.bland_cons]
    exact Text.forall_mem_of_all (by decide)
  constructor
  · simpa [dependenciesCells, cellsOf] using word.join blank brackets
  · exact (literal.firm.append_plain (by simp)).plain_append plain
  · intro cell member
    simp only [dependenciesCells, List.mem_append, Kind.mem_cellsOf] at member
    rcases member with ⟨code, -⟩ | inside | ⟨code, -⟩
    · simp [code]
    · exact literal.silent cell inside
    · simp [code]

/-- The argument is labeled with the field, and its value is an array of the literal. -/
theorem isLabeled_dependencies (dependency : Text) :
    IsLabeled (dependenciesCells dependency) Field.dependencies.label
      (cellsOf .code "dependencies: ".toList)
      (⟨'[', .code⟩ :: (literalCells dependency ++ cellsOf .code [']'])) := by
  refine ⟨rfl, ?_, cellsOf .code "dependencies".toList, [], ⟨':', .code⟩, cellsOf .code [' '], rfl,
    ⟨⟨_, rfl, by decide⟩, by decide, by decide⟩, rfl, by simp, rfl, by decide⟩
  intro cell found
  obtain rfl : ⟨'[', .code⟩ = cell := by simpa using found
  decide

theorem isArray_dependencies {dependency : Text} (noFeed : '\n' ∉ dependency) :
    IsArray (⟨'[', .code⟩ :: (literalCells dependency ++ cellsOf .code [']']))
      (literalCells dependency) (cellsOf .code [']']) :=
  ⟨(sturdy_literal noFeed).solid.unbroken.balanced, ⟨'[', .code⟩, ⟨']', .code⟩, [], rfl, rfl, rfl,
    .square, rfl, rfl⟩

theorem mentions_dependencies {field : Field} (differs : field ≠ .dependencies)
    (dependency : Text) : mentions field.label (dependenciesCells dependency) = false := by
  have first (rest : List Cell) : mentions field.label
      (cellsOf .code "dependencies: [".toList ++ rest) = mentions field.label rest := by
    cases field <;> first | contradiction | rfl
  have last : mentions field.label (cellsOf .code [']']) = false := by cases field <;> rfl
  rw [dependenciesCells, first, mentions_literal, last]

/-- Whether an element can go into an array with these cells without disturbing a comment. -/
structure Receptive (inner : List Cell) : Prop where
  feeds : ∀ cell ∈ inner, cell.kind = .comment → cell.char ≠ '\n'
  filled : Source.piecesOf inner = [] → ∀ cell ∈ inner, cell.kind ≠ .comment

def Quiet (inner : List Cell) : Prop := ∀ cell ∈ inner, cell.kind ≠ .comment

theorem Quiet.receptive {inner : List Cell} (quiet : Quiet inner) : Receptive inner :=
  ⟨fun cell member comment => absurd comment (quiet cell member), fun _ => quiet⟩

namespace Row

theorem pieces_eq_nil {row : Row} : row.pieces = [] ↔ row.entries = [] := by
  simp [pieces]

theorem tame_iff {row : Row} (valid : row.Valid) : row.Tame ↔ Receptive row.cells := by
  have same : Source.piecesOf row.cells = [] ↔ row.entries = [] := by
    rw [Source.piecesOf_row valid, pieces_eq_nil]
  constructor
  · intro tame
    exact ⟨tame.feeds, fun bare => tame.filled (same.mp bare)⟩
  · intro receptive
    exact ⟨receptive.feeds, fun bare => receptive.filled (same.mpr bare)⟩

end Row

/-- What is inside of an array with one more element behind the old ones. -/
structure Extends (old new piece : List Cell) : Prop where
  balanced : Balanced new
  clear : Clear new
  receptive : Receptive new
  pieces : Source.piecesOf new = Source.piecesOf old ++ [piece]
  comments : ∀ cell ∈ new, cell.kind = .comment → cell ∈ old

theorem Extends.quiet {old new piece : List Cell} (more : Extends old new piece)
    (quiet : Quiet old) : Quiet new :=
  fun cell member comment => quiet cell (more.comments cell member comment) comment

theorem Row.Appended.extends {row other : Row} {piece : List Cell}
    (appended : row.Appended piece other)
    (valid : row.Valid) (clear : Clear row.cells) (tame : row.Tame) :
    Extends row.cells other.cells piece ∧
      ∀ field : Field, mentions field.label piece = false → Milder field row.cells other.cells := by
  refine ⟨⟨appended.valid.balanced, appended.clear, ?_, ?_, appended.comments⟩, ?_⟩
  · exact (Row.tame_iff appended.valid).mp (appended.tame tame)
  · rw [Source.piecesOf_row appended.valid, Source.piecesOf_row valid, appended.pieces]
  · exact fun field quiet => appended.milder valid clear quiet

theorem Frame.exists_extends (frame : Frame) {inner : List Cell} (balanced : Balanced inner)
    (clear : Clear inner) (receptive : Receptive inner) {piece : List Cell} (sturdy : Sturdy piece)
    (layout : ArrayLayout) :
    ∃ new, Extends inner new piece ∧
      (∀ field : Field, mentions field.label piece = false → Milder field inner new) ∧
      (frame.fill inner).appendElement (frame.span inner) (chars piece) layout =
        (frame.fill new).text := by
  obtain ⟨row, valid, rfl⟩ := Row.exists_of_balanced balanced
  have tame := (Row.tame_iff valid).mpr receptive
  obtain ⟨other, appended, text⟩ := frame.appendElement_fill valid clear tame sturdy layout
  obtain ⟨more, milder⟩ := appended.extends valid clear tame
  exact ⟨other.cells, more, milder, text⟩

end SwiftWorkspace
