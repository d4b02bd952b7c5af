import SwiftWorkspace.Proofs.Calls
import SwiftWorkspace.Proofs.Structure

/-!
# Calls that are written from their parts

A call is written as a dot, its keyword, and its arguments in round brackets, with a comma and a
blank between them and a colon and a blank behind a label.  When each value is read on its own, the
call is read as it was written: the keyword and every label and value come back, whatever brackets,
commas, colons, literals and comments the values hold.
-/

namespace SwiftWorkspace

open Kind (Bland cellsOf isClosed)

structure WrittenArgument where
  label : Option Text
  value : Text
  deriving DecidableEq, Repr

namespace Source

def isIdentifier (text : Text) : Bool :=
  text.head?.any isIdentifierStart && text.all isIdentifierChar

def BeginsWithLabel (cells : List Cell) : Prop :=
  ∃ label head value, IsLabeled cells label head value

/-- The label and the text of an argument that has been read. -/
def written (source : Source) (argument : Argument) : WrittenArgument :=
  ⟨argument.label, source.textIn argument.value⟩

theorem beginsWithLabel_iff {cells : List Cell} :
    BeginsWithLabel cells ↔ (argumentParts cells).1.isSome := by
  constructor
  · rintro ⟨label, head, value, labeled⟩
    rw [argumentParts_of_isLabeled labeled]
    rfl
  · intro found
    obtain ⟨label, found⟩ := Option.isSome_iff_exists.mp found
    exact ⟨label, exists_isLabeled found⟩

instance (cells : List Cell) : Decidable (BeginsWithLabel cells) :=
  decidable_of_iff' _ beginsWithLabel_iff

variable {word : Text}

theorem isIdentifierChar_of_mem (identifier : isIdentifier word) :
    ∀ char ∈ word, isIdentifierChar char := by
  rw [isIdentifier, Bool.and_eq_true] at identifier
  exact List.all_eq_true.mp identifier.2

theorem ne_nil_of_isIdentifier (identifier : isIdentifier word) : word ≠ [] := by
  rintro rfl
  cases identifier

theorem isIdentifier_cells (identifier : isIdentifier word) {rest : List Cell}
    (boundary : ∀ cell ∈ rest.head?, isIdentifierChar cell.char = false) :
    IsIdentifier (cellsOf .code word) rest := by
  refine ⟨?_, fun cell member => ?_, boundary⟩
  · rw [isIdentifier, Bool.and_eq_true] at identifier
    obtain ⟨first, found, starts⟩ := (Option.any_eq_true ..).mp identifier.1
    exact ⟨⟨first, .code⟩, by simp [cellsOf, found], starts⟩
  · exact isIdentifierChar_of_mem identifier cell.char (Kind.mem_cellsOf.mp member).2

end Source

namespace WrittenArgument

/-- The argument with its label in front of its value. -/
def text (argument : WrittenArgument) : Text :=
  match argument.label with
  | some label => label ++ [':', ' '] ++ argument.value
  | none => argument.value

def valueCells (argument : WrittenArgument) : List Cell := (Source.ofText argument.value).cells

def cells (argument : WrittenArgument) : List Cell :=
  match argument.label with
  | some label => (NamedValue.mk label argument.value).cells
  | none => argument.valueCells

/--
Whether the label is an identifier, and the value a closed text whose brackets pair up, without a
comma outside of them, that has no trivia at its ends, and does not look as if it had a label when
it has none.
-/
structure Fits (argument : WrittenArgument) : Prop where
  label : ∀ label ∈ argument.label, Source.isIdentifier label
  closed : isClosed argument.value
  unbroken : Unbroken argument.valueCells
  first : ∃ cell ∈ argument.valueCells.head?, cell.isTrivia = false
  last : ∃ cell ∈ argument.valueCells.getLast?, cell.isTrivia = false
  plain : argument.label = none → ¬ Source.BeginsWithLabel argument.valueCells

namespace Fits

variable {argument : WrittenArgument}

theorem solid (fits : argument.Fits) : Solid argument.valueCells := by
  have significant {cell : Cell} (solid : cell.isTrivia = false) : cell.isSignificant := by
    obtain ⟨char, kind⟩ := cell
    cases kind <;> simp_all [Cell.isTrivia, Cell.isSignificant, Cell.isCode]
  obtain ⟨first, starts, leading⟩ := fits.first
  obtain ⟨last, ends, trailing⟩ := fits.last
  exact ⟨fits.unbroken, ⟨first, starts, significant leading⟩, ⟨last, ends, significant trailing⟩⟩

theorem named (fits : argument.Fits) {label : Text} (labeled : argument.label = some label) :
    (NamedValue.mk label argument.value).Fits where
  filled := Source.ne_nil_of_isIdentifier (fits.label label labeled)
  word char member := isWordChar_of_isIdentifierChar
    (Source.isIdentifierChar_of_mem (fits.label label labeled) char member)
  closed := fits.closed
  solid := fits.solid

theorem solid_cells (fits : argument.Fits) : Solid argument.cells := by
  rw [cells]
  split
  case h_1 label labeled => exact (fits.named labeled).solid_cells
  case h_2 => exact fits.solid

theorem cells_append (fits : argument.Fits) {rest : Text} (bland : Bland rest) :
    (Source.ofText (argument.text ++ rest)).cells =
      argument.cells ++ (Source.ofText rest).cells := by
  rw [cells, text]
  split
  case h_1 label labeled =>
      have parts := (fits.named labeled).cells_append bland
      rw [NamedValue.text] at parts
      simpa [labeled] using parts
  case h_2 none => simpa [none, valueCells] using Source.cells_closed_append fits.closed bland

theorem argumentParts_cells (fits : argument.Fits) :
    Source.argumentParts argument.cells = (argument.label, argument.valueCells) := by
  rw [cells]
  split
  case h_1 label labeled =>
      have colon : Source.isIdentifierChar ':' = false := by decide
      have shape : IsLabeled (NamedValue.mk label argument.value).cells label
          (cellsOf .code (label ++ [':', ' ']))
          argument.valueCells := by
        refine ⟨rfl, fun cell found => ?_, cellsOf .code label, [], ⟨':', .code⟩,
          [⟨' ', .code⟩], by simp [cellsOf],
          Source.isIdentifier_cells (fits.label label labeled) (by simpa using colon),
            Kind.chars_cellsOf ..,
          by simp, rfl, by decide⟩
        obtain ⟨first, starts, leading⟩ := fits.first
        obtain rfl : first = cell := Option.mem_unique starts found
        exact leading
      rw [Source.argumentParts_of_isLabeled shape, labeled]
  case h_2 none => rw [Source.argumentParts_of_not_isLabeled (fits.plain none), none]

end Fits

instance (argument : WrittenArgument) : Decidable argument.Fits :=
  decidable_of_iff ((∀ label ∈ argument.label, Source.isIdentifier label) ∧
    isClosed argument.value ∧
      Solid argument.valueCells ∧ (∃ cell ∈ argument.valueCells.head?, cell.isTrivia = false) ∧
      (∃ cell ∈ argument.valueCells.getLast?, cell.isTrivia = false) ∧
      (argument.label = none → ¬ Source.BeginsWithLabel argument.valueCells))
    ⟨fun ⟨label, closed, solid, first, last, plain⟩ => ⟨label, closed, solid.unbroken,
      first, last, plain⟩,
      fun fits => ⟨fits.label, fits.closed, fits.solid, fits.first, fits.last, fits.plain⟩⟩

end WrittenArgument

namespace Source

theorem local_written : Local fun source span => source.written (source.argumentOf span) :=
  Local.onArgument fun label => local_textIn.map (WrittenArgument.mk label)

theorem read_written {argument : WrittenArgument} (fits : argument.Fits) :
    read (fun source span => source.written (source.argumentOf span)) argument.cells =
      argument := by
  have parts := read_onArgument (fun label => local_textIn.map (WrittenArgument.mk label))
    fits.solid_cells.unbroken.balanced
  rw [fits.argumentParts_cells] at parts
  refine parts.trans ?_
  change WrittenArgument.mk argument.label (read textIn argument.valueCells) = argument
  rw [read_textIn, WrittenArgument.valueCells, chars_cells_ofText]

end Source

def writtenCall (keyword : Text) (arguments : List WrittenArgument) : Text :=
  '.' :: keyword ++ ['('] ++ Text.join [',', ' '] (arguments.map WrittenArgument.text) ++ [')']

def writtenRow (arguments : List WrittenArgument) : Row :=
  joinedRow (arguments.map WrittenArgument.cells)

section Call

variable {keyword : Text} {arguments : List WrittenArgument}

theorem valid_writtenRow (fits : ∀ argument ∈ arguments, argument.Fits) :
    (writtenRow arguments).Valid := by
  refine valid_joinedRow fun piece member => ?_
  obtain ⟨argument, inside, rfl⟩ := List.mem_map.mp member
  exact (fits argument inside).solid_cells

theorem cells_writtenCall (identifier : Source.isIdentifier keyword)
    (fits : ∀ argument ∈ arguments, argument.Fits) :
    (Source.ofText (writtenCall keyword arguments)).cells =
      cellsOf .code ('.' :: keyword ++ ['(']) ++
        ((writtenRow arguments).cells ++ [⟨')', .code⟩]) := by
  have plain : ∀ char ∈ '.' :: keyword ++ ['('], Bland [char] := by
    intro char member
    rcases List.mem_append.mp member with front | bracket
    · rcases List.mem_cons.mp front with rfl | inside
      · simp
      · exact NamedValue.Fits.bland_name
          (isWordChar_of_isIdentifierChar (Source.isIdentifierChar_of_mem identifier char inside))
    · obtain rfl := List.mem_singleton.mp bracket
      simp
  have inside := Source.cells_joined
    (fun argument member _ bland => (fits argument member).cells_append bland) []
  rw [writtenCall, List.append_assoc, Source.cells_plain_append plain, inside]
  rfl

theorem isCall_writtenCall (identifier : Source.isIdentifier keyword)
    (fits : ∀ argument ∈ arguments, argument.Fits) :
    IsCall (Source.ofText (writtenCall keyword arguments)).cells keyword
      (cellsOf .code ('.' :: keyword ++ ['(']))
      (writtenRow arguments).cells [⟨')', .code⟩] := by
  have bracket : Source.isIdentifierChar '(' = false := by decide
  refine ⟨cells_writtenCall identifier fits, (valid_writtenRow fits).balanced, ⟨'.', .code⟩,
    cellsOf .code keyword, [], ⟨'(', .code⟩, ⟨')', .code⟩, [], by simp [cellsOf], rfl, rfl,
    Source.isIdentifier_cells identifier (by simpa using bracket),
      Kind.chars_cellsOf .., by simp, rfl,
    ⟨.round, rfl, rfl⟩⟩

/--
A call reads back: the keyword, every label and the text of every value are as they were written,
and the value that is found for a label is that of the first argument with it.
-/
theorem exists_call_of_written (identifier : Source.isIdentifier keyword)
    (fits : ∀ argument ∈ arguments, argument.Fits) :
    let source := Source.ofText (writtenCall keyword arguments)
    ∃ call, source.callIn? source.whole = some call ∧ call.keyword = keyword ∧
      (source.arguments call.arguments).map source.written = arguments ∧
      ∀ label, (source.labeledValue? call.arguments label).map source.textIn =
        (arguments.find? (·.label = some label)).map WrittenArgument.value := by
  intro source
  have shape := isCall_writtenCall identifier fits
  have stands : source.Shows 0 source.cells := ⟨[], by simp⟩
  have inside := shape.stands stands
  have found := Source.callIn?_of_isCall shape stands
  simp only [Nat.zero_add] at inside found
  have back : (source.arguments ⟨(cellsOf .code ('.' :: keyword ++ ['('])).length,
      (cellsOf .code ('.' :: keyword ++ ['('])).length + (writtenRow arguments).cells.length⟩).map
        source.written =
        arguments := by
    rw [Source.arguments, List.map_map]
    refine (Source.local_written.map_elements (valid_writtenRow fits) inside).trans ?_
    rw [writtenRow, pieces_joinedRow, List.map_map]
    exact (List.map_congr_left fun argument member =>
      Source.read_written (fits argument member)).trans
      (List.map_id arguments)
  refine ⟨_, found, rfl, back, fun label => ?_⟩
  have first :=
    congrArg (fun written => (written.find? (·.label = some label)).map WrittenArgument.value) back
  rw [List.find?_map, Option.map_map] at first
  rw [Source.labeledValue?, Source.labeledArgument?, Option.map_map]
  exact first

end Call

/--
Arguments whose values hold calls, brackets, commas, colons, literals and comments, two of them
with one label.
-/
def busyArguments : List WrittenArgument := [
  ⟨some "url".toList, "\"https://h:8/a,b)\"".toList⟩,
  ⟨none, ".upTo(next: \"2,0\" /* last: ) */, [.a(x: 1, y), \":\"])".toList⟩,
  ⟨some "url".toList, "x // (\n + \"\"\"\n\", [\n\"\"\"".toList⟩]

theorem exists_call_of_busyArguments :
    Source.isIdentifier "package".toList ∧ (∀ argument ∈ busyArguments, argument.Fits) ∧
      let source := Source.ofText (writtenCall "package".toList busyArguments)
      ∃ call, source.callIn? source.whole = some call ∧ call.keyword = "package".toList ∧
        (source.arguments call.arguments).map source.written = busyArguments ∧
        ∀ label, (source.labeledValue? call.arguments label).map source.textIn =
          (busyArguments.find? (·.label = some label)).map WrittenArgument.value := by
  have identifier : Source.isIdentifier "package".toList := by decide
  have fits : ∀ argument ∈ busyArguments, argument.Fits := by decide +kernel
  exact ⟨identifier, fits, exists_call_of_written identifier fits⟩

end SwiftWorkspace
