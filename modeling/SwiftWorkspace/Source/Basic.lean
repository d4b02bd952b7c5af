import SwiftWorkspace.Source.Kind
import SwiftWorkspace.Text.Blank
import SwiftWorkspace.Text.Word

/-!
# Sources

A source is a text whose characters carry their kinds.  A span is a half-open
range of positions in a source; every structural question is answered by spans,
so that an edit can leave all other characters alone.
-/

namespace SwiftWorkspace

/-- A character of a source together with its kind. -/
structure Cell where
  char : Char
  kind : Kind
  deriving DecidableEq, Repr

namespace Cell

def isCode (cell : Cell) : Bool := cell.kind = .code

def isCodeChar (cell : Cell) (char : Char) : Bool := cell.isCode && cell.char = char

def isTrivia (cell : Cell) : Bool := cell.kind = .comment || isBlank cell.char

end Cell

/-- The positions from `start` up to, but not including, `stop`. -/
structure Span where
  start : Nat
  stop : Nat
  deriving DecidableEq, Repr

namespace Span

def holds (span : Span) (position : Nat) : Bool :=
  span.start ≤ position && position < span.stop

def isEmpty (span : Span) : Bool := span.stop ≤ span.start

def size (span : Span) : Nat := span.stop - span.start

end Span

/-- A text whose characters carry their kinds. -/
structure Source where
  cells : List Cell
  deriving DecidableEq, Repr

namespace Source

def ofText (text : Text) : Source := ⟨List.zipWith Cell.mk text (Kind.classify text)⟩

def text (source : Source) : Text := source.cells.map Cell.char

def kinds (source : Source) : List Kind := source.cells.map Cell.kind

/-- The number of characters. -/
def length (source : Source) : Nat := source.cells.length

def whole (source : Source) : Span := ⟨0, source.length⟩

def at? (source : Source) (position : Nat) : Option Cell := source.cells[position]?

def cellsIn (source : Source) (span : Span) : List Cell :=
  (source.cells.drop span.start).take span.size

def textIn (source : Source) (span : Span) : Text := (source.cellsIn span).map Cell.char

def isCodeAt (source : Source) (position : Nat) : Bool :=
  (source.at? position).any Cell.isCode

def hasCharAt (source : Source) (position : Nat) (char : Char) : Bool :=
  (source.at? position).any (·.char = char)

def hasCodeAt (source : Source) (position : Nat) (char : Char) : Bool :=
  (source.at? position).any (·.isCodeChar char)

def skipTrivia (source : Source) (start stop : Nat) : Nat :=
  start + min ((source.cells.drop start).takeWhile Cell.isTrivia).length (stop - start)

def isIdentifierChar (char : Char) : Bool :=
  isAsciiLetter char || isAsciiDigit char || char = '_'

def isIdentifierStart (char : Char) : Bool := isAsciiLetter char || char = '_'

def identifierOf? (cells : List Cell) : Option Text :=
  match cells with
  | [] => none
  | first :: _ =>
      if isIdentifierStart first.char then
        some ((cells.takeWhile fun cell => isIdentifierChar cell.char).map Cell.char)
      else none

def identifierAt? (source : Source) (position : Nat) : Option Text :=
  identifierOf? (source.cells.drop position)

@[simp] theorem text_ofText (text : Text) : (ofText text).text = text := by
  have same := Kind.length_classify text
  simp only [Source.text, ofText]
  generalize Kind.classify text = kinds at same
  induction text generalizing kinds with
  | nil => rfl
  | cons char text ih =>
      cases kinds with
      | nil => simp at same
      | cons kind kinds =>
          simp only [List.length_cons, Nat.add_right_cancel_iff] at same
          simp [ih kinds same]

@[simp] theorem length_ofText (text : Text) : (ofText text).length = text.length := by
  simp [length, ofText, Kind.length_classify]

end Source

end SwiftWorkspace
