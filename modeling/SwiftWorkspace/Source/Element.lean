import SwiftWorkspace.Source.Bracket
import SwiftWorkspace.Source.Literal

/-!
# Elements

The elements of an array or an argument list are separated by the commas that
no bracket encloses.  An element reaches from its first to its last significant
character: comments and blank code at its ends do not belong to it, and an
element without significant characters does not count.
-/

namespace SwiftWorkspace

namespace Cell

def separates (cell : Cell) (depth : Nat) : Bool := cell.isCodeChar ',' && depth = 0

def isSignificant (cell : Cell) : Bool :=
  cell.kind = .string || (cell.isCode && !isBlank cell.char)

end Cell

namespace Span

def extend? (current : Option Span) (position : Nat) : Span :=
  match current with
  | some span => ⟨span.start, position + 1⟩
  | none => ⟨position, position + 1⟩

end Span

namespace Source

/--
The elements among cells that begin at `position` inside `depth` brackets, with
`current` the element found so far.
-/
def elementsFrom : (depth position : Nat) → (current : Option Span) → List Cell → List Span
  | _, _, current, [] => current.toList
  | depth, position, current, cell :: cells =>
      if cell.separates depth then
        current.toList ++ elementsFrom depth (position + 1) none cells
      else if cell.isSignificant then
        elementsFrom (cell.depthAfter depth) (position + 1)
          (some (Span.extend? current position)) cells
      else elementsFrom (cell.depthAfter depth) (position + 1) current cells

def elements (source : Source) (span : Span) : List Span :=
  elementsFrom 0 span.start none (source.cellsIn span)

def elementTexts (text : Text) : List Text :=
  let source := ofText text
  (source.elements source.whole).map source.textIn

def stringElements (source : Source) (span : Span) : List Text :=
  (source.elements span).filterMap source.stringIn?

end Source

end SwiftWorkspace
