import SwiftWorkspace.Source.Basic

/-!
# Brackets

Round, square and curly brackets pair up among the code characters of a source.
The closing bracket of an opening one is found by keeping the brackets that are
still open; a closing bracket of another shape ends the search without an answer.
-/

namespace SwiftWorkspace

inductive Bracket where
  | round
  | square
  | curly
  deriving DecidableEq, Repr

namespace Bracket

def opened? : Char → Option Bracket
  | '(' => some .round
  | '[' => some .square
  | '{' => some .curly
  | _ => none

def closed? : Char → Option Bracket
  | ')' => some .round
  | ']' => some .square
  | '}' => some .curly
  | _ => none

end Bracket

namespace Cell

def opens? (cell : Cell) : Option Bracket :=
  if cell.isCode then Bracket.opened? cell.char else none

def closes? (cell : Cell) : Option Bracket :=
  if cell.isCode then Bracket.closed? cell.char else none

/-- The bracket depth behind a cell, from the depth before it; it never falls below zero. -/
def depthAfter (cell : Cell) (depth : Nat) : Nat :=
  if cell.opens?.isSome then depth + 1
  else if cell.closes?.isSome then depth - 1
  else depth

end Cell

namespace Source

def closingFrom : List Bracket → Nat → List Cell → Option Nat
  | _, _, [] => none
  | pending, position, cell :: cells =>
      match cell.opens?, cell.closes? with
      | some shape, _ => closingFrom (shape :: pending) (position + 1) cells
      | none, some shape =>
          match pending with
          | [] => none
          | innermost :: outer =>
              if innermost ≠ shape then none
              else if outer.isEmpty then some position
              else closingFrom outer (position + 1) cells
      | none, none => closingFrom pending (position + 1) cells

/-- The position of the bracket that closes the opening bracket at `position`. -/
def closing? (source : Source) (position : Nat) : Option Nat :=
  match source.at? position with
  | some cell =>
      if cell.opens?.isSome then closingFrom [] position (source.cells.drop position) else none
  | none => none

def insideBefore? (source : Source) (position stop : Nat) : Option Span :=
  match source.closing? position with
  | some closing => if closing < stop then some ⟨position + 1, closing⟩ else none
  | none => none

end Source

end SwiftWorkspace
