import Mathlib.Data.List.Forall2
import SwiftWorkspace.Manifest.Layout
import SwiftWorkspace.Proofs.Seams
import SwiftWorkspace.Source.Access

/-!
# Sources of one structure

Brackets, elements and labels depend on code other than blanks.  Two sources that agree
in it, and have literals at the same places, have the same structure, whatever the
literals and the comments hold.
-/

namespace SwiftWorkspace

namespace Cell

def isQuiet (cell : Cell) : Bool := cell.kind = .comment || (cell.isCode && isBlank cell.char)

end Cell

/-- Two cells that the structure of a source does not tell apart. -/
inductive Twin : Cell → Cell → Prop
  /-- The same code character, which is no blank. -/
  | solid {cell : Cell} (code : cell.kind = .code) (filled : isBlank cell.char = false) :
      Twin cell cell
  /-- Characters of literals. -/
  | string {left right : Cell} (left_string : left.kind = .string)
      (right_string : right.kind = .string) :
      Twin left right
  /-- Comments and blanks. -/
  | quiet {left right : Cell} (left_quiet : left.isQuiet) (right_quiet : right.isQuiet) :
      Twin left right

namespace Cell

variable {cell : Cell} {char : Char} {depth : Nat}

theorem isQuiet_iff :
    cell.isQuiet ↔ cell.kind = .comment ∨ (cell.kind = .code ∧ isBlank cell.char) := by
  simp [isQuiet, isCode]

theorem isTrivia_of_isQuiet (quiet : cell.isQuiet) : cell.isTrivia := by
  rcases isQuiet_iff.mp quiet with comment | ⟨code, blank⟩
  · simp [isTrivia, comment]
  · simp [isTrivia, blank]

theorem isCodeChar_of_isQuiet (quiet : cell.isQuiet) (filled : isBlank char = false) :
    cell.isCodeChar char = false := by
  rcases isQuiet_iff.mp quiet with comment | ⟨code, blank⟩
  · simp [isCodeChar, isCode, comment]
  · have differs : cell.char ≠ char := fun same => by simp [same, filled] at blank
    simp [isCodeChar, differs]

theorem isSignificant_of_isQuiet (quiet : cell.isQuiet) : cell.isSignificant = false := by
  rcases isQuiet_iff.mp quiet with comment | ⟨code, blank⟩
  · simp [isSignificant, isCode, comment]
  · simp [isSignificant, blank, code]

theorem depthAfter_of_isQuiet (quiet : cell.isQuiet) : cell.depthAfter depth = depth := by
  obtain ⟨opens, closes⟩ := noBrackets_of_isTrivia (isTrivia_of_isQuiet quiet)
  simp [depthAfter, opens, closes]

/-- A part of a literal is neither code nor a bracket. -/
theorem of_string (string : cell.kind = .string) :
    cell.isCode = false ∧ cell.opens? = none ∧ cell.closes? = none := by
  simp [isCode, opens?, closes?, string]

end Cell

namespace Twin

variable {left right : Cell}

theorem opens?_eq (twin : Twin left right) : left.opens? = right.opens? := by
  cases twin with
  | solid => rfl
  | string left_string right_string =>
      rw [(Cell.of_string left_string).2.1, (Cell.of_string right_string).2.1]
  | quiet left_quiet right_quiet =>
      rw [(Cell.noBrackets_of_isTrivia (Cell.isTrivia_of_isQuiet left_quiet)).1,
        (Cell.noBrackets_of_isTrivia (Cell.isTrivia_of_isQuiet right_quiet)).1]

theorem closes?_eq (twin : Twin left right) : left.closes? = right.closes? := by
  cases twin with
  | solid => rfl
  | string left_string right_string =>
      rw [(Cell.of_string left_string).2.2, (Cell.of_string right_string).2.2]
  | quiet left_quiet right_quiet =>
      rw [(Cell.noBrackets_of_isTrivia (Cell.isTrivia_of_isQuiet left_quiet)).2,
        (Cell.noBrackets_of_isTrivia (Cell.isTrivia_of_isQuiet right_quiet)).2]

theorem depthAfter_eq (twin : Twin left right) (depth : Nat) :
    left.depthAfter depth = right.depthAfter depth := by
  rw [Cell.depthAfter, Cell.depthAfter, twin.opens?_eq, twin.closes?_eq]

theorem isCodeChar_eq (twin : Twin left right) {char : Char} (filled : isBlank char = false) :
    left.isCodeChar char = right.isCodeChar char := by
  cases twin with
  | solid => rfl
  | string left_string right_string =>
      rw [Cell.isCodeChar, Cell.isCodeChar, (Cell.of_string left_string).1,
        (Cell.of_string right_string).1, Bool.false_and, Bool.false_and]
  | quiet left_quiet right_quiet =>
      rw [Cell.isCodeChar_of_isQuiet left_quiet filled,
        Cell.isCodeChar_of_isQuiet right_quiet filled]

theorem separates_eq (twin : Twin left right) (depth : Nat) :
    left.separates depth = right.separates depth := by
  have comma : isBlank ',' = false := by decide
  rw [Cell.separates, Cell.separates, twin.isCodeChar_eq comma]

theorem isSignificant_eq (twin : Twin left right) : left.isSignificant = right.isSignificant := by
  cases twin with
  | solid => rfl
  | string left_string right_string => simp [Cell.isSignificant, left_string, right_string]
  | quiet left_quiet right_quiet =>
      rw [Cell.isSignificant_of_isQuiet left_quiet, Cell.isSignificant_of_isQuiet right_quiet]

end Twin

abbrev Twins : List Cell → List Cell → Prop := List.Forall₂ Twin

namespace Twins

variable {cells cells' : List Cell}

theorem getElem? (twins : Twins cells cells') (position : Nat) :
    Option.Rel Twin cells[position]? cells'[position]? := by
  induction twins generalizing position with
  | nil => exact .none
  | cons twin _ ih =>
      cases position with
      | zero => exact .some twin
      | succ position => exact ih position

theorem closingFrom_eq (twins : Twins cells cells') (pending : List Bracket) (position : Nat) :
    Source.closingFrom pending position cells = Source.closingFrom pending position cells' := by
  induction twins generalizing pending position with
  | nil => rfl
  | cons twin _ ih =>
      rw [Source.closingFrom, Source.closingFrom, twin.opens?_eq, twin.closes?_eq]
      simp only [ih]

theorem elementsFrom_eq (twins : Twins cells cells') (depth position : Nat)
    (current : Option Span) :
    Source.elementsFrom depth position current cells =
      Source.elementsFrom depth position current cells' := by
  induction twins generalizing depth position current with
  | nil => rfl
  | cons twin _ ih =>
      rw [Source.elementsFrom, Source.elementsFrom, twin.separates_eq, twin.isSignificant_eq,
        twin.depthAfter_eq]
      simp only [ih]

end Twins

end SwiftWorkspace
