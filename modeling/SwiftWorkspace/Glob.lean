import SwiftWorkspace.Text.Basic

/-!
# Glob patterns

A pattern matches a whole text.  A star stands for any characters, slashes
included, a question mark for one character, and a class in square brackets for
one of its characters or, behind an exclamation mark, for any other.
-/

namespace SwiftWorkspace

namespace Glob

/-- An inclusive range of characters in a class. -/
structure CharRange where
  first : Char
  last : Char
  deriving DecidableEq, Repr

inductive Item where
  | literal (char : Char)
  | anyChar
  | anyText
  /-- One character that does or, if negated, does not lie in one of the ranges. -/
  | oneOf (negated : Bool) (ranges : List CharRange)
  deriving DecidableEq, Repr

def rangesOf : Text → List CharRange
  | first :: '-' :: last :: rest => ⟨first, last⟩ :: rangesOf rest
  | first :: rest => ⟨first, first⟩ :: rangesOf rest
  | [] => []

def dropEmptyRanges : Text → Text
  | first :: '-' :: last :: rest =>
      if last < first then dropEmptyRanges rest else first :: '-' :: last :: rest
  | text => text

/--
The class that the text inside brackets stands for.  An exclamation mark negates
it also behind ranges that hold no character.
-/
def classOf : Text → Item
  | '!' :: text => .oneOf true (rangesOf text)
  | text =>
      match dropEmptyRanges text with
      | '!' :: '-' :: last :: rest => .oneOf true (⟨'-', '-'⟩ :: ⟨last, last⟩ :: rangesOf rest)
      | '!' :: rest => .oneOf true (rangesOf rest)
      | text => .oneOf false (rangesOf text)

/--
The number of characters of a class behind its opening bracket, the closing one
included.  A closing bracket that comes first, or right behind the exclamation
mark, belongs to the class.
-/
def classWidth? (text : Text) : Option Nat :=
  let lead :=
    match text with
    | '!' :: ']' :: _ => 2
    | '!' :: _ => 1
    | ']' :: _ => 1
    | _ => 0
  ((text.drop lead).findIdx? (· = ']')).map (lead + · + 1)

def itemsFrom : (skip : Nat) → Text → List Item
  | _, [] => []
  | skip + 1, _ :: pattern => itemsFrom skip pattern
  | 0, '*' :: pattern => .anyText :: itemsFrom 0 pattern
  | 0, '?' :: pattern => .anyChar :: itemsFrom 0 pattern
  | 0, '[' :: pattern =>
      match classWidth? pattern with
      | some width => classOf (pattern.take (width - 1)) :: itemsFrom width pattern
      | none => .literal '[' :: itemsFrom 0 pattern
  | 0, char :: pattern => .literal char :: itemsFrom 0 pattern

def items (pattern : Text) : List Item := itemsFrom 0 pattern

def Item.holds : Item → Char → Bool
  | .literal expected, char => char = expected
  | .anyChar, _ => true
  | .anyText, _ => true
  | .oneOf negated ranges, char =>
      ranges.any (fun range => range.first ≤ char && char ≤ range.last) != negated

def anyFrom : List Bool → List Bool
  | [] => []
  | value :: values =>
      let behind := anyFrom values
      (value || behind.headD false) :: behind

def matchedEndings (text : Text) : List Item → List Bool
  | [] => text.map (fun _ => false) ++ [true]
  | .anyText :: items => anyFrom (matchedEndings text items)
  | item :: items =>
      List.zipWith (fun char rest => item.holds char && rest) text
        (matchedEndings text items).tail ++ [false]

def isMatch (pattern text : Text) : Bool := (matchedEndings text (items pattern)).headD false

end Glob

end SwiftWorkspace
