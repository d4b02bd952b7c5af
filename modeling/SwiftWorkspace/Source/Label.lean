import SwiftWorkspace.Source.Bracket

/-!
# Labels

A label is a whole identifier in code that a colon follows, with nothing but
blanks and comments between them.  The array of a label is the pair of square
brackets right behind its colon; of several labels of one name the least deeply
nested one with such an array counts.
-/

namespace SwiftWorkspace

/-- Where a label's value starts, and how many brackets are open around it. -/
structure LabelSite where
  position : Nat
  depth : Nat
  deriving DecidableEq, Repr

namespace LabelSite

/-- Less deeply nested sites come first, and among those earlier ones. -/
def le (left right : LabelSite) : Bool :=
  left.depth < right.depth || (left.depth = right.depth && left.position ≤ right.position)

end LabelSite

namespace Cell

/-- Whether the cell's character can stand next to a label without ending it. -/
def isWord (cell : Cell) : Bool := isWordChar cell.char

end Cell

namespace Source

def afterLabel? : Text → List Cell → Option (List Cell)
  | [], [] => some []
  | [], cell :: cells => if cell.isWord then none else some (cell :: cells)
  | _ :: _, [] => none
  | char :: label, cell :: cells => if cell.char = char then afterLabel? label cells else none

/--
The number of cells that a label and its colon take up at the start of the
cells, when the colon is among the first `room` of them.
-/
def labelWidth? (label : Text) (room : Nat) (cells : List Cell) : Option Nat :=
  match afterLabel? label cells with
  | none => none
  | some rest =>
      let width := label.length + (rest.takeWhile Cell.isTrivia).length + 1
      let follows := (rest.dropWhile Cell.isTrivia).head?.any (·.isCodeChar ':')
      if follows && width ≤ room then some width else none

/--
The sites of a label among cells that begin at `position`, before `stop`.  The
first `skip` cells belong to a label that was found before, and `inWord` tells
whether the cell in front could begin a longer word.
-/
def labelSitesFrom (label : Text) (stop : Nat) :
    (skip position depth : Nat) → (inWord : Bool) → List Cell → List LabelSite
  | _, _, _, _, [] => []
  | skip + 1, position, depth, _, cell :: cells =>
      labelSitesFrom label stop skip (position + 1) depth cell.isWord cells
  | 0, position, depth, inWord, cell :: cells =>
      if stop ≤ position then []
      else if !cell.isCode || cell.opens?.isSome || cell.closes?.isSome || inWord then
        labelSitesFrom label stop 0 (position + 1) (cell.depthAfter depth) cell.isWord cells
      else
        match labelWidth? label (stop - position) (cell :: cells) with
        | some width =>
            ⟨position + width, depth⟩ ::
              labelSitesFrom label stop (width - 1) (position + 1) depth cell.isWord cells
        | none => labelSitesFrom label stop 0 (position + 1) depth cell.isWord cells

def wordBefore (source : Source) (position : Nat) : Bool :=
  position ≠ 0 && (source.at? (position - 1)).any Cell.isWord

def labelSites (source : Source) (label : Text) (span : Span) : List LabelSite :=
  labelSitesFrom label span.stop 0 span.start 0 (source.wordBefore span.start)
    (source.cells.drop span.start)

def arrayBehind? (source : Source) (position stop : Nat) : Option Span :=
  let opening := source.skipTrivia position stop
  if opening < stop && source.hasCodeAt opening '[' then source.insideBefore? opening stop
  else none

def arrayAmong? (source : Source) (sites : List LabelSite) (stop : Nat) (excluded : List Span) :
    Option Span :=
  let sites := sites.filter fun site => !excluded.any (·.holds site.position)
  (sites.mergeSort LabelSite.le).findSome? fun site => source.arrayBehind? site.position stop

/-- The inside of a label's array in a span; values inside `excluded` spans do not count. -/
def labeledArrayIn? (source : Source) (label : Text) (span : Span) (excluded : List Span) :
    Option Span :=
  source.arrayAmong? (source.labelSites label span) span.stop excluded

/-- The inside of a label's array anywhere in the source. -/
def labeledArray? (source : Source) (label : Text) (excluded : List Span) : Option Span :=
  source.labeledArrayIn? label source.whole excluded

end Source

end SwiftWorkspace
