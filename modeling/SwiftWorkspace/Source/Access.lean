import SwiftWorkspace.Source.Argument
import SwiftWorkspace.Source.Label
import SwiftWorkspace.Source.Line

/-!
# Queries with given ranges

The spans that the library finds never leave the source.  A position that comes
from a caller can lie behind the last character, where a query that has to look
at a missing character or kind fails instead of answering.  It can also lie
below zero and then counts from the end; a query that begins there goes on with
the first character when it has passed the last one.
-/

namespace SwiftWorkspace

/-- What a query looked for outside of the source. -/
inductive OutOfRange where
  | character
  | kind
  deriving DecidableEq, Repr

namespace OutOfRange

/-- The name of the error that every failure shows as. -/
def name : String := "IndexError"

def message : OutOfRange → String
  | .character => "string index out of range"
  | .kind => "bytearray index out of range"

end OutOfRange

/-- A range whose positions count from the end where they are below zero. -/
structure GivenSpan where
  start : Int
  stop : Int
  deriving DecidableEq, Repr

namespace GivenSpan

def isEmpty (given : GivenSpan) : Bool := given.stop ≤ given.start

/-- The number of positions below zero that a position reaches back over. -/
def leadOf (position : Int) : Nat := (-position).toNat

/-- The number of positions below zero that the range reaches back over. -/
def lead (given : GivenSpan) : Nat := leadOf given.start

/-- The range counted from its start if that is below zero, and from zero otherwise. -/
def shifted (given : GivenSpan) : Span :=
  ⟨(given.start + given.lead).toNat, (given.stop + given.lead).toNat⟩

/-- The range of a span that is counted from a number of positions below zero. -/
def ofShifted (lead : Nat) (span : Span) : GivenSpan := ⟨span.start - lead, span.stop - lead⟩

end GivenSpan

structure GivenArgument where
  label : Option Text
  value : GivenSpan
  span : GivenSpan
  deriving DecidableEq, Repr

namespace Source

def overruns (source : Source) (span : Span) : Bool :=
  span.start < span.stop && source.length < span.stop

def behindLast (source : Source) (count : Nat) : Source :=
  ⟨source.cells.drop (source.length - count) ++ source.cells⟩

def shiftedFor (source : Source) (given : GivenSpan) : Source := source.behindLast given.lead

/-- Whether the position lies before the first character, however it is counted. -/
def underruns (source : Source) (position : Int) : Bool := position < -(source.length : Int)

def placeOf (source : Source) (position : Int) : Nat :=
  if position < 0 then (source.length + position).toNat else position.toNat

def textWithin (source : Source) (given : GivenSpan) : Text :=
  source.text.slice (source.placeOf given.start) (source.placeOf given.stop)

def skipTriviaWithin (source : Source) (given : GivenSpan) : Except OutOfRange Int :=
  let span := given.shifted
  let reached := (source.shiftedFor given).skipTrivia span.start span.stop
  let ahead := given.lead + source.length
  if given.isEmpty then .ok given.start
  else if source.underruns given.start || (reached < span.stop && ahead ≤ reached) then .error .kind
  else .ok (reached - given.lead)

def literalWithin (source : Source) (position : Int) : Except OutOfRange (Option GivenSpan) :=
  let lead := GivenSpan.leadOf position
  if source.underruns position then .error .character
  else
    let found := (source.behindLast lead).literalAt? (position + lead).toNat
    .ok (found.map (GivenSpan.ofShifted lead))

def elementsWithin (source : Source) (given : GivenSpan) : Except OutOfRange (List GivenSpan) :=
  if source.underruns given.start && !given.isEmpty then .error .kind
  else
    let elements := (source.shiftedFor given).elements given.shifted
    .ok (elements.map (GivenSpan.ofShifted given.lead))

def argumentOfGiven (source : Source) (element : GivenSpan) : GivenArgument :=
  let found := source.argumentOf ⟨element.start.toNat, element.stop.toNat⟩
  match found.label with
  | some label => ⟨some label, .ofShifted 0 found.value, element⟩
  | none => ⟨none, element, element⟩

def argumentsWithin (source : Source) (given : GivenSpan) :
    Except OutOfRange (List GivenArgument) :=
  (source.elementsWithin given).map fun elements => elements.map source.argumentOfGiven

def stringWithin (source : Source) (given : GivenSpan) : Except OutOfRange (Option Text) :=
  let span := given.shifted
  let shifted := source.shiftedFor given
  if given.isEmpty then .ok none
  else if source.underruns given.start || shifted.length ≤ span.start then .error .character
  else if !shifted.hasCharAt span.start '"' then .ok none
  else if !(shifted.cellsIn span).all (·.kind = .string) then .ok none
  else if shifted.overruns span then .error .kind
  else .ok (some (Literal.decode (source.textWithin given)))

def labeledArgumentWithin (source : Source) (label : Text) (given : GivenSpan) :
    Except OutOfRange (Option GivenArgument) :=
  (source.argumentsWithin given).map fun arguments => arguments.find? (·.label = some label)

def labeledStringWithin (source : Source) (label : Text) (given : GivenSpan) :
    Except OutOfRange (Option Text) := do
  match ← source.labeledArgumentWithin label given with
  | some argument => source.stringWithin argument.value
  | none => pure none

def argumentArrayWithin (source : Source) (label : Text) (given : GivenSpan) :
    Except OutOfRange (Option Span) :=
  (source.labeledArgumentWithin label given).map fun argument =>
    argument.bind fun argument =>
      source.arrayOf? ⟨argument.value.start.toNat, argument.value.stop.toNat⟩

def stringsWithin (source : Source) (given : GivenSpan) : Except OutOfRange (List Text) := do
  let strings ← (← source.argumentsWithin given).mapM fun argument =>
      source.stringWithin argument.span
  pure (strings.filterMap id)

def callWithin (source : Source) (given : GivenSpan) : Except OutOfRange (Option Call) :=
  let span : Span := ⟨given.start.toNat, given.stop.toNat⟩
  if given.isEmpty then .ok none
  else if source.underruns given.start || source.length ≤ span.start then .error .character
  else if given.start < 0 || !source.hasCodeAt span.start '.' then .ok none
  else
    match source.identifierAt? (span.start + 1) with
    | none => .ok none
    | some keyword => do
        let behind := span.start + 1 + keyword.length
        let _ ← source.skipTriviaWithin ⟨behind, given.stop⟩
        pure (source.callIn? span)

/--
The position of the colon before `stop` that belongs to a label at the start of the
last cells, when only trivia stand behind the label and in front of the colon.
-/
def colonAround? (source : Source) (label : Text) (stop : Nat) (cells : List Cell) : Option Nat :=
  let behind := cells.drop label.length
  let colon := source.skipTrivia 0 stop
  let starts := label.isPrefixOf (cells.map Cell.char)
  let ends := !behind.isEmpty || !(source.at? 0).any Cell.isWord
  if starts && ends && behind.all Cell.isTrivia && colon < stop && source.hasCodeAt colon ':' then
    some colon
  else none

def labelSitesAround (source : Source) (label : Text) (stop : Nat) :
    (depth : Nat) → (last : List Cell) → List LabelSite
  | depth, [] => labelSitesFrom label stop 0 0 depth false source.cells
  | depth, cell :: cells =>
      let isPlain := cell.isCode && cell.opens?.isNone && cell.closes?.isNone
      match if isPlain then source.colonAround? label stop (cell :: cells) else none with
      | some colon =>
          ⟨colon + 1, depth⟩ ::
            labelSitesFrom label stop 0 (colon + 1) depth false (source.cells.drop (colon + 1))
      | none => labelSitesAround source label stop (cell.depthAfter depth) cells

def labelSitesWithin (source : Source) (label : Text) (given : GivenSpan) :
    Except OutOfRange (List LabelSite) :=
  if given.isEmpty then .ok []
  else if source.underruns given.start || (source.length : Int) < given.stop then .error .kind
  else if 0 ≤ given.start then
    .ok (source.labelSites label ⟨given.start.toNat, given.stop.toNat⟩)
  else if given.stop ≤ 0 then .ok []
  else
    let last := source.cells.drop (source.length - given.lead)
    .ok (source.labelSitesAround label given.stop.toNat 0 last)

def labeledArrayWithin (source : Source) (label : Text) (given : GivenSpan)
    (excluded : List Span) : Except OutOfRange (Option Span) :=
  (source.labelSitesWithin label given).map fun sites =>
    source.arrayAmong? sites given.stop.toNat excluded

end Source

end SwiftWorkspace
