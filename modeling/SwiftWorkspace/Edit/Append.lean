import SwiftWorkspace.Edit.Splice
import SwiftWorkspace.Source.Element
import SwiftWorkspace.Source.Line

/-!
# Appending to an array

A new element goes behind the last one, in the style that the array shows: on a
line of its own if the last element has one, with a trailing comma if the last
element has one, and behind the comment that annotates the last element.
-/

namespace SwiftWorkspace

/-- How the elements of an array that is still empty are laid out. -/
inductive ArrayLayout where
  /-- All on the line of the brackets. -/
  | inline
  /-- Each on a line of its own. -/
  | multiline
  deriving DecidableEq, Repr

def indentUnit : Text := [' ', ' ', ' ', ' ']

namespace Source

/--
The end of the line that holds the position, if it lies before `stop` and only
trivia stand before it; otherwise the position itself.
-/
def endOfLineAfter (source : Source) (position stop : Nat) : Nat :=
  match source.lineFeed? position stop with
  | none => position
  | some lineEnd => if source.skipTrivia position lineEnd = lineEnd then lineEnd else position

def commaAfter? (source : Source) (position stop : Nat) : Option Nat :=
  let comma := source.skipTrivia position stop
  if comma < stop && source.hasCharAt comma ',' then some comma else none

def fillArray (source : Source) (array : Span) (element : Text) (layout : ArrayLayout) : Text :=
  let inner := (source.textIn array).stripEnd
  let replacement :=
    match layout with
    | .multiline =>
        let indent := source.lineIndent (array.start - 1)
        inner ++ '\n' :: indent ++ indentUnit ++ element ++ '\n' :: indent
    | .inline => if inner.isEmpty then element else inner ++ ' ' :: element
  source.text.replaceSpan array replacement

def appendBehind (source : Source) (array last : Span) (element : Text) : Text :=
  let text := source.text
  let comma := source.commaAfter? last.stop array.stop
  if source.startsLine last.start then
    let line := '\n' :: source.lineIndent last.start ++ element
    match comma with
    | some comma => text.insertAt (source.endOfLineAfter (comma + 1) array.stop) (line ++ [','])
    | none =>
        let lineEnd := source.endOfLineAfter last.stop array.stop
        (text.insertAt lineEnd line).insertAt last.stop [',']
  else
    match comma with
    | some comma => text.insertAt (comma + 1) (' ' :: element ++ [','])
    | none => text.insertAt last.stop (',' :: ' ' :: element)

def appendElement (source : Source) (array : Span) (element : Text) (layout : ArrayLayout) :
    Text :=
  match (source.elements array).getLast? with
  | none => source.fillArray array element layout
  | some last => source.appendBehind array last element

end Source

end SwiftWorkspace
