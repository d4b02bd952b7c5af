import SwiftWorkspace.Source.Basic

/-!
# Cutting and inserting

An edit inserts text at a position or cuts out spans.  Spans that overlap or
touch are merged first; the merged spans are then cut from the last to the
first, so that the positions of those still to be cut stay valid.
-/

namespace SwiftWorkspace

namespace Span

/-- Spans are ordered by their starts, and those with one start by their ends. -/
def le (left right : Span) : Bool :=
  left.start < right.start || (left.start = right.start && left.stop ≤ right.stop)

/-- Merge a span with those of the following ones, in order, that it overlaps or touches. -/
def mergeOnto (current : Span) : List Span → List Span
  | [] => [current]
  | next :: spans =>
      if next.start ≤ current.stop then
        mergeOnto ⟨current.start, max current.stop next.stop⟩ spans
      else current :: mergeOnto next spans

/-- The same positions as separate spans in increasing order. -/
def merge (spans : List Span) : List Span :=
  match spans.mergeSort le with
  | [] => []
  | first :: rest => mergeOnto first rest

def relativeTo (span : Span) (start : Nat) : Span := ⟨span.start - start, span.stop - start⟩

end Span

namespace Text

def insertAt (text : Text) (position : Nat) (insertion : Text) : Text :=
  text.take position ++ insertion ++ text.drop position

def replaceSpan (text : Text) (span : Span) (replacement : Text) : Text :=
  text.take span.start ++ replacement ++ text.drop span.stop

def cutSpan (text : Text) (span : Span) : Text := text.take span.start ++ text.drop span.stop

/-- The text without some separate spans in increasing order. -/
def cutSpans (text : Text) (spans : List Span) : Text :=
  spans.foldr (fun span text => text.cutSpan span) text

end Text

end SwiftWorkspace
