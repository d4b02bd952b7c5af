import SwiftWorkspace.Source.Element

/-!
# Arguments and calls

An argument is an element of an argument list, with the label in front of its
value if it has one.  A call is written as a dot, a keyword and an argument list
in round brackets.
-/

namespace SwiftWorkspace

structure Argument where
  label : Option Text
  value : Span
  span : Span
  deriving DecidableEq, Repr

/-- One call: its keyword, its whole span, and the span inside its brackets. -/
structure Call where
  keyword : Text
  span : Span
  arguments : Span
  deriving DecidableEq, Repr

namespace Source

def argumentOf (source : Source) (element : Span) : Argument :=
  let unlabeled : Argument := ⟨none, element, element⟩
  match source.identifierAt? element.start with
  | none => unlabeled
  | some label =>
      let behind := element.start + label.length
      let colon := source.skipTrivia behind element.stop
      if behind ≤ element.stop && colon < element.stop && source.hasCodeAt colon ':' then
        ⟨some label, ⟨source.skipTrivia (colon + 1) element.stop, element.stop⟩, element⟩
      else unlabeled

def arguments (source : Source) (span : Span) : List Argument :=
  (source.elements span).map source.argumentOf

def labeledArgument? (source : Source) (span : Span) (label : Text) : Option Argument :=
  (source.arguments span).find? (·.label = some label)

/-- The value of the first argument with the given label. -/
def labeledValue? (source : Source) (span : Span) (label : Text) : Option Span :=
  (source.labeledArgument? span label).map Argument.value

def labeledString? (source : Source) (span : Span) (label : Text) : Option Text :=
  (source.labeledValue? span label).bind source.stringIn?

def arrayOf? (source : Source) (value : Span) : Option Span :=
  if value.isEmpty || !source.hasCharAt value.start '[' then none
  else (source.closing? value.start).map fun closing => ⟨value.start + 1, closing⟩

def argumentArray? (source : Source) (span : Span) (label : Text) : Option Span :=
  (source.labeledValue? span label).bind source.arrayOf?

def callIn? (source : Source) (span : Span) : Option Call :=
  if span.isEmpty || !source.hasCodeAt span.start '.' then none
  else
    match source.identifierAt? (span.start + 1) with
    | none => none
    | some keyword =>
        let opening := source.skipTrivia (span.start + 1 + keyword.length) span.stop
        if span.stop ≤ opening || !source.hasCharAt opening '(' then none
        else (source.insideBefore? opening span.stop).map fun inside => ⟨keyword, span, inside⟩

end Source

end SwiftWorkspace
