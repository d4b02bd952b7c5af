import SwiftWorkspace.Edit.Append

/-!
# Deleting from an array

Elements are cut together with the separators and the blank space that belong
to them, so that the elements that stay keep their own commas and comments.  An
array that loses all its elements and holds nothing else becomes empty.
-/

namespace SwiftWorkspace

namespace Source

def cutEnd (source : Source) (element following : Span) : Nat :=
  match source.commaAfter? element.stop following.start with
  | none => following.start
  | some comma =>
      let behind := comma + 1
      let lineEnd := source.endOfLineAfter behind following.start
      let position :=
        if source.startsLine element.start && lineEnd < following.start &&
            source.hasCharAt lineEnd '\n' then lineEnd + 1
        else behind
      position + (((source.textIn ⟨position, following.start⟩).takeWhile
        fun char => char = ' ' || char = '\t').length)

def lastCuts (source : Source) (array element run : Span) (kept : Option Span) : List Span :=
  let comma := source.commaAfter? element.stop array.stop
  match kept with
  | none => [⟨element.start, (comma.map (· + 1)).getD element.stop⟩]
  | some kept =>
      if source.startsLine element.start then
        let start := (source.lastLineFeed? kept.stop run.start).getD element.start
        match comma with
        | some comma => [⟨start, source.endOfLineAfter (comma + 1) array.stop⟩]
        | none =>
            ((source.commaAfter? kept.stop element.start).map
              fun separator => Span.mk separator (separator + 1)).toList ++
              [⟨start, source.endOfLineAfter element.stop array.stop⟩]
      else [⟨kept.stop, element.stop⟩]

/--
The spans to cut for the elements of an array that go.  Behind `kept`, the last
element that stays, `run` is the first one that goes.
-/
def cutsFrom (source : Source) (array : Span) (goes : Span → Bool) :
    (kept run : Option Span) → List Span → List Span
  | _, _, [] => []
  | kept, run, element :: elements =>
      if goes element then
        let run := run.getD element
        match elements with
        | [] => source.lastCuts array element run kept
        | following :: _ =>
            ⟨element.start, source.cutEnd element following⟩ ::
              cutsFrom source array goes kept (some run) elements
      else cutsFrom source array goes (some element) none elements

/-- The text without those elements of an array that go. -/
def deleteElements (source : Source) (array : Span) (goes : Span → Bool) : Text :=
  let elements := source.elements array
  let cuts := Span.merge (source.cutsFrom array goes none none elements)
  let inner := (source.textIn array).cutSpans (cuts.map (·.relativeTo array.start))
  let inner := if elements.all goes && inner.allBlank then [] else inner
  source.text.replaceSpan array inner

end Source

end SwiftWorkspace
