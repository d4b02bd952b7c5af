import SwiftWorkspace.Lookup.Basic
import SwiftWorkspace.Source.Argument
import SwiftWorkspace.Source.Label

/-!
# Queries by position

The queries about a source, asked of a text and a list of kinds.  Each of them goes from
position to position and looks up a character or a kind where it needs one, so that it fails
where it goes too far.
-/

namespace SwiftWorkspace

namespace Literal

def unescapeFrom (body : Text) (position : Nat) : Lookup Text :=
  if position < body.length then do
    let char ← Lookup.character body position
    if char = '\\' && position + 1 < body.length then
      let following ← Lookup.character body (position + 1)
      pure (escaped following :: (← unescapeFrom body (position + 2)))
    else pure (char :: (← unescapeFrom body (position + 1)))
  else pure []
termination_by body.length - position

end Literal

structure Tables where
  text : Text
  kinds : List Kind

namespace Tables

/-- The text with the kinds that are found by position. -/
def ofText (text : Text) : Lookup Tables := do
  pure ⟨text, ← Kind.byPosition text⟩

/-- The characters in a span, as far as the text reaches. -/
def textIn (tables : Tables) (span : Span) : Text := tables.text.slice span.start span.stop

def charAt (tables : Tables) (position : Nat) : Lookup Char := Lookup.character tables.text position

def kindAt (tables : Tables) (position : Nat) : Lookup Kind := Lookup.kind tables.kinds position

def isCodeAt (tables : Tables) (position : Nat) : Lookup Bool :=
  if position < tables.text.length then do
    pure ((← tables.kindAt position) = .code)
  else pure false

def hasCodeAt (tables : Tables) (position : Nat) (char : Char) : Lookup Bool := do
  if (← tables.charAt position) = char then tables.isCodeAt position else pure false

def isTriviaAt (tables : Tables) (position : Nat) : Lookup Bool := do
  if (← tables.kindAt position) = .comment then pure true
  else pure (isBlank (← tables.charAt position))

def isWordAt (tables : Tables) (position : Nat) : Lookup Bool :=
  if position < tables.text.length then do
    pure (isWordChar (← tables.charAt position))
  else pure false

def skipTrivia (tables : Tables) (position stop : Nat) : Lookup Nat :=
  if position < stop then do
    if ← tables.isTriviaAt position then tables.skipTrivia (position + 1) stop else pure position
  else pure position
termination_by stop - position

def closingFrom (tables : Tables) (pending : List Bracket) (position : Nat) : Lookup (Option Nat) :=
  if position < tables.text.length then do
    if (← tables.kindAt position) ≠ .code then tables.closingFrom pending (position + 1)
    else
      let char ← tables.charAt position
      match Bracket.opened? char, Bracket.closed? char with
      | some shape, _ => tables.closingFrom (shape :: pending) (position + 1)
      | none, some shape =>
          if pending.isEmpty then pure none
          else if (← Lookup.item pending 0) ≠ shape then pure none
          else if pending.tail.isEmpty then pure (some position)
          else tables.closingFrom pending.tail (position + 1)
      | none, none => tables.closingFrom pending (position + 1)
  else pure none
termination_by tables.text.length - position

/-- The position of the bracket that closes the opening bracket at `position`. -/
def closing? (tables : Tables) (position : Nat) : Lookup (Option Nat) := do
  if ← tables.isCodeAt position then
    if (Bracket.opened? (← tables.charAt position)).isSome then tables.closingFrom [] position
    else pure none
  else pure none

def insideBefore? (tables : Tables) (position stop : Nat) : Lookup (Option Span) := do
  match ← tables.closing? position with
  | none => pure none
  | some closing => pure (if closing < stop then some ⟨position + 1, closing⟩ else none)

def hasWordAt (tables : Tables) (label : Text) (position : Nat) : Lookup Bool := do
  if !Kind.standsAt tables.text label position then pure false
  else if ← (if position = 0 then pure false else tables.isWordAt (position - 1)) then pure false
  else pure (!(← tables.isWordAt (position + label.length)))

def colonOf? (tables : Tables) (label : Text) (position stop : Nat) : Lookup (Option Nat) := do
  if ← tables.hasWordAt label position then
    let colon ← tables.skipTrivia (position + label.length) stop
    if stop ≤ colon then pure none
    else if ← tables.hasCodeAt colon ':' then pure (some colon)
    else pure none
  else pure none

theorem le_of_skipTrivia {tables : Tables} {position stop reached : Nat}
    (found : tables.skipTrivia position stop = .ok reached) : position ≤ reached := by
  fun_induction skipTrivia tables position stop with
  | case1 position before more =>
      obtain ⟨trivial, -, found⟩ := Outcome.bind_eq_ok.mp found
      cases trivial with
      | false => exact Nat.le_of_eq (Except.ok.inj found)
      | true => exact Nat.le_of_succ_le (more found)
  | case2 position behind => exact Nat.le_of_eq (Except.ok.inj found)

theorem le_of_colonOf? {tables : Tables} {label : Text} {position stop colon : Nat}
    (found : tables.colonOf? label position stop = .ok (some colon)) : position ≤ colon := by
  obtain ⟨stands, -, found⟩ := Outcome.bind_eq_ok.mp found
  cases stands with
  | false => cases found
  | true =>
      obtain ⟨reached, skipped, found⟩ := Outcome.bind_eq_ok.mp found
      have le := le_of_skipTrivia skipped
      split at found
      · cases found
      · obtain ⟨isColon, -, found⟩ := Outcome.bind_eq_ok.mp found
        cases isColon with
        | false => cases found
        | true =>
            obtain rfl : reached = colon := by simpa using found
            omega

def labelSitesFrom (tables : Tables) (label : Text) (stop position depth : Nat) :
    Lookup (List LabelSite) :=
  if position < stop then do
    if (← tables.kindAt position) ≠ .code then tables.labelSitesFrom label stop (position + 1) depth
    else
      let char ← tables.charAt position
      if (Bracket.opened? char).isSome then
        tables.labelSitesFrom label stop (position + 1) (depth + 1)
      else if (Bracket.closed? char).isSome then
        tables.labelSitesFrom label stop (position + 1) (depth - 1)
      else
        match _colon : tables.colonOf? label position stop with
        | .error missing => .error missing
        | .ok none => tables.labelSitesFrom label stop (position + 1) depth
        | .ok (some colon) => do
            pure (⟨colon + 1, depth⟩ :: (← tables.labelSitesFrom label stop (colon + 1) depth))
  else pure []
termination_by stop - position
decreasing_by
  all_goals try omega
  have := le_of_colonOf? _colon
  omega

def labelSites (tables : Tables) (label : Text) : Lookup (List LabelSite) :=
  tables.labelSitesFrom label tables.text.length 0 0

def arrayBehind? (tables : Tables) (position stop : Nat) : Lookup (Option Span) := do
  let opening ← tables.skipTrivia position stop
  if stop ≤ opening then pure none
  else if ← tables.hasCodeAt opening '[' then tables.insideBefore? opening stop
  else pure none

/-- The inside of a label's array in the whole text; values inside `excluded` spans do not count. -/
def labeledArray? (tables : Tables) (label : Text) (excluded : List Span) :
    Lookup (Option Span) := do
  let sites := (← tables.labelSites label).filter fun site => !excluded.any (·.holds site.position)
  (sites.mergeSort LabelSite.le).findSomeM? fun site =>
    tables.arrayBehind? site.position tables.text.length

def elementsFrom (tables : Tables) (stop depth position : Nat) (current : Option Span) :
    Lookup (List Span) :=
  if position < stop then do
    let kind ← tables.kindAt position
    if kind = .comment then tables.elementsFrom stop depth (position + 1) current
    else
      let char ← tables.charAt position
      let extended := some (Span.extend? current position)
      if kind = .string then tables.elementsFrom stop depth (position + 1) extended
      else
        let grown := if isBlank char then current else extended
        if (Bracket.opened? char).isSome then
          tables.elementsFrom stop (depth + 1) (position + 1) grown
        else if (Bracket.closed? char).isSome then
          tables.elementsFrom stop (depth - 1) (position + 1) grown
        else if char = ',' && depth = 0 then
          pure (current.toList ++ (← tables.elementsFrom stop depth (position + 1) none))
        else tables.elementsFrom stop depth (position + 1) grown
  else pure current.toList
termination_by stop - position

def elements (tables : Tables) (span : Span) : Lookup (List Span) :=
  tables.elementsFrom (min span.stop tables.text.length) 0 span.start none

def identifierAt? (tables : Tables) (position : Nat) : Option Text :=
  match tables.text.drop position with
  | [] => none
  | first :: rest =>
      if Source.isIdentifierStart first then
        some ((first :: rest).takeWhile Source.isIdentifierChar)
      else none

def argumentOf (tables : Tables) (element : Span) : Lookup Argument := do
  let unlabeled : Argument := ⟨none, element, element⟩
  match tables.identifierAt? element.start with
  | none => pure unlabeled
  | some label =>
      let behind := element.start + label.length
      if element.stop < behind then pure unlabeled
      else
        let colon ← tables.skipTrivia behind element.stop
        if element.stop ≤ colon then pure unlabeled
        else if ← tables.hasCodeAt colon ':' then
          pure ⟨some label, ⟨← tables.skipTrivia (colon + 1) element.stop, element.stop⟩, element⟩
        else pure unlabeled

def arguments (tables : Tables) (span : Span) : Lookup (List Argument) := do
  (← tables.elements span).mapM tables.argumentOf

/-- The value of the first argument with the given label. -/
def labeledValue? (tables : Tables) (span : Span) (label : Text) : Lookup (Option Span) := do
  pure (((← tables.arguments span).find? (·.label = some label)).map Argument.value)

def isString (tables : Tables) (position stop : Nat) : Lookup Bool :=
  if position < stop then do
    if (← tables.kindAt position) = .string then tables.isString (position + 1) stop else pure false
  else pure true
termination_by stop - position

def stringIn? (tables : Tables) (span : Span) : Lookup (Option Text) := do
  if span.isEmpty then pure none
  else if (← tables.charAt span.start) ≠ '"' then pure none
  else if ← tables.isString span.start span.stop then
    pure (some (← Literal.unescapeFrom (Literal.body (tables.textIn span)) 0))
  else pure none

def labeledString? (tables : Tables) (span : Span) (label : Text) : Lookup (Option Text) := do
  match ← tables.labeledValue? span label with
  | none => pure none
  | some value => tables.stringIn? value

def argumentArray? (tables : Tables) (span : Span) (label : Text) : Lookup (Option Span) := do
  match ← tables.labeledValue? span label with
  | none => pure none
  | some value =>
      if value.isEmpty then pure none
      else if (← tables.charAt value.start) ≠ '[' then pure none
      else pure ((← tables.closing? value.start).map fun closing => ⟨value.start + 1, closing⟩)

def stringEnd (tables : Tables) (position : Nat) : Lookup Nat :=
  if position < tables.text.length then do
    if (← tables.kindAt position) = .string then tables.stringEnd (position + 1) else pure position
  else pure position
termination_by tables.text.length - position

/-- The run of string characters that begins with the quotation mark at `position`. -/
def literalAt? (tables : Tables) (position : Nat) : Lookup (Option Span) := do
  if tables.text.length ≤ position then pure none
  else if (← tables.charAt position) ≠ '"' then pure none
  else if (← tables.kindAt position) ≠ .string then pure none
  else pure (some ⟨position, ← tables.stringEnd position⟩)

def stringElements (tables : Tables) (span : Span) : Lookup (List Text) := do
  (← tables.elements span).filterMapM tables.stringIn?

def callIn? (tables : Tables) (span : Span) : Lookup (Option Call) := do
  if span.isEmpty then pure none
  else if ← tables.hasCodeAt span.start '.' then
    match tables.identifierAt? (span.start + 1) with
    | none => pure none
    | some keyword =>
        let opening ← tables.skipTrivia (span.start + 1 + keyword.length) span.stop
        if span.stop ≤ opening then pure none
        else if (← tables.charAt opening) ≠ '(' then pure none
        else
          pure ((← tables.insideBefore? opening span.stop).map fun inside => ⟨keyword, span, inside⟩)
  else pure none

end Tables

end SwiftWorkspace
