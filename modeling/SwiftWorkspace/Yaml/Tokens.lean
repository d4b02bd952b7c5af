import SwiftWorkspace.Yaml.Property
import SwiftWorkspace.Yaml.ScalarText

/-!
# Splitting a text into tokens

The tokens are found from left to right.  That something is the key of a
mapping shows only at the colon behind it, so places where a key may have begun
are remembered; a key has to fit on one line and into 1024 characters.
-/

namespace SwiftWorkspace

namespace Yaml

structure KeyPlace where
  /-- The number of tokens in front of the key. -/
  tokens : Nat
  /-- Whether the place can only be the start of a key. -/
  required : Bool
  index : Nat
  line : Nat
  column : Nat

/-- The tokens found so far, and what is known about the place behind them. -/
structure Lexer where
  cursor : Cursor
  tokens : List Token := []
  /-- The number of flow collections around the place. -/
  depth : Nat := 0
  /-- The indentation of the innermost block collection, or minus one. -/
  indent : Int := -1
  /-- The indentations of the block collections around it. -/
  outer : List Int := []
  /-- Whether a key may begin at the place. -/
  keyAllowed : Bool := true
  /-- The last place on each depth where a key may have begun. -/
  keyPlaces : List (Nat × KeyPlace) := []

namespace Lexer

def push (lexer : Lexer) (token : Token) : Lexer :=
  { lexer with tokens := lexer.tokens ++ [token] }

def pushTo (lexer : Lexer) (token : Token) (cursor : Cursor) : Lexer :=
  { lexer with tokens := lexer.tokens ++ [token], cursor }

def inFlow (lexer : Lexer) : Bool := lexer.depth ≠ 0

/-- Forget the places that are too far away for a key. -/
def dropStale (lexer : Lexer) : Except Flaw Lexer :=
  let isStale (place : KeyPlace) : Bool :=
    place.line ≠ lexer.cursor.line || 1024 < lexer.cursor.index - place.index
  if lexer.keyPlaces.any fun (_, place) => isStale place && place.required then .error .malformed
  else .ok { lexer with keyPlaces := lexer.keyPlaces.filter fun (_, place) => !isStale place }

def dropPlace (lexer : Lexer) : Except Flaw Lexer :=
  if (lexer.keyPlaces.lookup lexer.depth).any KeyPlace.required then .error .malformed
  else .ok
    { lexer with keyPlaces := lexer.keyPlaces.filter fun (depth, _) => depth ≠ lexer.depth }

def notePlace (lexer : Lexer) : Except Flaw Lexer :=
  if !lexer.keyAllowed then .ok lexer
  else do
    let cursor := lexer.cursor
    let place : KeyPlace :=
      { tokens := lexer.tokens.length
        required := !lexer.inFlow && lexer.indent = cursor.column
        index := cursor.index, line := cursor.line, column := cursor.column }
    let lexer ← lexer.dropPlace
    pure { lexer with keyPlaces := (lexer.depth, place) :: lexer.keyPlaces }

def unwindTo (column : Int) (indent : Int) : List Int → Nat × Int × List Int
  | [] => (0, indent, [])
  | next :: outer =>
      if column < indent then
        let (ended, indent, outer) := unwindTo column next outer
        (ended + 1, indent, outer)
      else (0, indent, next :: outer)

/-- End the block collections that the place is not indented enough for. -/
def unwind (lexer : Lexer) (column : Int) : Lexer :=
  if lexer.inFlow then lexer
  else
    let (ended, indent, outer) := unwindTo column lexer.indent lexer.outer
    { lexer with tokens := lexer.tokens ++ List.replicate ended .blockEnd, indent, outer }

def indents (lexer : Lexer) (column : Nat) : Bool := lexer.indent < column

def indentTo (lexer : Lexer) (column : Nat) : Lexer :=
  { lexer with indent := column, outer := lexer.indent :: lexer.outer }

def beginBlock (lexer : Lexer) (start : Token) : Lexer :=
  if lexer.indents lexer.cursor.column then
    (lexer.indentTo lexer.cursor.column).push start
  else lexer

def insertAt (lexer : Lexer) (count : Nat) (token : Token) : Lexer :=
  { lexer with tokens := lexer.tokens.take count ++ token :: lexer.tokens.drop count }

/-- Go on at the next token: behind spaces, comments and line breaks. -/
def skipToToken : (fuel : Nat) → Lexer → Lexer
  | 0, lexer => lexer
  | fuel + 1, lexer =>
      let cursor := lexer.cursor.skipSpaces.skipComment
      if cursor.seesBreak then
        skipToToken fuel
          { lexer with
            cursor := cursor.lineBreak.2, keyAllowed := lexer.keyAllowed || !lexer.inFlow }
      else { lexer with cursor }

def readEnd (lexer : Lexer) : Except Flaw Lexer := do
  let lexer ← (lexer.unwind (-1)).dropPlace
  pure (lexer.push .streamEnd)

def readDirective (lexer : Lexer) : Except Flaw Lexer := do
  let lexer ← (lexer.unwind (-1)).dropPlace
  let (directive, cursor) ← scanDirective lexer.cursor
  pure ({ lexer with keyAllowed := false }.pushTo (.directive directive) cursor)

def readMark (lexer : Lexer) (token : Token) : Except Flaw Lexer := do
  let lexer ← (lexer.unwind (-1)).dropPlace
  pure ({ lexer with keyAllowed := false }.pushTo token (lexer.cursor.advance 3))

def readOpening (lexer : Lexer) (token : Token) : Except Flaw Lexer := do
  let lexer ← lexer.notePlace
  pure ({ lexer with depth := lexer.depth + 1, keyAllowed := true }.pushTo token lexer.cursor.step)

def readClosing (lexer : Lexer) (token : Token) : Except Flaw Lexer := do
  let lexer ← lexer.dropPlace
  if !lexer.inFlow then throw .malformed
  pure ({ lexer with depth := lexer.depth - 1, keyAllowed := false }.pushTo token
    lexer.cursor.step)

def readFlowEntry (lexer : Lexer) : Except Flaw Lexer := do
  let lexer ← lexer.dropPlace
  pure ({ lexer with keyAllowed := true }.pushTo .flowEntry lexer.cursor.step)

def readBlockEntry (lexer : Lexer) : Except Flaw Lexer := do
  if !lexer.inFlow && !lexer.keyAllowed then throw .malformed
  let lexer := if lexer.inFlow then lexer else lexer.beginBlock .blockSequenceStart
  let lexer ← lexer.dropPlace
  pure ({ lexer with keyAllowed := true }.pushTo .blockEntry lexer.cursor.step)

def readKey (lexer : Lexer) : Except Flaw Lexer := do
  if !lexer.inFlow && !lexer.keyAllowed then throw .malformed
  let lexer := if lexer.inFlow then lexer else lexer.beginBlock .blockMappingStart
  let lexer ← lexer.dropPlace
  pure ({ lexer with keyAllowed := !lexer.inFlow }.pushTo .key lexer.cursor.step)

def readValueOf (lexer : Lexer) (place : KeyPlace) : Lexer :=
  let lexer := lexer.insertAt place.tokens .key
  let lexer :=
    if !lexer.inFlow && lexer.indents place.column then
      (lexer.indentTo place.column).insertAt place.tokens .blockMappingStart
    else lexer
  { lexer with
    keyAllowed := false
    keyPlaces := lexer.keyPlaces.filter fun (depth, _) => depth ≠ lexer.depth }

def readValue (lexer : Lexer) : Except Flaw Lexer := do
  let lexer ←
    match lexer.keyPlaces.lookup lexer.depth with
    | some place => pure (lexer.readValueOf place)
    | none => do
        if !lexer.inFlow && !lexer.keyAllowed then throw .malformed
        let lexer := if lexer.inFlow then lexer else lexer.beginBlock .blockMappingStart
        let lexer ← lexer.dropPlace
        pure { lexer with keyAllowed := !lexer.inFlow }
  pure (lexer.pushTo .value lexer.cursor.step)

def readContent (lexer : Lexer) (scan : Cursor → Except Flaw (Token × Cursor)) :
    Except Flaw Lexer := do
  let lexer ← lexer.notePlace
  let (token, cursor) ← scan lexer.cursor
  pure ({ lexer with keyAllowed := false }.pushTo token cursor)

def readBlockScalar (lexer : Lexer) (folded : Bool) : Except Flaw Lexer := do
  let lexer ← lexer.dropPlace
  let (text, cursor) ← Block.scan folded lexer.indent lexer.cursor
  pure ({ lexer with keyAllowed := true }.pushTo (.scalar text false) cursor)

def readPlain (lexer : Lexer) : Except Flaw Lexer := do
  let lexer ← lexer.notePlace
  let (text, last) := Plain.scan lexer.inFlow (lexer.indent + 1).toNat lexer.cursor
  pure ({ lexer with keyAllowed := last.broken }.pushTo (.scalar text true) last.stop)

def quotedToken (mark : Char) (cursor : Cursor) : Except Flaw (Token × Cursor) :=
  (Quoted.scan mark cursor).map fun (text, cursor) => (.scalar text false, cursor)

def tagToken (cursor : Cursor) : Except Flaw (Token × Cursor) :=
  (scanTag cursor).map fun (handle, suffix, cursor) => (.tag handle suffix, cursor)

def startsPlain (inFlow : Bool) (char : Char) (behind : Option Char) : Bool :=
  let indicators := "-?:,[]\x7b\x7d#&*!|>'\"%@\x60".toList
  (!endsToken (some char) && !indicators.elem char) ||
    (!endsToken behind && (char = '-' || (!inFlow && (char = '?' || char = ':'))))

def readToken (lexer : Lexer) (char : Char) : Except Flaw Lexer :=
  let behind := lexer.cursor.peek 1
  let atLineStart := lexer.cursor.column = 0
  if char = '%' && atLineStart then lexer.readDirective
  else if char = '-' && atLineStart && lexer.cursor.seesMark '-' then lexer.readMark .documentStart
  else if char = '.' && atLineStart && lexer.cursor.seesMark '.' then lexer.readMark .documentEnd
  else if char = '[' then lexer.readOpening .flowSequenceStart
  else if char = '\x7b' then lexer.readOpening .flowMappingStart
  else if char = ']' then lexer.readClosing .flowSequenceEnd
  else if char = '\x7d' then lexer.readClosing .flowMappingEnd
  else if char = ',' then lexer.readFlowEntry
  else if char = '-' && endsToken behind then lexer.readBlockEntry
  else if char = '?' && (lexer.inFlow || endsToken behind) then lexer.readKey
  else if char = ':' && (lexer.inFlow || endsToken behind) then lexer.readValue
  else if char = '*' then
    lexer.readContent fun cursor =>
      (scanName cursor).map fun (name, cursor) => (.alias name, cursor)
  else if char = '&' then
    lexer.readContent fun cursor =>
      (scanName cursor).map fun (name, cursor) => (.anchor name, cursor)
  else if char = '!' then lexer.readContent tagToken
  else if char = '|' && !lexer.inFlow then lexer.readBlockScalar false
  else if char = '>' && !lexer.inFlow then lexer.readBlockScalar true
  else if char = '\'' then lexer.readContent (quotedToken '\'')
  else if char = '"' then lexer.readContent (quotedToken '"')
  else if startsPlain lexer.inFlow char behind then lexer.readPlain
  else .error .malformed

/-- One more token, and whether the text goes on behind it. -/
def read (lexer : Lexer) : Except Flaw (Lexer × Bool) := do
  let lexer ← (skipToToken (lexer.cursor.rest.length + 1) lexer).dropStale
  let lexer := lexer.unwind lexer.cursor.column
  match lexer.cursor.next with
  | none => pure (← lexer.readEnd, false)
  | some char => pure (← lexer.readToken char, true)

def settledTokens (lexer : Lexer) : List Token :=
  match lexer.dropStale with
  | .ok lexer =>
      let places := lexer.keyPlaces.map fun (_, place) => place.tokens
      lexer.tokens.take (places.foldl min lexer.tokens.length)
  | .error _ => lexer.tokens

/-- All tokens of a text, up to its end or to what depends on a place that cannot be read. -/
def readAll : (fuel : Nat) → Lexer → List Token
  | 0, lexer => lexer.tokens
  | fuel + 1, lexer =>
      match lexer.read with
      | .error flaw => lexer.settledTokens ++ [.invalid flaw]
      | .ok (lexer, true) => readAll fuel lexer
      | .ok (lexer, false) => lexer.tokens

end Lexer

def Token.ofText (text : Text) : List Token :=
  if !text.all isAllowed then [.invalid .malformed]
  else
    let cursor : Cursor := { rest := text }
    let start := if cursor.sees '\uFEFF' then cursor.step else cursor
    Lexer.readAll (text.length + 2) { cursor := start }

end Yaml

end SwiftWorkspace
