import SwiftWorkspace.Decimal.Reading
import SwiftWorkspace.Yaml.Token

/-!
# The texts of scalars

A scalar can go over several lines.  How the breaks between its lines count
depends on its style: plain, between quotation marks, or as a block whose
indentation sets it apart.
-/

namespace SwiftWorkspace

namespace Yaml

/-- A single line break joins two lines with a space; of several the others are kept. -/
def foldBreaks (first : Text) (others : Text) : Text :=
  if first ≠ ['\n'] then first ++ others else if others.isEmpty then [' '] else others

namespace Plain

def stopsAt (inFlow : Bool) (char : Char) (behind : Option Char) : Bool :=
  endsToken (some char) ||
    (char = ':' &&
      (endsToken behind || (inFlow && behind.any [',', '[', ']', '\x7b', '\x7d'].elem))) ||
    (inFlow && [',', '?', '[', ']', '\x7b', '\x7d'].elem char)

/-- The characters of a plain scalar up to the next space. -/
def word (inFlow : Bool) : Text → Text
  | [] => []
  | char :: text => if stopsAt inFlow char text.head? then [] else char :: word inFlow text

/-- The further line breaks between two lines, and the place behind them, unless a mark follows. -/
def breaks : (fuel : Nat) → Cursor → Option Text × Cursor
  | 0, cursor => (some [], cursor)
  | fuel + 1, cursor =>
      if cursor.sees ' ' then breaks fuel cursor.step
      else if cursor.seesBreak then
        let (first, cursor) := cursor.lineBreak
        if cursor.seesSeparator then (none, cursor)
        else
          let (others, cursor) := breaks fuel cursor
          (others.map (first ++ ·), cursor)
      else (some [], cursor)

/-- What stands between two words: its text, whether it holds a line break, and its end. -/
structure Gap where
  text : Text
  broken : Bool
  stop : Cursor

def gap (cursor : Cursor) : Gap :=
  let (spaces, cursor) := cursor.span (· = ' ')
  if cursor.seesBreak then
    let (first, cursor) := cursor.lineBreak
    if cursor.seesSeparator then ⟨[], true, cursor⟩
    else
      match breaks cursor.rest.length cursor with
      | (none, cursor) => ⟨[], true, cursor⟩
      | (some others, cursor) => ⟨foldBreaks first others, true, cursor⟩
  else ⟨spaces, false, cursor⟩

/--
The words of a plain scalar behind a gap.  Outside of flow collections it ends
at a line that is indented less than `indent`.
-/
def wordsFrom (inFlow : Bool) (indent : Nat) : (fuel : Nat) → Gap → Text × Gap
  | 0, before => ([], before)
  | fuel + 1, before =>
      let text := word inFlow before.stop.rest
      if before.stop.sees '#' || text.isEmpty then ([], before)
      else
        let between := gap (before.stop.advance text.length)
        if between.text.isEmpty || between.stop.sees '#' ||
            (!inFlow && between.stop.column < indent) then
          (before.text ++ text, between)
        else
          let (more, last) := wordsFrom inFlow indent fuel between
          (before.text ++ text ++ more, last)

def scan (inFlow : Bool) (indent : Nat) (cursor : Cursor) : Text × Gap :=
  wordsFrom inFlow indent (cursor.rest.length + 1) ⟨[], false, cursor⟩

end Plain

namespace Quoted

def escape? : Char → Option Char
  | '0' => some (Char.ofNat 0)
  | 'a' => some '\x07'
  | 'b' => some '\x08'
  | 't' => some '\t'
  | '\t' => some '\t'
  | 'n' => some '\n'
  | 'v' => some '\x0b'
  | 'f' => some '\x0c'
  | 'r' => some '\r'
  | 'e' => some '\x1b'
  | ' ' => some ' '
  | '"' => some '"'
  | '\\' => some '\\'
  | '/' => some '/'
  | 'N' => some '\x85'
  | '_' => some '\xa0'
  | 'L' => some '\u2028'
  | 'P' => some '\u2029'
  | _ => none

/-- The number of digits of an escape that gives a character's code. -/
def codeWidth? : Char → Option Nat
  | 'x' => some 2
  | 'u' => some 4
  | 'U' => some 8
  | _ => none

def breaks : (fuel : Nat) → Cursor → Except Flaw (Text × Cursor)
  | 0, cursor => .ok ([], cursor)
  | fuel + 1, cursor =>
      if cursor.seesSeparator then .error .malformed
      else
        let cursor := cursor.skip fun char => char = ' ' || char = '\t'
        if cursor.seesBreak then do
          let (first, cursor) := cursor.lineBreak
          let (others, cursor) ← breaks fuel cursor
          pure (first ++ others, cursor)
        else .ok ([], cursor)

/-- What stands between two words inside quotation marks. -/
def gap (cursor : Cursor) : Except Flaw (Text × Cursor) := do
  let (spaces, cursor) := cursor.span fun char => char = ' ' || char = '\t'
  match cursor.next with
  | none => throw .malformed
  | some char =>
      if isBreak char then
        let (first, cursor) := cursor.lineBreak
        let (others, cursor) ← breaks (cursor.rest.length + 1) cursor
        pure (foldBreaks first others, cursor)
      else pure (spaces, cursor)

/-- The character that an escape behind a backslash gives by its code, and the place behind it. -/
def codeAt (width : Nat) (cursor : Cursor) : Except Flaw (Char × Cursor) :=
  let digits := cursor.rest.take width
  match Decimal.natIn? 16 0 digits with
  | some code =>
      if digits.length < width then .error .malformed
      else if 0x10FFFF < code then .error (.notChar code)
      else .ok (Char.ofNat code, cursor.advance width)
  | none => .error .malformed

def escapeAt (cursor : Cursor) : Except Flaw (Text × Cursor) :=
  match cursor.next with
  | none => .error .malformed
  | some char =>
      match escape? char, codeWidth? char with
      | some meaning, _ => .ok ([meaning], cursor.step)
      | none, some width => (codeAt width cursor.step).map fun (char, cursor) => ([char], cursor)
      | none, none =>
          if isBreak char then
            let (_, cursor) := cursor.lineBreak
            breaks (cursor.rest.length + 1) cursor
          else .error .malformed

/-- The characters up to the next blank or the closing mark. -/
def word (mark : Char) : (fuel : Nat) → Cursor → Except Flaw (Text × Cursor)
  | 0, cursor => .ok ([], cursor)
  | fuel + 1, cursor =>
      match cursor.rest with
      | [] => .ok ([], cursor)
      | char :: rest =>
          if endsToken (some char) then .ok ([], cursor)
          else if char = mark then
            if mark = '\'' && rest.head? = some '\'' then
              (word mark fuel (cursor.advance 2)).map fun (text, cursor) => ('\'' :: text, cursor)
            else .ok ([], cursor)
          else if mark = '"' && char = '\\' then do
            let (first, cursor) ← escapeAt cursor.step
            let (text, cursor) ← word mark fuel cursor
            pure (first ++ text, cursor)
          else (word mark fuel cursor.step).map fun (text, cursor) => (char :: text, cursor)

def wordsFrom (mark : Char) : (fuel : Nat) → Cursor → Except Flaw (Text × Cursor)
  | 0, _ => .error .malformed
  | fuel + 1, cursor => do
      let (text, cursor) ← word mark (cursor.rest.length + 1) cursor
      if cursor.sees mark then pure (text, cursor.step)
      else
        let (between, cursor) ← gap cursor
        let (more, cursor) ← wordsFrom mark fuel cursor
        pure (text ++ between ++ more, cursor)

def scan (mark : Char) (cursor : Cursor) : Except Flaw (Text × Cursor) :=
  wordsFrom mark (cursor.rest.length + 1) cursor.step

end Quoted

namespace Block

/-- What becomes of the line breaks at the end of a block. -/
inductive Chomping where
  | strip
  | clip
  | keep
  deriving DecidableEq, Repr

/-- The header of a block: how it ends, and how far it is indented if that is given. -/
structure Header where
  chomping : Chomping := .clip
  increment : Option Nat := none

def chomping? : Char → Option Chomping
  | '+' => some .keep
  | '-' => some .strip
  | _ => none

def header (cursor : Cursor) : Except Flaw (Header × Cursor) := do
  let chompingAt (cursor : Cursor) : Option Chomping := cursor.next.bind chomping?
  let digitAt (cursor : Cursor) : Option Nat := cursor.next.bind (Decimal.digitIn? 10)
  let (found, cursor) : Header × Cursor :=
    match chompingAt cursor, digitAt cursor with
    | some chomping, _ =>
        match digitAt cursor.step with
        | some digit => (⟨chomping, some digit⟩, cursor.advance 2)
        | none => (⟨chomping, none⟩, cursor.step)
    | none, some digit =>
        match chompingAt cursor.step with
        | some chomping => (⟨chomping, some digit⟩, cursor.advance 2)
        | none => (⟨.clip, some digit⟩, cursor.step)
    | none, none => ({}, cursor)
  if found.increment = some 0 || !endsWord cursor.next then throw .malformed
  else pure (found, cursor)

def restOfLine (cursor : Cursor) : Except Flaw Cursor :=
  let cursor := cursor.skipSpaces.skipComment
  if endsLine cursor.next then .ok cursor.lineBreak.2 else .error .malformed

def emptyLines : (fuel : Nat) → (widest : Nat) → Cursor → Text × Nat × Cursor
  | 0, widest, cursor => ([], widest, cursor)
  | fuel + 1, widest, cursor =>
      if cursor.sees ' ' then
        let cursor := cursor.step
        emptyLines fuel (max widest cursor.column) cursor
      else if cursor.seesBreak then
        let (first, cursor) := cursor.lineBreak
        let (others, widest, cursor) := emptyLines fuel widest cursor
        (first ++ others, widest, cursor)
      else ([], widest, cursor)

def skipIndent (indent : Nat) (cursor : Cursor) : Cursor :=
  cursor.advance ((cursor.rest.takeWhile (· = ' ')).length.min (indent - cursor.column))

def breaks (indent : Nat) : (fuel : Nat) → Cursor → Text × Cursor
  | 0, cursor => ([], cursor)
  | fuel + 1, cursor =>
      let cursor := skipIndent indent cursor
      if cursor.seesBreak then
        let (first, cursor) := cursor.lineBreak
        let (others, cursor) := breaks indent fuel cursor
        (first ++ others, cursor)
      else ([], cursor)

structure Lines where
  text : Text
  lastBreak : Text
  emptyLines : Text
  stop : Cursor

def continues (indent : Nat) (cursor : Cursor) : Bool :=
  cursor.column = indent && cursor.next.isSome

def seesBlank (cursor : Cursor) : Bool := cursor.sees ' ' || cursor.sees '\t'

def lines (folded : Bool) (indent : Nat) : (fuel : Nat) → (before : Text) → Cursor → Lines
  | 0, before, cursor => ⟨[], [], before, cursor⟩
  | fuel + 1, before, cursor =>
      if !continues indent cursor then ⟨[], [], before, cursor⟩
      else
        let outdented := !seesBlank cursor
        let (line, cursor) := cursor.span (!isBreak ·)
        let (lineBreak, cursor) := cursor.lineBreak
        let (empty, cursor) := breaks indent (cursor.rest.length + 1) cursor
        if continues indent cursor then
          let between :=
            if folded && lineBreak = ['\n'] && outdented && !seesBlank cursor then
              if empty.isEmpty then [' '] else []
            else lineBreak
          let more := lines folded indent fuel empty cursor
          { more with text := before ++ line ++ between ++ more.text }
        else ⟨before ++ line, lineBreak, empty, cursor⟩

/-- The block scalar whose indicator stands at the cursor, below an indentation. -/
def scan (folded : Bool) (parent : Int) (cursor : Cursor) : Except Flaw (Text × Cursor) := do
  let (header, cursor) ← header cursor.step
  let cursor ← restOfLine cursor
  let least := (parent + 1).toNat.max 1
  let fuel := cursor.rest.length + 1
  let (before, indent, cursor) :=
    match header.increment with
    | none =>
        let (before, widest, cursor) := emptyLines fuel 0 cursor
        (before, least.max widest, cursor)
    | some increment =>
        let indent := least + increment - 1
        let (before, cursor) := breaks indent fuel cursor
        (before, indent, cursor)
  let found := lines folded indent fuel before cursor
  let tail :=
    match header.chomping with
    | .strip => []
    | .clip => found.lastBreak
    | .keep => found.lastBreak ++ found.emptyLines
  pure (found.text ++ tail, found.stop)

end Block

end Yaml

end SwiftWorkspace
