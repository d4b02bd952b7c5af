import SwiftWorkspace.Text.Basic

/-!
# Cursors

A cursor is a place in a YAML text: what is left of the text, and how many
characters, lines and columns come before it.
-/

namespace SwiftWorkspace

namespace Yaml

def isBreak (char : Char) : Bool :=
  char = '\n' || char = '\r' || char = '\x85' || char = '\u2028' || char = '\u2029'

def isAllowed (char : Char) : Bool :=
  let code := char.toNat
  code = 0x09 || code = 0x0A || code = 0x0D || (0x20 ≤ code && code ≤ 0x7E) || code = 0x85 ||
    (0xA0 ≤ code && code ≤ 0xD7FF) || (0xE000 ≤ code && code ≤ 0xFFFD) || 0x10000 ≤ code

/-- Whether the character may stand in the name of an anchor or a tag handle. -/
def isNameChar (char : Char) : Bool := char.isAlphanum || char = '-' || char = '_'

def endsLine : Option Char → Bool
  | none => true
  | some char => isBreak char

def endsWord : Option Char → Bool
  | none => true
  | some char => char = ' ' || isBreak char

/-- Whether a space or a tab stands here or the line ends. -/
def endsToken : Option Char → Bool
  | none => true
  | some char => char = ' ' || char = '\t' || isBreak char

structure Cursor where
  rest : Text
  index : Nat := 0
  line : Nat := 0
  column : Nat := 0
  deriving Repr

namespace Cursor

def peek (cursor : Cursor) (offset : Nat) : Option Char := cursor.rest[offset]?

def next (cursor : Cursor) : Option Char := cursor.rest.head?

def sees (cursor : Cursor) (char : Char) : Bool := cursor.next = some char

def seesBreak (cursor : Cursor) : Bool := cursor.next.any isBreak

/-- The cursor behind the next character. -/
def step (cursor : Cursor) : Cursor :=
  match cursor.rest with
  | [] => cursor
  | char :: rest =>
      let ends := isBreak char && !(char = '\r' && rest.head? = some '\n')
      { rest
        index := cursor.index + 1
        line := if ends then cursor.line + 1 else cursor.line
        column :=
          if ends then 0 else if char = '\uFEFF' then cursor.column else cursor.column + 1 }

def advance : Nat → Cursor → Cursor
  | 0, cursor => cursor
  | count + 1, cursor => advance count cursor.step

/-- The characters at the cursor that satisfy `keep`, and the cursor behind them. -/
def span (cursor : Cursor) (keep : Char → Bool) : Text × Cursor :=
  let found := cursor.rest.takeWhile keep
  (found, cursor.advance found.length)

def skip (cursor : Cursor) (drop : Char → Bool) : Cursor := (cursor.span drop).2

def skipSpaces (cursor : Cursor) : Cursor := cursor.skip (· = ' ')

def skipComment (cursor : Cursor) : Cursor :=
  if cursor.sees '#' then cursor.skip (!isBreak ·) else cursor

def lineBreak (cursor : Cursor) : Text × Cursor :=
  match cursor.rest with
  | '\r' :: '\n' :: _ => (['\n'], cursor.advance 2)
  | char :: _ =>
      if char = '\u2028' || char = '\u2029' then ([char], cursor.step)
      else if isBreak char then (['\n'], cursor.step)
      else ([], cursor)
  | [] => ([], cursor)

/-- Whether three characters `char` and the end of a token stand at the cursor. -/
def seesMark (cursor : Cursor) (char : Char) : Bool :=
  cursor.rest.take 3 = [char, char, char] && endsToken (cursor.peek 3)

def seesSeparator (cursor : Cursor) : Bool := cursor.seesMark '-' || cursor.seesMark '.'

end Cursor

end Yaml

end SwiftWorkspace
