import SwiftWorkspace.Text.CodePoint
import SwiftWorkspace.Text.Printable

/-!
# JSON values

The values that a JSON text writes, and their layout on several lines.  A
number is kept as it is written.
-/

namespace SwiftWorkspace

inductive JsonValue where
  | null
  | bool (value : Bool)
  | number (written : Text)
  | string (points : CodePoints)
  | array (items : List JsonValue)
  | object (members : List (CodePoints × JsonValue))
  deriving Repr, BEq, Inhabited

namespace JsonValue

/-- The string that holds a text. -/
def text (text : Text) : JsonValue := .string (CodePoints.ofText text)

def record (members : List (Text × JsonValue)) : JsonValue :=
  .object (members.map fun (key, value) => (CodePoints.ofText key, value))

def member? (key : Text) : JsonValue → Option JsonValue
  | .object members => members.reverse.lookup (CodePoints.ofText key)
  | _ => none

def items : JsonValue → List JsonValue
  | .array items => items
  | _ => []

def itemsAt (key : Text) (value : JsonValue) : List JsonValue :=
  ((value.member? key).map items).getD []

def string? : JsonValue → Option CodePoints
  | .string points => some points
  | _ => none

def text? (value : JsonValue) : Option Text := value.string?.bind CodePoints.text?

def isObject : JsonValue → Bool
  | .object _ => true
  | _ => false

/-- A unit of a character beyond the first plane, written as an escape. -/
def escapedUnit (unit : Nat) : Text := '\\' :: 'u' :: Text.hex 4 unit

def escapedChar (char : Char) : Text :=
  if char = '"' then ['\\', '"']
  else if char = '\\' then ['\\', '\\']
  else if char = '\n' then ['\\', 'n']
  else if char = '\r' then ['\\', 'r']
  else if char = '\t' then ['\\', 't']
  else if char = '\x0c' then ['\\', 'f']
  else if char = '\x08' then ['\\', 'b']
  else if 0x20 ≤ char.toNat && char.toNat < 0x7F then [char]
  else if char.toNat < 0x10000 then escapedUnit char.toNat
  else
    let offset := char.toNat - 0x10000
    escapedUnit (0xD800 + offset / 0x400) ++ escapedUnit (0xDC00 + offset % 0x400)

def escapedPoint : CodePoint → Text
  | .ofChar char => escapedChar char
  | .half offset => escapedUnit (CodePoint.half offset).code

def quoted (points : CodePoints) : Text := '"' :: points.flatMap escapedPoint ++ ['"']

def newLine (indent : Nat) : Text := '\n' :: List.replicate indent ' '

mutual

/-- The value laid out on several lines, two blanks a level, from a level on. -/
def layoutAt (indent : Nat) : JsonValue → Text
  | .null => "null".toList
  | .bool true => "true".toList
  | .bool false => "false".toList
  | .number written => written
  | .string points => quoted points
  | .array [] => "[]".toList
  | .array (first :: rest) =>
      '[' :: newLine (indent + 2) ++ layoutAt (indent + 2) first ++
        layoutItems (indent + 2) rest ++ newLine indent ++ [']']
  | .object [] => "\x7b\x7d".toList
  | .object ((key, first) :: rest) =>
      Char.ofNat 0x7B :: newLine (indent + 2) ++ quoted key ++ [':', ' '] ++
        layoutAt (indent + 2) first ++ layoutMembers (indent + 2) rest ++ newLine indent ++
        [Char.ofNat 0x7D]

def layoutItems (indent : Nat) : List JsonValue → Text
  | [] => []
  | item :: items => ',' :: newLine indent ++ layoutAt indent item ++ layoutItems indent items

def layoutMembers (indent : Nat) : List (CodePoints × JsonValue) → Text
  | [] => []
  | (key, value) :: members =>
      ',' :: newLine indent ++ quoted key ++ [':', ' '] ++ layoutAt indent value ++
        layoutMembers indent members

end

def layout (value : JsonValue) : Text := layoutAt 0 value

end JsonValue

end SwiftWorkspace
