import SwiftWorkspace.Decimal.Reading
import SwiftWorkspace.Json.Basic

/-!
# Reading JSON

A text writes at most one JSON value.  Beside the numbers of the format the
words for not-a-number and the infinities are read as numbers.  Reading goes
from left to right and stops at the first flaw.  No more than some number of arrays and
objects may be open at a time.
-/

namespace SwiftWorkspace

/-- A form of value that holds other values. -/
inductive JsonForm where
  | array
  | object
  deriving DecidableEq, Repr

inductive JsonFlaw where
  /-- The text does not have the form of a value. -/
  | malformed
  /-- A whole number has more digits than are read. -/
  | longInteger
  /-- The octets are not a text. -/
  | undecodable
  /-- A value begins where as many others are open as may be. -/
  | tooDeep (form : JsonForm)
  deriving DecidableEq, Repr

namespace JsonValue

def isSpace (point : CodePoint) : Bool :=
  point = .ofChar ' ' || point = .ofChar '\t' || point = .ofChar '\n' || point = .ofChar '\r'

def skipSpace (text : CodePoints) : CodePoints := text.dropWhile isSpace

/-- The number that four digits in base sixteen write. -/
def unit? (digits : CodePoints) : Option Nat :=
  if digits.length = 4 then digits.text?.bind (Decimal.natIn? 16 0) else none

/-- The character of two units, the first of which needs a second. -/
def pairOf (high low : Nat) : CodePoint :=
  .ofCode (0x10000 + (high - 0xD800) * 0x400 + (low - 0xDC00))

def isHigh (unit : Nat) : Bool := 0xD800 ≤ unit && unit < 0xDC00

def isLow (unit : Nat) : Bool := 0xDC00 ≤ unit && unit < 0xE000

def escape? : Char → Option Char
  | '"' => some '"'
  | '\\' => some '\\'
  | '/' => some '/'
  | 'b' => some '\x08'
  | 'f' => some '\x0c'
  | 'n' => some '\n'
  | 'r' => some '\r'
  | 't' => some '\t'
  | _ => none

/-- The next code point of a string's inside behind a backslash, and the text behind it. -/
def readEscape? : CodePoints → Option (CodePoint × CodePoints)
  | .ofChar 'u' :: text => do
      let unit ← unit? (text.take 4)
      let rest := text.drop 4
      match rest with
      | .ofChar '\\' :: .ofChar 'u' :: more =>
          match unit? (more.take 4) with
          | some low =>
              if isHigh unit && isLow low then pure (pairOf unit low, more.drop 4)
              else pure (.ofCode unit, rest)
          | none => pure (.ofCode unit, rest)
      | _ => pure (.ofCode unit, rest)
  | .ofChar char :: text => (escape? char).map fun meaning => (.ofChar meaning, text)
  | _ => none

def readString : (fuel : Nat) → CodePoints → Except JsonFlaw (CodePoints × CodePoints)
  | 0, _ => .error .malformed
  | _ + 1, [] => .error .malformed
  | _ + 1, .ofChar '"' :: text => .ok ([], text)
  | fuel + 1, .ofChar '\\' :: text =>
      match readEscape? text with
      | none => .error .malformed
      | some (point, rest) =>
          (readString fuel rest).map fun (inside, rest) => (point :: inside, rest)
  | fuel + 1, point :: text =>
      if point.code < 0x20 then .error .malformed
      else (readString fuel text).map fun (inside, rest) => (point :: inside, rest)

def isDigit (point : CodePoint) : Bool := point.char?.any fun char => '0' ≤ char && char ≤ '9'

def digits (text : CodePoints) : Text × CodePoints :=
  ((text.takeWhile isDigit).filterMap CodePoint.char?, text.dropWhile isDigit)

def fraction (text : CodePoints) : Text × CodePoints :=
  match text with
  | .ofChar '.' :: rest =>
      let (places, behind) := digits rest
      if places.isEmpty then ([], text) else ('.' :: places, behind)
  | _ => ([], text)

def exponent (text : CodePoints) : Text × CodePoints :=
  match text with
  | .ofChar mark :: rest =>
      if mark = 'e' || mark = 'E' then
        let (sign, rest) : Text × CodePoints :=
          match rest with
          | .ofChar '+' :: rest => (['+'], rest)
          | .ofChar '-' :: rest => (['-'], rest)
          | rest => ([], rest)
        let (places, behind) := digits rest
        if places.isEmpty then ([], text) else (mark :: sign ++ places, behind)
      else ([], text)
  | _ => ([], text)

def readUnsigned (text : CodePoints) : Except JsonFlaw (Text × CodePoints) :=
  let (whole, rest) : Text × CodePoints :=
    match text with
    | .ofChar '0' :: rest => (['0'], rest)
    | text => digits text
  if whole.isEmpty then .error .malformed
  else
    let (places, rest) := fraction rest
    let (power, rest) := exponent rest
    if places.isEmpty && power.isEmpty && Decimal.maxDigits < whole.length then .error .longInteger
    else .ok (whole ++ places ++ power, rest)

def words : List (Text × JsonValue) :=
  [("null".toList, .null), ("true".toList, .bool true), ("false".toList, .bool false),
    ("NaN".toList, .number "NaN".toList), ("Infinity".toList, .number "Infinity".toList),
    ("-Infinity".toList, .number "-Infinity".toList)]

def readWord? (text : CodePoints) : Option (JsonValue × CodePoints) :=
  words.findSome? fun (word, value) =>
    if (CodePoints.ofText word).isPrefixOf text then some (value, text.drop word.length) else none

def readNumber (text : CodePoints) : Except JsonFlaw (JsonValue × CodePoints) :=
  match text with
  | .ofChar '-' :: text =>
      (readUnsigned text).map fun (written, rest) => (.number ('-' :: written), rest)
  | text => (readUnsigned text).map fun (written, rest) => (.number written, rest)

mutual

/--
The value at the start of a text and what follows it; `fuel` bounds the steps, and `levels` is
the number of arrays and objects that may still be opened.
-/
def readValue : (fuel levels : Nat) → CodePoints → Except JsonFlaw (JsonValue × CodePoints)
  | 0, _, _ => .error .malformed
  | fuel + 1, _, .ofChar '"' :: text =>
      (readString (fuel + 1) text).map fun (inside, rest) => (.string inside, rest)
  | _ + 1, 0, .ofChar '[' :: _ => .error (.tooDeep .array)
  | _ + 1, 0, .ofChar '\x7b' :: _ => .error (.tooDeep .object)
  | fuel + 1, levels + 1, .ofChar '[' :: text =>
      match skipSpace text with
      | .ofChar ']' :: rest => .ok (.array [], rest)
      | text => (readItems fuel levels text).map fun (items, rest) => (.array items, rest)
  | fuel + 1, levels + 1, .ofChar '\x7b' :: text =>
      match skipSpace text with
      | .ofChar '\x7d' :: rest => .ok (.object [], rest)
      | text => (readMembers fuel levels text).map fun (members, rest) => (.object members, rest)
  | _ + 1, _, text =>
      match readWord? text with
      | some found => .ok found
      | none => readNumber text

def readItems : (fuel levels : Nat) → CodePoints → Except JsonFlaw (List JsonValue × CodePoints)
  | 0, _, _ => .error .malformed
  | fuel + 1, levels, text => do
      let (first, rest) ← readValue fuel levels text
      match skipSpace rest with
      | .ofChar ']' :: rest => pure ([first], rest)
      | .ofChar ',' :: rest =>
          let (items, rest) ← readItems fuel levels (skipSpace rest)
          pure (first :: items, rest)
      | _ => throw .malformed

def readMembers : (fuel levels : Nat) → CodePoints →
    Except JsonFlaw (List (CodePoints × JsonValue) × CodePoints)
  | 0, _, _ => .error .malformed
  | fuel + 1, levels, text => do
      let .ofChar '"' :: text := text | throw .malformed
      let (key, rest) ← readString (fuel + 1) text
      let .ofChar ':' :: rest := skipSpace rest | throw .malformed
      let (value, rest) ← readValue fuel levels (skipSpace rest)
      match skipSpace rest with
      | .ofChar '\x7d' :: rest => pure ([(key, value)], rest)
      | .ofChar ',' :: rest =>
          let (members, rest) ← readMembers fuel levels (skipSpace rest)
          pure ((key, value) :: members, rest)
      | _ => throw .malformed

end

/-- The value that some code points write, where no more than some levels may be open at a time. -/
def ofPoints (levels : Nat) (text : CodePoints) : Except JsonFlaw JsonValue := do
  let (value, rest) ← readValue (2 * text.length + 1) levels (skipSpace text)
  if (skipSpace rest).isEmpty then pure value else throw .malformed

def ofText (levels : Nat) (text : Text) : Except JsonFlaw JsonValue :=
  ofPoints levels (CodePoints.ofText text)

end JsonValue

end SwiftWorkspace
