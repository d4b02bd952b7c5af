import SwiftWorkspace.Decimal.Reading
import SwiftWorkspace.Text.Utf8
import SwiftWorkspace.Yaml.Token

/-!
# Names, tags and directives

An anchor names a node and an alias refers to it.  A tag says what kind of value
a node stands for; its handle is a short form that a directive can define.
-/

namespace SwiftWorkspace

namespace Yaml

def scanName (cursor : Cursor) : Except Flaw (Text × Cursor) :=
  let (name, cursor) := cursor.step.span isNameChar
  let follows := endsToken cursor.next ||
    cursor.next.any ['?', ':', ',', ']', '\x7d', '%', '@', Char.ofNat 0x60].elem
  if name.isEmpty || !follows then .error .malformed else .ok (name, cursor)

def isTagChar (char : Char) : Bool := char.isAlphanum || "-;/?:@&=+$,_.!~*'()[]%".toList.elem char

def escapedOctets : (fuel : Nat) → Cursor → Except Flaw (Bytes × Cursor)
  | 0, cursor => .ok ([], cursor)
  | fuel + 1, cursor =>
      if cursor.sees '%' then
        let digits := (cursor.rest.drop 1).take 2
        match Decimal.natIn? 16 0 digits with
        | some code =>
            if digits.length < 2 then .error .malformed
            else (escapedOctets fuel (cursor.advance 3)).map fun (octets, cursor) =>
              (code.toUInt8 :: octets, cursor)
        | none => .error .malformed
      else .ok ([], cursor)

def tagParts : (fuel : Nat) → Cursor → Except Flaw (Text × Cursor)
  | 0, cursor => .ok ([], cursor)
  | fuel + 1, cursor =>
      match cursor.next with
      | none => .ok ([], cursor)
      | some char =>
          if char = '%' then do
            let (octets, cursor) ← escapedOctets (cursor.rest.length + 1) cursor
            match Utf8.decode octets with
            | .ok part =>
                let (parts, cursor) ← tagParts fuel cursor
                pure (part ++ parts, cursor)
            | .error _ => throw .malformed
          else if isTagChar char then
            (tagParts fuel cursor.step).map fun (parts, cursor) => (char :: parts, cursor)
          else .ok ([], cursor)

def scanTagSuffix (cursor : Cursor) : Except Flaw (Text × Cursor) := do
  if !cursor.next.any isTagChar then throw .malformed
  tagParts (cursor.rest.length + 1) cursor

def scanTagHandle (cursor : Cursor) : Except Flaw (Text × Cursor) :=
  if !cursor.sees '!' then .error .malformed
  else
    let behind := cursor.step
    if behind.sees ' ' then .ok (['!'], behind)
    else
      let (name, behind) := behind.span isNameChar
      if behind.sees '!' then .ok ('!' :: name ++ ['!'], behind.step) else .error .malformed

/-- Whether an exclamation mark follows before the next space or the end of the line. -/
def hasHandle (text : Text) : Bool :=
  (text.takeWhile fun char => !endsWord (some char)).elem '!'

def scanTag (cursor : Cursor) : Except Flaw (Option Text × Text × Cursor) := do
  let behind := cursor.step
  let (handle, suffix, stop) ←
    if behind.sees '<' then do
      let (suffix, stop) ← scanTagSuffix behind.step
      if stop.sees '>' then pure (none, suffix, stop.step) else throw .malformed
    else if endsToken behind.next then pure (none, ['!'], behind)
    else if hasHandle behind.rest then do
      let (handle, stop) ← scanTagHandle cursor
      let (suffix, stop) ← scanTagSuffix stop
      pure (some handle, suffix, stop)
    else do
      let (suffix, stop) ← scanTagSuffix behind
      pure (some ['!'], suffix, stop)
  if endsWord stop.next then pure (handle, suffix, stop) else throw .malformed

def scanNumber (cursor : Cursor) : Except Flaw (Nat × Cursor) :=
  let (digits, stop) := cursor.span Char.isDigit
  if digits.isEmpty then .error .malformed
  else if Decimal.maxDigits < digits.length then .error (.longInteger digits.length)
  else .ok ((Decimal.natIn? 10 0 digits).getD 0, stop)

def scanVersion (cursor : Cursor) : Except Flaw (Directive × Cursor) := do
  let (major, cursor) ← scanNumber cursor.skipSpaces
  if !cursor.sees '.' then throw .malformed
  let (_, cursor) ← scanNumber cursor.step
  if endsWord cursor.next then pure (.version major, cursor) else throw .malformed

def scanHandle (cursor : Cursor) : Except Flaw (Directive × Cursor) := do
  let (handle, cursor) ← scanTagHandle cursor.skipSpaces
  if !cursor.sees ' ' then throw .malformed
  let (replacement, cursor) ← scanTagSuffix cursor.skipSpaces
  if endsWord cursor.next then pure (.handle handle replacement, cursor) else throw .malformed

def scanDirective (cursor : Cursor) : Except Flaw (Directive × Cursor) := do
  let (name, cursor) := cursor.step.span isNameChar
  if name.isEmpty || !endsWord cursor.next then throw .malformed
  let (directive, cursor) ←
    if name = "YAML".toList then scanVersion cursor
    else if name = "TAG".toList then scanHandle cursor
    else pure (.other, cursor.skip (!isBreak ·))
  let cursor := cursor.skipSpaces.skipComment
  if endsLine cursor.next then pure (directive, cursor.lineBreak.2) else throw .malformed

end Yaml

end SwiftWorkspace
