import SwiftWorkspace.Base64
import SwiftWorkspace.Text.Lower
import SwiftWorkspace.Yaml.Tag

/-!
# Scalar values

The value of a scalar is read from its text in the way that its tag asks for.  A
text that does not write such a value is a flaw of the document.
-/

namespace SwiftWorkspace

namespace Yaml

inductive Scalar where
  | null
  | bool (value : Bool)
  | int (value : Int)
  | float (value : Float)
  | binary (octets : Bytes)
  | timestamp (time : Time)
  | string (text : Text)
  deriving Repr

namespace Scalar

def dropGaps (text : Text) : Text := text.filter (· ≠ '_')

def readSign (text : Text) : Except Flaw (Bool × Text) :=
  if text.isEmpty then .error .emptyNumber else .ok (Decimal.sign text)

def readIn (base : Nat) (text : Text) : Except Flaw Int :=
  match Decimal.readInt base text with
  | .ok value => .ok value
  | .error .notInteger => .error (.notInteger base text)
  | .error (.tooLong digits) => .error (.longInteger digits)

/-- The integer without sign that a text writes: its base shows at its start. -/
def readUnsignedInt (text : Text) : Except Flaw Int :=
  match text with
  | [] => .error .emptyNumber
  | ['0'] => .ok 0
  | '0' :: 'b' :: digits => readIn 2 digits
  | '0' :: 'x' :: digits => readIn 16 digits
  | '0' :: _ => readIn 8 text
  | _ =>
      if text.elem ':' then do
        let parts ← (Tag.colonParts text).mapM (readIn 10)
        pure (parts.foldl (fun value part => value * 60 + part) 0)
      else readIn 10 text

def readInt (text : Text) : Except Flaw Int := do
  let (negative, digits) ← readSign (dropGaps text)
  let value ← readUnsignedInt digits
  pure (if negative then -value else value)

/-- The float that a text writes without words and parts of sixty. -/
def readPlainFloat (text : Text) : Except Flaw Float :=
  match Decimal.readFloat? text with
  | some value => .ok value
  | none => .error (.notFloat text)

def sumSixtieths : (base : Nat) → (sum : Float) → List Float → Except Flaw Float
  | _, sum, [] => .ok sum
  | base, sum, part :: parts =>
      match Decimal.ofInt? base with
      | some weight => sumSixtieths (base * 60) (sum + part * weight) parts
      | none => .error .hugeFloat

/-- The float without sign that a text writes in small letters. -/
def readUnsignedFloat (text : Text) : Except Flaw Float :=
  if text = ".inf".toList then .ok (1.0 / 0.0)
  else if text = ".nan".toList then .ok (0.0 / 0.0)
  else if text.elem ':' then do
    let parts ← (Tag.colonParts text).mapM readPlainFloat
    sumSixtieths 1 0.0 parts.reverse
  else readPlainFloat text

def readFloat (text : Text) : Except Flaw Float := do
  let (negative, digits) ← readSign (dropGaps text).lower
  let value ← readUnsignedFloat digits
  pure (if negative then -value else value)

def readBool (text : Text) : Except Flaw Bool :=
  let lowered := text.lower
  match Tag.boolWords.lookup lowered with
  | some value => .ok value
  | none => .error (.notBool lowered)

def readBinary (text : Text) : Except Flaw Bytes :=
  if text.any fun char => 0x80 ≤ char.toNat then .error .malformed
  else
    match Base64.decode? text with
    | some octets => .ok octets
    | none => .error .malformed

def readTimestamp (text : Text) : Except Flaw Time :=
  match Time.ofText? (Tag.dropLineFeed text) with
  | none => .error .notTime
  | some time =>
      match time.flaw? with
      | some flaw => .error (.badTime flaw)
      | none => .ok time

/-- The value that a text writes as a scalar with a tag. -/
def read (tag : Tag) (text : Text) : Except Flaw Scalar :=
  match tag with
  | .null => .ok .null
  | .bool => (readBool text).map bool
  | .int => (readInt text).map int
  | .float => (readFloat text).map float
  | .binary => (readBinary text).map binary
  | .timestamp => (readTimestamp text).map timestamp
  | .string => .ok (.string text)
  | _ => .error .malformed

end Scalar

end Yaml

end SwiftWorkspace
