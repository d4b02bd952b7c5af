import SwiftWorkspace.Text.Printable

/-!
# UTF-8

Files hold octets, texts hold characters.  Reading is strict: the first octets
that cannot be part of a character, surrogates and overlong forms included,
make the whole file unreadable.
-/

namespace SwiftWorkspace

abbrev Bytes := List UInt8

namespace Utf8

inductive Flaw where
  /-- No character begins with the octet. -/
  | invalidStart
  /-- An octet that should continue a character does not. -/
  | invalidContinuation
  /-- The content ends inside a character. -/
  | unexpectedEnd
  deriving DecidableEq, Repr

/-- Octets that are not UTF-8: the position of the first, their number, and the first one. -/
structure Invalid where
  flaw : Flaw
  position : Nat
  count : Nat
  first : UInt8
  deriving DecidableEq, Repr

namespace Flaw

def message : Flaw → String
  | .invalidStart => "invalid start byte"
  | .invalidContinuation => "invalid continuation byte"
  | .unexpectedEnd => "unexpected end of data"

end Flaw

namespace Invalid

def message (invalid : Invalid) : String :=
  let last := invalid.position + invalid.count - 1
  let place :=
    if invalid.count = 1 then
      let octet := (Text.hex 2 invalid.first.toNat).asString
      s!"byte 0x{octet} in position {invalid.position}"
    else s!"bytes in position {invalid.position}-{last}"
  s!"'utf-8' codec can't decode {place}: {invalid.flaw.message}"

end Invalid

def isTail (octet : UInt8) : Bool := 0x80 ≤ octet && octet ≤ 0xBF

def isSecond (first second : UInt8) : Bool :=
  if first = 0xE0 then 0xA0 ≤ second && second ≤ 0xBF
  else if first = 0xED then 0x80 ≤ second && second ≤ 0x9F
  else if first = 0xF0 then 0x90 ≤ second && second ≤ 0xBF
  else if first = 0xF4 then 0x80 ≤ second && second ≤ 0x8F
  else isTail second

def width? (first : UInt8) : Option Nat :=
  if first < 0x80 then some 1
  else if 0xC2 ≤ first && first ≤ 0xDF then some 2
  else if 0xE0 ≤ first && first ≤ 0xEF then some 3
  else if 0xF0 ≤ first && first ≤ 0xF4 then some 4
  else none

/-- The character of a first octet without its marks, and the payload of the following ones. -/
def assemble (start : Nat) (tail : List UInt8) : Char :=
  Char.ofNat (tail.foldl (fun code octet => code * 64 + (octet.toNat - 0x80)) start)

def decodeFrom (position : Nat) : Bytes → Except Invalid Text
  | [] => .ok []
  | a :: rest =>
      let fail (flaw : Flaw) (count : Nat) : Except Invalid Text :=
        .error ⟨flaw, position, count, a⟩
      match width? a with
      | some 1 => (decodeFrom (position + 1) rest).map (assemble a.toNat [] :: ·)
      | some 2 =>
          match rest with
          | [] => fail .unexpectedEnd 1
          | b :: rest =>
              if !isTail b then fail .invalidContinuation 1
              else (decodeFrom (position + 2) rest).map (assemble (a.toNat - 0xC0) [b] :: ·)
      | some 3 =>
          match rest with
          | [] => fail .unexpectedEnd 1
          | b :: rest =>
              if !isSecond a b then fail .invalidContinuation 1
              else
                match rest with
                | [] => fail .unexpectedEnd 2
                | c :: rest =>
                    if !isTail c then fail .invalidContinuation 2
                    else (decodeFrom (position + 3) rest).map
                      (assemble (a.toNat - 0xE0) [b, c] :: ·)
      | some _ =>
          match rest with
          | [] => fail .unexpectedEnd 1
          | b :: rest =>
              if !isSecond a b then fail .invalidContinuation 1
              else
                match rest with
                | [] => fail .unexpectedEnd 2
                | c :: rest =>
                    if !isTail c then fail .invalidContinuation 2
                    else
                      match rest with
                      | [] => fail .unexpectedEnd 3
                      | d :: rest =>
                          if !isTail d then fail .invalidContinuation 3
                          else (decodeFrom (position + 4) rest).map
                            (assemble (a.toNat - 0xF0) [b, c, d] :: ·)
      | none => fail .invalidStart 1

def decode (content : Bytes) : Except Invalid Text := decodeFrom 0 content

def encode (text : Text) : Bytes := text.flatMap String.utf8EncodeChar

end Utf8

namespace Text

/-- The text with a line feed in place of every carriage return, alone or before a line feed. -/
def withLineFeeds : Text → Text
  | [] => []
  | '\r' :: '\n' :: text => '\n' :: withLineFeeds text
  | '\r' :: text => '\n' :: withLineFeeds text
  | char :: text => char :: withLineFeeds text

end Text

end SwiftWorkspace
