import SwiftWorkspace.Json.Reading
import SwiftWorkspace.Text.Utf8

/-!
# JSON as octets

A JSON text may be sent in octets of three widths.  It begins with two ASCII
characters, so the null octets among the first four tell the width and the order
of the octets.
-/

namespace SwiftWorkspace

namespace JsonValue

inductive OctetOrder where
  | littleFirst
  | bigFirst
  deriving DecidableEq, Repr

inductive OctetForm where
  | utf8
  | utf16 (order : OctetOrder)
  | utf32 (order : OctetOrder)
  deriving DecidableEq, Repr

namespace OctetOrder

def number (order : OctetOrder) (octets : Bytes) : Nat :=
  let digits := match order with
    | .littleFirst => octets.reverse
    | .bigFirst => octets
  digits.foldl (fun value octet => value * 256 + octet.toNat) 0

end OctetOrder

namespace OctetForm

def ofOctets : Bytes → OctetForm
  | a :: b :: c :: d :: _ =>
      if a = 0 then if b = 0 then .utf32 .bigFirst else .utf16 .bigFirst
      else if b = 0 then if c = 0 && d = 0 then .utf32 .littleFirst else .utf16 .littleFirst
      else .utf8
  | [a, b] => if a = 0 then .utf16 .bigFirst else if b = 0 then .utf16 .littleFirst else .utf8
  | _ => .utf8

end OctetForm

def units16? (order : OctetOrder) : Bytes → Option (List Nat)
  | [] => some []
  | a :: b :: octets => (units16? order octets).map (order.number [a, b] :: ·)
  | _ => none

def units32? (order : OctetOrder) : Bytes → Option (List Nat)
  | [] => some []
  | a :: b :: c :: d :: octets => (units32? order octets).map (order.number [a, b, c, d] :: ·)
  | _ => none

def pointsOfUnits : List Nat → CodePoints
  | [] => []
  | [unit] => [.ofCode unit]
  | high :: low :: units =>
      if isHigh high && isLow low then pairOf high low :: pointsOfUnits units
      else .ofCode high :: pointsOfUnits (low :: units)

/-- The code points that some octets write; a mark of the byte order in front does not count. -/
def pointsOfOctets? (octets : Bytes) : Option CodePoints :=
  match OctetForm.ofOctets octets with
  | .utf8 =>
      match Utf8.decode octets with
      | .ok ('\uFEFF' :: text) => some (CodePoints.ofText text)
      | .ok text => some (CodePoints.ofText text)
      | .error _ => none
  | .utf16 order => (units16? order octets).map pointsOfUnits
  | .utf32 order => do
      let units ← units32? order octets
      if units.all (· ≤ 0x10FFFF) then some (units.map CodePoint.ofCode) else none

def ofOctets (levels : Nat) (octets : Bytes) : Except JsonFlaw JsonValue :=
  match pointsOfOctets? octets with
  | some text => ofPoints levels text
  | none => .error .undecodable

end JsonValue

end SwiftWorkspace
