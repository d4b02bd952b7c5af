import SwiftWorkspace.Text.Utf8

/-!
# Octets in base 64

Four characters of an alphabet of sixty-four write three octets.  Characters
outside of the alphabet do not count, and padding ends the octets early.
-/

namespace SwiftWorkspace

namespace Base64

def digit? (char : Char) : Option Nat :=
  let code := char.toNat
  if 'A' ≤ char && char ≤ 'Z' then some (code - 'A'.toNat)
  else if 'a' ≤ char && char ≤ 'z' then some (code - 'a'.toNat + 26)
  else if '0' ≤ char && char ≤ '9' then some (code - '0'.toNat + 52)
  else if char = '+' then some 62
  else if char = '/' then some 63
  else none

def lastOctet? : List Nat → Option UInt8
  | [second, first] => some (first * 4 + second / 16).toUInt8
  | [third, second, _] => some (second * 16 + third / 4).toUInt8
  | [fourth, third, _, _] => some (third * 64 + fourth).toUInt8
  | _ => none

/--
The octets that a text writes, given the digits of the unfinished group, the
last one first, and the number of padding characters behind them.
-/
def decodeFrom? : (group : List Nat) → (padding : Nat) → Text → Option Bytes
  | group, _, [] => if group.isEmpty then some [] else none
  | group, padding, char :: text =>
      if char = '=' then
        if 2 ≤ group.length then
          if 4 ≤ group.length + padding + 1 then some []
          else decodeFrom? group (padding + 1) text
        else decodeFrom? group padding text
      else
        match digit? char with
        | none => decodeFrom? group padding text
        | some digit =>
            let group := digit :: group
            let rest := decodeFrom? (if group.length = 4 then [] else group) 0 text
            match lastOctet? group with
            | some octet => rest.map (octet :: ·)
            | none => rest

/-- The octets that a text writes, if no group of four is unfinished. -/
def decode? (text : Text) : Option Bytes := decodeFrom? [] 0 text

end Base64

end SwiftWorkspace
