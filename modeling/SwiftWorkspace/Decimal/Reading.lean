import SwiftWorkspace.Text.Blank
import SwiftWorkspace.Text.Digit

/-!
# Reading numbers

Numbers in texts may have blanks around them, digits of any script, and single
underscores between digits.  An integer of more than 4300 digits is refused.
-/

namespace SwiftWorkspace

namespace Decimal

/-- The largest number of digits that an integer in base ten may be written with. -/
def maxDigits : Nat := 4300

/-- Whether the character may stand around a number: control characters that separate may not. -/
def isMargin (char : Char) : Bool := isBlank char && !('\x1c' ≤ char && char ≤ '\x1f')

def asciiDigits (text : Text) : Text :=
  text.map fun char =>
    match digitValue? char with
    | some value => Char.ofNat ('0'.toNat + value)
    | none => char

def dropUnderscores? (allowed : Char → Bool) : (before : Bool) → Text → Option Text
  | _, [] => some []
  | before, '_' :: text =>
      if before && (text.head?.any allowed) then dropUnderscores? allowed false text else none
  | _, char :: text => (dropUnderscores? allowed (allowed char) text).map (char :: ·)

def digitIn? (base : Nat) (char : Char) : Option Nat :=
  let code := char.toNat
  let value :=
    if '0' ≤ char && char ≤ '9' then code - '0'.toNat
    else if 'a' ≤ char && char ≤ 'z' then code - 'a'.toNat + 10
    else if 'A' ≤ char && char ≤ 'Z' then code - 'A'.toNat + 10
    else base
  if value < base then some value else none

def natIn? (base : Nat) : (value : Nat) → Text → Option Nat
  | value, [] => some value
  | value, char :: text =>
      match digitIn? base char with
      | some digit => natIn? base (value * base + digit) text
      | none => none

def sign : Text → Bool × Text
  | '-' :: text => (true, text)
  | '+' :: text => (false, text)
  | text => (false, text)

def baseLetter? (base : Nat) : Option Char :=
  if base = 2 then some 'b' else if base = 8 then some 'o' else if base = 16 then some 'x' else none

def dropBaseMark (base : Nat) (text : Text) : Text :=
  match baseLetter? base, text with
  | some letter, '0' :: mark :: rest =>
      if mark.toLower = letter then
        match rest with
        | '_' :: rest => rest
        | rest => rest
      else text
  | _, _ => text

inductive IntFlaw where
  /-- The text is not an integer in the base. -/
  | notInteger
  /-- The integer has more digits than allowed. -/
  | tooLong (digits : Nat)
  deriving DecidableEq, Repr

def isUnbounded (base : Nat) : Bool := base = 2 || base = 4 || base = 8 || base = 16 || base = 32

/--
The integer that a text writes in a base.  What stands behind its digits is looked
at last.
-/
def readInt (base : Nat) (text : Text) : Except IntFlaw Int :=
  let isDigit (char : Char) : Bool := (digitIn? base char).isSome
  let (negative, body) := sign ((asciiDigits text).trim isMargin)
  let body := dropBaseMark base body
  let run := body.takeWhile fun char => isDigit char || char = '_'
  match dropUnderscores? isDigit false run with
  | none | some [] => .error .notInteger
  | some digits =>
      if !isUnbounded base && maxDigits < digits.length then .error (.tooLong digits.length)
      else if run.length < body.length then .error .notInteger
      else
        match natIn? base 0 digits with
        | some value => .ok (if negative then -(value : Int) else value)
        | none => .error .notInteger

def nearestFloat (digits : Nat) (exponent : Int) : Float :=
  let top := ((Text.ofNat digits).length : Int) + exponent
  if digits = 0 || top < -400 then 0.0
  else if 400 < top then 1.0 / 0.0
  else Float.ofScientific digits (exponent < 0) exponent.natAbs

def isWord (text first second : Text) : Bool :=
  let lowered := text.map Char.toLower
  lowered = first || lowered = second

def readExponent? : Text → Option Int
  | [] => some 0
  | mark :: text =>
      if mark = 'e' || mark = 'E' then
        let (negative, digits) := sign text
        if digits.isEmpty then none
        else (natIn? 10 0 digits).map fun value => if negative then -(value : Int) else value
      else none

def readUnsigned? (text : Text) : Option Float :=
  let isDigit (char : Char) : Bool := '0' ≤ char && char ≤ '9'
  let whole := text.takeWhile isDigit
  let rest := text.dropWhile isDigit
  let (fraction, rest) :=
    match rest with
    | '.' :: rest => (rest.takeWhile isDigit, rest.dropWhile isDigit)
    | rest => ([], rest)
  if whole.isEmpty && fraction.isEmpty then none
  else do
    let exponent ← readExponent? rest
    let digits ← natIn? 10 0 (whole ++ fraction)
    pure (nearestFloat digits (exponent - fraction.length))

def readFloat? (text : Text) : Option Float :=
  let (negative, body) := sign ((asciiDigits text).trim isMargin)
  let value :=
    if isWord body "inf".toList "infinity".toList then some (1.0 / 0.0)
    else if isWord body "nan".toList "nan".toList then some (0.0 / 0.0)
    else
      (dropUnderscores? (fun char => '0' ≤ char && char ≤ '9') false body).bind readUnsigned?
  value.map fun value => if negative then -value else value

def ofInt? (value : Int) : Option Float :=
  let nearest := nearestFloat value.natAbs 0
  if nearest.isInf then none else some (if value < 0 then -nearest else nearest)

end Decimal

end SwiftWorkspace
