import SwiftWorkspace.Text.Basic

/-!
# Shortest decimals

A binary floating-point number stands for all reals that round to it.  Its
shortest decimal is the one with the fewest digits among those reals and, of
several with that many digits, the one nearest to the number.
-/

namespace SwiftWorkspace

namespace Decimal

structure Binary where
  mantissa : Nat
  exponent : Int
  /-- Whether the number below is half as far away as the number above. -/
  narrowBelow : Bool
  deriving DecidableEq, Repr

structure Scaled where
  digits : Nat
  exponent : Int
  deriving DecidableEq, Repr

namespace Binary

/-- The number with the given bits, its sign left out; the bits are those of a finite number. -/
def ofBits (bits : UInt64) : Binary :=
  let field := ((bits >>> 52) &&& 0x7FF).toNat
  let fraction := (bits &&& 0xFFFFFFFFFFFFF).toNat
  if field = 0 then ⟨fraction, -1074, false⟩
  else ⟨Nat.pow 2 52 + fraction, (field : Int) - 1075, fraction = 0 && 1 < field⟩

def ratio (factor : Nat) (exponent : Int) : Nat × Nat :=
  (factor * Nat.pow 2 exponent.toNat, Nat.pow 2 (-exponent).toNat)

def ratioOf (decimal : Scaled) : Nat × Nat :=
  (decimal.digits * Nat.pow 10 decimal.exponent.toNat, Nat.pow 10 (-decimal.exponent).toNat)

def isBelow (equal : Bool) (left right : Nat × Nat) : Bool :=
  left.1 * right.2 < right.1 * left.2 || (equal && left.1 * right.2 = right.1 * left.2)

def roundsFrom (number : Binary) (decimal : Scaled) : Bool :=
  let low := if number.narrowBelow then 4 * number.mantissa - 1 else 4 * number.mantissa - 2
  let high := 4 * number.mantissa + 2
  let even := number.mantissa % 2 = 0
  isBelow even (ratio low (number.exponent - 2)) (ratioOf decimal) &&
    isBelow even (ratioOf decimal) (ratio high (number.exponent - 2))

def floorAt (number : Binary) (exponent : Int) : Scaled :=
  let (above, below) := ratio number.mantissa number.exponent
  ⟨above * Nat.pow 10 (-exponent).toNat / (below * Nat.pow 10 exponent.toNat), exponent⟩

/-- The least exponent of ten whose power is above the number, for a number that is not zero. -/
def scale (number : Binary) : Int :=
  let whole := (floorAt number 0).digits
  if 0 < whole then (Text.ofNat whole).length
  else
    let places := (List.range 400).find? fun places =>
      0 < (floorAt number (Int.negSucc places)).digits
    Int.negOfNat (places.getD 400)

/-- Of the decimal below a number and the next one above, those that round to the number. -/
def candidates (number : Binary) (exponent : Int) : List Scaled :=
  let low := floorAt number exponent
  let high : Scaled := ⟨low.digits + 1, exponent⟩
  let (above, below) := ratio number.mantissa number.exponent
  let twice := (2 * above, below)
  let middle := ratioOf ⟨low.digits + high.digits, exponent⟩
  let lowFirst := isBelow (low.digits % 2 = 0) twice middle
  (if lowFirst then [low, high] else [high, low]).filter number.roundsFrom

def shortest (number : Binary) : Scaled :=
  let top := number.scale
  let found := (List.range 17).findSome? fun count =>
    (number.candidates (top - Int.ofNat (count + 1))).head?
  found.getD (number.floorAt number.exponent)

end Binary

def dropZeros : (count : Nat) → Scaled → Scaled
  | 0, decimal => decimal
  | count + 1, decimal =>
      if decimal.digits ≠ 0 && decimal.digits % 10 = 0 then
        dropZeros count ⟨decimal.digits / 10, decimal.exponent + 1⟩
      else decimal

/-- The exponent of a number in scientific notation: a sign and at least two digits. -/
def exponentText (exponent : Int) : Text :=
  let digits := Text.ofNat exponent.natAbs
  (if exponent < 0 then '-' else '+') :: (if digits.length < 2 then '0' :: digits else digits)

/--
A decimal as text: positional with at least one decimal place when the point
falls no further than sixteen places behind the first digit or three places
before it, scientific otherwise.
-/
def layout (decimal : Scaled) : Text :=
  let decimal := dropZeros 20 decimal
  let digits := Text.ofNat decimal.digits
  let point := (digits.length : Int) + decimal.exponent
  if -4 < point && point ≤ 16 then
    if point ≤ 0 then '0' :: '.' :: List.replicate (-point).toNat '0' ++ digits
    else
      let whole := digits ++ List.replicate (point.toNat - digits.length) '0'
      let fraction := digits.drop point.toNat
      whole.take point.toNat ++ '.' :: (if fraction.isEmpty then ['0'] else fraction)
  else
    let fraction := digits.drop 1
    digits.take 1 ++ (if fraction.isEmpty then [] else '.' :: fraction) ++
      'e' :: exponentText (point - 1)

def ofFloat (number : Float) : Text :=
  if number.isNaN then "nan".toList
  else
    let bits := number.toBits
    let sign : Text := if (bits >>> 63) = 1 then ['-'] else []
    if number.isInf then sign ++ "inf".toList
    else
      let binary := Binary.ofBits (bits &&& 0x7FFFFFFFFFFFFFFF)
      if binary.mantissa = 0 then sign ++ "0.0".toList else sign ++ layout binary.shortest

end Decimal

end SwiftWorkspace
