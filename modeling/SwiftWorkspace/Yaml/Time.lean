import SwiftWorkspace.Decimal.Reading
import SwiftWorkspace.Yaml.Flaw

/-!
# Dates and times

A date is a year, a month and a day with hyphens between them.  A time of day
may follow, with the distance to universal time behind it.
-/

namespace SwiftWorkspace

namespace Yaml

structure Clock where
  hour : Nat
  minute : Nat
  second : Nat
  /-- The distance to universal time in seconds, if one is written with a sign. -/
  zone : Option Int
  deriving DecidableEq, Repr

structure Time where
  year : Nat
  month : Nat
  day : Nat
  clock : Option Clock
  deriving DecidableEq, Repr

namespace Time

def digits? (least most : Nat) (text : Text) : Option (Nat × Text) :=
  let digits := (text.take most).takeWhile Char.isDigit
  if digits.length < least then none
  else (Decimal.natIn? 10 0 digits).map fun value => (value, text.drop digits.length)

def skip? (char : Char) : Text → Option Text := Text.after? [char]

def isSpacing (char : Char) : Bool := char = ' ' || char = '\t'

def skipSeparator? : Text → Option Text
  | 'T' :: text => some text
  | 't' :: text => some text
  | text => if text.head?.any isSpacing then some (text.dropWhile isSpacing) else none

def skipFraction : Text → Text
  | '.' :: text => text.dropWhile Char.isDigit
  | text => text

def offset? (text : Text) : Option Int := do
  let (hours, text) ← digits? 1 2 text
  if text.isEmpty then return (hours * 3600 : Nat)
  let (minutes, text) ← digits? 2 2 (← skip? ':' text)
  if text.isEmpty then some (hours * 3600 + minutes * 60 : Nat) else none

/-- The distance to universal time at the end of a time, or nothing where none has a sign. -/
def zone? (text : Text) : Option (Option Int) :=
  if text.isEmpty then some none
  else
    match text.dropWhile isSpacing with
    | ['Z'] => some none
    | '+' :: text => (offset? text).map some
    | '-' :: text => (offset? text).map fun seconds => some (-seconds)
    | _ => none

def clock? (text : Text) : Option Clock := do
  let (hour, text) ← digits? 1 2 text
  let (minute, text) ← digits? 2 2 (← skip? ':' text)
  let (second, text) ← digits? 2 2 (← skip? ':' text)
  let zone ← zone? (skipFraction text)
  pure { hour, minute, second, zone }

def ofText? (text : Text) : Option Time := do
  let (year, text) ← digits? 4 4 text
  let (month, text) ← digits? 1 2 (← skip? '-' text)
  let (day, text) ← digits? 1 2 (← skip? '-' text)
  if text.isEmpty then pure { year, month, day, clock := none }
  else
    let clock ← clock? (← skipSeparator? text)
    pure { year, month, day, clock := some clock }

def isLeap (year : Nat) : Bool := year % 4 = 0 && (year % 100 ≠ 0 || year % 400 = 0)

def daysIn (year month : Nat) : Nat :=
  if month = 2 then if isLeap year then 29 else 28
  else if month = 4 || month = 6 || month = 9 || month = 11 then 30
  else 31

def dateFlaw? (time : Time) : Option TimeFlaw :=
  if time.year = 0 then some .year
  else if time.month < 1 || 12 < time.month then some .month
  else if time.day < 1 || daysIn time.year time.month < time.day then some .day
  else none

def clockFlaw? (clock : Clock) : Option TimeFlaw :=
  if 23 < clock.hour then some .hour
  else if 59 < clock.minute then some .minute
  else if 59 < clock.second then some .second
  else none

def zoneFlaw? (clock : Clock) : Option TimeFlaw :=
  clock.zone.bind fun seconds => if 86400 ≤ seconds.natAbs then some (.zone seconds) else none

/-- The first part of the time that is out of range; the distance to universal time counts first. -/
def flaw? (time : Time) : Option TimeFlaw :=
  (time.clock.bind zoneFlaw?).or (time.dateFlaw?.or (time.clock.bind clockFlaw?))

end Time

end Yaml

end SwiftWorkspace
