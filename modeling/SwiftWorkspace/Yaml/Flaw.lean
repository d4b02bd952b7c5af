import SwiftWorkspace.Text.Printable

/-!
# Flaws of YAML documents

Why a text is not a YAML document with plain values.  Most flaws are of the
text's form; the others are scalars that do not write a value of the kind that
their tag asks for.
-/

namespace SwiftWorkspace

namespace Yaml

inductive TimeFlaw where
  | year
  | month
  | day
  | hour
  | minute
  | second
  /-- The distance to universal time, in seconds, is a day or more. -/
  | zone (seconds : Int)
  deriving DecidableEq, Repr

/-- Why a text is not a YAML document with plain values. -/
inductive Flaw where
  /-- The text is not a single document, or some node cannot be read. -/
  | malformed
  /-- No character has this code. -/
  | notChar (code : Nat)
  /-- The text is not an integer in the base. -/
  | notInteger (base : Nat) (text : Text)
  /-- The number has so many parts of sixty that they outgrow all floats. -/
  | hugeFloat
  /-- A mapping is its own value as a scalar. -/
  | endless
  /-- The integer has too many digits. -/
  | longInteger (digits : Nat)
  /-- The text is not a float. -/
  | notFloat (text : Text)
  /-- The text is not a word for true or false. -/
  | notBool (text : Text)
  /-- The number has no digits at all. -/
  | emptyNumber
  /-- The text is not a date or a time. -/
  | notTime
  /-- A date or a time is the value of a mapping. -/
  | timeInMapping
  /-- A part of the time is out of range. -/
  | badTime (flaw : TimeFlaw)
  deriving DecidableEq, Repr

namespace TimeFlaw

def durationText (seconds : Int) : String :=
  let days := seconds.fdiv 86400
  let rest := seconds.fmod 86400
  if rest = 0 then s!"datetime.timedelta(days={days})"
  else s!"datetime.timedelta(days={days}, seconds={rest})"

def message : TimeFlaw → String
  | .year => "year 0 is out of range"
  | .month => "month must be in 1..12"
  | .day => "day is out of range for month"
  | .hour => "hour must be in 0..23"
  | .minute => "minute must be in 0..59"
  | .second => "second must be in 0..59"
  | .zone seconds =>
      "offset must be a timedelta strictly between -timedelta(hours=24) and " ++
        s!"timedelta(hours=24), not {durationText seconds}."

end TimeFlaw

namespace Flaw

def name : Flaw → String
  | .malformed => "YAMLError"
  | .notChar code => if code < 0x80000000 then "ValueError" else "OverflowError"
  | .notBool _ => "KeyError"
  | .emptyNumber => "IndexError"
  | .notTime => "AttributeError"
  | .timeInMapping => "TypeError"
  | .hugeFloat => "OverflowError"
  | .endless => "RecursionError"
  | .notInteger .. | .longInteger _ | .notFloat _ | .badTime _ => "ValueError"

def message : Flaw → String
  | .malformed => "malformed document"
  | .notChar code =>
      if code < 0x80000000 then "chr() arg not in range(0x110000)"
      else "Python int too large to convert to C int"
  | .notInteger base text =>
      let shown := Text.asString (text.quoted.take 200)
      s!"invalid literal for int() with base {base}: {shown}"
  | .longInteger digits =>
      "Exceeds the limit (4300 digits) for integer string conversion: " ++
        s!"value has {digits} digits; use sys.set_int_max_str_digits() to increase the limit"
  | .notFloat text => s!"could not convert string to float: {text.quoted.asString}"
  | .notBool text => text.quoted.asString
  | .hugeFloat => "int too large to convert to float"
  | .endless => "maximum recursion depth exceeded"
  | .emptyNumber => "string index out of range"
  | .notTime => "'NoneType' object has no attribute 'groupdict'"
  | .timeInMapping => "expected string or bytes-like object, got 'list'"
  | .badTime flaw => flaw.message

end Flaw

end Yaml

end SwiftWorkspace
