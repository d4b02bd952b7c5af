import SwiftWorkspace.Yaml.Time

/-!
# Tags

A tag says what kind of value a node stands for.  A plain scalar without a tag
gets one from its form; other nodes without a tag are text, sequences or
mappings.
-/

namespace SwiftWorkspace

namespace Yaml

inductive Tag where
  | null
  | bool
  | int
  | float
  | binary
  | timestamp
  | string
  | sequence
  | mapping
  | set
  /-- A sequence of mappings with one entry each, whose keys are in order. -/
  | orderedMapping
  /-- A sequence of mappings with one entry each. -/
  | pairs
  /-- The key under which a mapping takes over the entries of others. -/
  | merge
  /-- The key under which a mapping has its value as a scalar. -/
  | value
  /-- A tag that stands for no kind of value. -/
  | unknown
  deriving DecidableEq, Repr

namespace Tag

def standardHandle : Text := "tag:yaml.org,2002:".toList

/-- The tags by their names behind the standard handle. -/
def names : List (Text × Tag) :=
  [("null".toList, .null), ("bool".toList, .bool), ("int".toList, .int), ("float".toList, .float),
    ("binary".toList, .binary), ("timestamp".toList, .timestamp), ("str".toList, .string),
    ("seq".toList, .sequence), ("map".toList, .mapping), ("set".toList, .set),
    ("omap".toList, .orderedMapping), ("pairs".toList, .pairs), ("merge".toList, .merge),
    ("value".toList, .value)]

def ofText (text : Text) : Tag :=
  ((Text.after? standardHandle text).bind fun name => names.lookup name).getD .unknown

def unsigned : Text → Text
  | '-' :: text => text
  | '+' :: text => text
  | text => text

def isCased (word text : Text) : Bool :=
  let capitals := word.map Char.toUpper
  text = word || text = capitals || text = capitals.take 1 ++ word.drop 1

def isDigitOrGap (char : Char) : Bool := char.isDigit || char = '_'

def isDigits (text : Text) : Bool := text.head?.any Char.isDigit && text.all isDigitOrGap

def isSixtieth : Text → Bool
  | [ones] => ones.isDigit
  | [tens, ones] => '0' ≤ tens && tens ≤ '5' && ones.isDigit
  | _ => false

def colonParts (text : Text) : List Text := text.splitOn ':'

def isSexagesimal (isWhole : Text → Bool) (text : Text) : Bool :=
  match colonParts text with
  | whole :: first :: rest => isWhole whole && (first :: rest).all isSixtieth
  | _ => false

def isInt (text : Text) : Bool :=
  let isPositive (whole : Text) : Bool := isDigits whole && whole.head? ≠ some '0'
  match unsigned text with
  | '0' :: 'b' :: rest => !rest.isEmpty && rest.all ['0', '1', '_'].elem
  | '0' :: 'x' :: rest =>
      !rest.isEmpty && rest.all fun char => char = '_' || (Decimal.digitIn? 16 char).isSome
  | '0' :: rest => rest.all fun char => char = '_' || ('0' ≤ char && char ≤ '7')
  | rest => isPositive rest || isSexagesimal isPositive rest

def isExponent : Text → Bool
  | [] => true
  | mark :: sign :: digits =>
      (mark = 'e' || mark = 'E') && (sign = '-' || sign = '+') && !digits.isEmpty &&
        digits.all Char.isDigit
  | _ => false

def isFloat (text : Text) : Bool :=
  match Text.cut? '.' (unsigned text) with
  | none => false
  | some (whole, fraction) =>
      let isSigned := unsigned text ≠ text
      if whole.isEmpty then
        isCased "inf".toList fraction ||
          (!isSigned &&
            (["nan".toList, "NaN".toList, "NAN".toList].elem fraction ||
              (fraction.head?.any Char.isDigit && isExponent (fraction.dropWhile isDigitOrGap))))
      else
        (isDigits whole && isExponent (fraction.dropWhile isDigitOrGap)) ||
          (isSexagesimal isDigits whole && fraction.all isDigitOrGap)

/-- Whether the text has the form of a date or a time; a lone date has all its ten characters. -/
def isTimestamp (text : Text) : Bool :=
  match Time.ofText? text with
  | some time => time.clock.isSome || text.length = 10
  | none => false

def boolWords : List (Text × Bool) :=
  [("yes".toList, true), ("no".toList, false), ("true".toList, true), ("false".toList, false),
    ("on".toList, true), ("off".toList, false)]

def isBool (text : Text) : Bool := boolWords.any fun (word, _) => isCased word text

def isNull (text : Text) : Bool := text = ['~'] || isCased "null".toList text

def dropLineFeed (text : Text) : Text :=
  if text.getLast? = some '\n' then text.dropLast else text

/--
The tag of a plain scalar without one; a line feed at its end does not count.  The
marks of tags, anchors and aliases stand for nothing.
-/
def ofPlain (text : Text) : Tag :=
  let body := dropLineFeed text
  if isBool body then .bool
  else if isFloat body then .float
  else if isInt body then .int
  else if body = ['<', '<'] then .merge
  else if text.isEmpty || isNull body then .null
  else if isTimestamp body then .timestamp
  else if body = ['='] then .value
  else if [['!'], ['&'], ['*']].elem body then .unknown
  else .string

end Tag

end Yaml

end SwiftWorkspace
