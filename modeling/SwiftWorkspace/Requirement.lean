import SwiftWorkspace.Source.Literal
import SwiftWorkspace.Text.Blank
import SwiftWorkspace.Text.Digit
import SwiftWorkspace.Text.Word

/-!
# Version requirements

A requirement says which versions of a package are acceptable.  It is a bare or
quoted version, a version, branch or revision behind its label, or a range of
versions.  A version is numbers with dots between them and perhaps a suffix
behind a hyphen.
-/

namespace SwiftWorkspace

namespace Requirement

def atEnd (text : Text) : Bool := text.isEmpty || text = ['\n']

def afterDigits? (text : Text) : Option Text :=
  if (text.takeWhile isDecimalDigit).isEmpty then none else some (text.dropWhile isDecimalDigit)

def afterDotted : (count : Nat) → Text → Text
  | 0, text => text
  | count + 1, text =>
      match text with
      | '.' :: rest =>
          match afterDigits? rest with
          | some rest => afterDotted count rest
          | none => text
      | _ => text

def isSuffixChar (char : Char) : Bool := isWordChar char || char = '.'

/-- The texts behind each nonempty run of suffix characters at the start, shortest run first. -/
def suffixRests : Text → List Text
  | [] => []
  | char :: rest => if isSuffixChar char then rest :: suffixRests rest else []

/--
The texts that can follow a version at the start of a text.  The numbers are
taken whole; of the suffix any part can be taken, so that a range operator
behind it is seen.
-/
def versionRests (text : Text) : List Text :=
  match afterDigits? text with
  | none => []
  | some rest =>
      let rest := afterDotted rest.length rest
      match rest with
      | '-' :: suffix => rest :: suffixRests suffix
      | _ => [rest]

def isVersion (text : Text) : Bool := (versionRests text).any atEnd

def closesQuote : Text → Bool
  | '"' :: rest => atEnd rest
  | _ => false

def isQuotedVersion : Text → Bool
  | '"' :: rest => (versionRests rest).any closesQuote
  | _ => false

def isQuotedRun (allowed : Char → Bool) : Text → Bool
  | '"' :: rest => !(rest.takeWhile allowed).isEmpty && closesQuote (rest.dropWhile allowed)
  | _ => false

def isLabeled (label : Text) (accepts : Text → Bool) (text : Text) : Bool :=
  match Text.after? label text with
  | some rest => accepts (rest.dropWhile isBlank)
  | none => false

def isUpperBound (operator text : Text) : Bool :=
  match Text.after? operator text with
  | some rest => isVersion rest
  | none => false

def isRange (operator text : Text) : Bool := (versionRests text).any (isUpperBound operator)

def isBranchChar (char : Char) : Bool :=
  isWordChar char || char = '-' || char = '/' || char = '.'

def isRevisionChar (char : Char) : Bool :=
  ('a' ≤ char && char ≤ 'f') || isAsciiDigit char

/-- The operator of a range that leaves out its upper bound. -/
def halfOpen : Text := ['.', '.', '<']

/-- The operator of a range that includes its upper bound. -/
def closed : Text := ['.', '.', '.']

/-- Whether the text is a requirement in one of the accepted forms. -/
def isValid (text : Text) : Bool :=
  isLabeled (Text.ofString "from:") isQuotedVersion text ||
  isLabeled (Text.ofString "branch:") (isQuotedRun isBranchChar) text ||
  isLabeled (Text.ofString "revision:") (isQuotedRun isRevisionChar) text ||
  isLabeled (Text.ofString "exact:") isQuotedVersion text ||
  isVersion text ||
  isQuotedVersion text ||
  isUpperBound halfOpen text ||
  isRange halfOpen text ||
  isRange closed text

def labels : List Text := ["from:", "branch:", "revision:", "exact:"].map Text.ofString

/-- A plain pair of quotation marks around the text, whatever it holds. -/
def between (text : Text) : Text := '"' :: text ++ ['"']

def quoteRange (operator text : Text) : Text :=
  match Text.breakAt? operator text with
  | some (lower, upper) =>
      let lower := lower.strip
      (if lower.isEmpty then [] else between lower) ++ operator ++ between upper.strip
  | none => text

def render (text : Text) : Text :=
  if labels.any (Text.contains text) then text
  else if isVersion text then Text.ofString "from: " ++ between text
  else if text.startsWith ['"'] && text.endsWith ['"'] && 1 < text.length then
    Text.ofString "from: " ++ text
  else if text.contains halfOpen then quoteRange halfOpen text
  else if text.contains closed then quoteRange closed text
  else Text.ofString "from: " ++ between text

end Requirement

end SwiftWorkspace
