import SwiftWorkspace.Text.Blank
import SwiftWorkspace.Text.Digit
import SwiftWorkspace.Text.Word

/-!
# References to dependencies

A dependency is referred to by the address of its repository, by a path, or by
a short name.  Every reference has a canonical name: the last segment of an
address or a path, without the suffix of a repository archive.
-/

namespace SwiftWorkspace

namespace Reference

/-- Whether the character may stand in the scheme of an address behind its first letter. -/
def isSchemeChar (char : Char) : Bool :=
  isAsciiLetter char || isAsciiDigit char || char = '+' || char = '.' || char = '-'

/-- Whether the character may stand in a host or user name, dots included. -/
def isHostChar (char : Char) : Bool := isWordChar char || char = '.' || char = '-'

def hasScheme : Text → Bool
  | [] => false
  | first :: rest =>
      isAsciiLetter first && (rest.dropWhile isSchemeChar).take 3 = [':', '/', '/']

def hasUserHost (text : Text) : Bool :=
  match text.takeWhile isHostChar, text.dropWhile isHostChar with
  | _ :: _, '@' :: rest =>
      !(rest.takeWhile isHostChar).isEmpty && (rest.dropWhile isHostChar).head? = some ':'
  | _, _ => false

def isDomain (labels : List Text) : Bool :=
  match labels.getLast? with
  | some last =>
      2 ≤ labels.length && labels.all (!·.isEmpty) && 2 ≤ last.length && last.all isAsciiLetter
  | none => false

def startsPath : Text → Bool
  | '/' :: _ => true
  | ':' :: rest =>
      !(rest.takeWhile isDecimalDigit).isEmpty && (rest.dropWhile isDecimalDigit).head? = some '/'
  | _ => false

def hasHost (text : Text) : Bool :=
  isDomain ((text.takeWhile isHostChar).splitOn '.') && startsPath (text.dropWhile isHostChar)

/-- Whether the reference looks like the address of a repository. -/
def isRemote (reference : Text) : Bool :=
  let candidate := reference.strip
  hasScheme candidate || hasUserHost candidate || hasHost candidate

def archiveSuffix : Text := ['.', 'g', 'i', 't']

def withoutArchiveSuffix (segment : Text) : Text :=
  if archiveSuffix.isSuffixOf segment then segment.take (segment.length - archiveSuffix.length)
  else segment

/-- The parts of an address between slashes and colons. -/
def segments (address : Text) : List Text :=
  address.splitOnP fun char => char = '/' || char = ':'

/-- The last segment of an address that names something, or the whole address. -/
def repositoryName (address : Text) : Text :=
  let trimmed := Text.trimEnd (· = '/') address
  ((((segments trimmed).reverse.map withoutArchiveSuffix).find? (!·.isEmpty))).getD trimmed

def directoryName (path : Text) : Text :=
  let trimmed := Text.trimEnd (· = '/') (Text.replace '\\' '/' path)
  let segment := ((trimmed.splitOn '/').getLast?).getD []
  if segment.isEmpty then path else segment

/-- The short name that a reference of any form stands for. -/
def canonicalName (reference : Text) : Text :=
  let candidate := reference.strip
  if candidate.isEmpty then candidate
  else if isRemote candidate then repositoryName candidate
  else if candidate.elem '/' || candidate.elem '\\' then directoryName candidate
  else candidate

end Reference

end SwiftWorkspace
