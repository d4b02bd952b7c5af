import SwiftWorkspace.Text.Basic
import SwiftWorkspace.Text.Ranges

/-!
# Blank characters

A character is blank when the Unicode standard gives it the property
`White_Space` or when it is one of the four information separators.
-/

namespace SwiftWorkspace

def blankRanges : CodeRanges :=
  [(0x9, 0xD), (0x1C, 0x20), (0x85, 0x85), (0xA0, 0xA0), (0x1680, 0x1680), (0x2000, 0x200A),
    (0x2028, 0x2029), (0x202F, 0x202F), (0x205F, 0x205F), (0x3000, 0x3000)]

/-- Whether the character is white space or an information separator. -/
def isBlank (char : Char) : Bool := blankRanges.holds char

namespace Text

/-- Drop blank characters at both ends. -/
def strip (text : Text) : Text := trim isBlank text

def stripEnd (text : Text) : Text := trimEnd isBlank text

def allBlank (text : Text) : Bool := text.all isBlank

end Text

end SwiftWorkspace
