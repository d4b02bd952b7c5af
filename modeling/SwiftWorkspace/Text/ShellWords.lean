import SwiftWorkspace.Text.Basic

/-!
# Shell words

A command line is split at blanks into words.  Single quotes keep everything
inside them, double quotes everything but escaped quotes and backslashes, and a
backslash elsewhere keeps the character behind it.
-/

namespace SwiftWorkspace

namespace ShellWords

/-- Why a command line cannot be split. -/
inductive Flaw where
  /-- A quotation mark is not closed. -/
  | unclosed
  /-- Nothing follows the last backslash. -/
  | dangling
  deriving DecidableEq, Repr

namespace Flaw

def message : Flaw → String
  | .unclosed => "No closing quotation"
  | .dangling => "No escaped character"

end Flaw

/-- Where the reader stands inside a word. -/
inductive Mode where
  | plain
  | single
  | double
  deriving DecidableEq, Repr

def separates (char : Char) : Bool :=
  char = ' ' || char = '\t' || char = '\r' || char = '\n'

def splitFrom : Mode → (current : Option Text) → Text → Except Flaw (List Text)
  | .plain, current, [] => .ok (current.map List.reverse).toList
  | .single, _, [] => .error .unclosed
  | .double, _, [] => .error .unclosed
  | .single, current, '\'' :: text => splitFrom .plain (some (current.getD [])) text
  | .single, current, char :: text => splitFrom .single (some (char :: current.getD [])) text
  | .double, current, '"' :: text => splitFrom .plain (some (current.getD [])) text
  | .double, _, ['\\'] => .error .dangling
  | .double, current, '\\' :: char :: text =>
      let kept := if char = '\\' || char = '"' then [char] else [char, '\\']
      splitFrom .double (some (kept ++ current.getD [])) text
  | .double, current, char :: text => splitFrom .double (some (char :: current.getD [])) text
  | .plain, _, ['\\'] => .error .dangling
  | .plain, current, '\\' :: char :: text => splitFrom .plain (some (char :: current.getD [])) text
  | .plain, current, '\'' :: text => splitFrom .single (some (current.getD [])) text
  | .plain, current, '"' :: text => splitFrom .double (some (current.getD [])) text
  | .plain, current, char :: text =>
      if separates char then
        (splitFrom .plain none text).map ((current.map List.reverse).toList ++ ·)
      else splitFrom .plain (some (char :: current.getD [])) text

def split (text : Text) : Except Flaw (List Text) := splitFrom .plain none text

end ShellWords

end SwiftWorkspace
