import SwiftWorkspace.Source.Basic

/-!
# String literals

A literal stands between single or triple quotation marks.  A backslash gives
the next character a meaning of its own: a line feed, a tab, a carriage return,
the null character, or that character itself.
-/

namespace SwiftWorkspace

namespace Literal

def escaped : Char → Char
  | 'n' => '\n'
  | 't' => '\t'
  | 'r' => '\r'
  | '0' => Char.ofNat 0
  | char => char

/-- Resolve the escapes of a literal's body; a last lone backslash stands for itself. -/
def unescape : Text → Text
  | '\\' :: char :: text => escaped char :: unescape text
  | char :: text => char :: unescape text
  | [] => []

def delimiter (literal : Text) : Text :=
  if literal.startsWith ['"', '"', '"'] then ['"', '"', '"'] else ['"']

/-- The literal without its quotation marks; the closing ones may be missing. -/
def body (literal : Text) : Text :=
  let marks := delimiter literal
  let inner := literal.drop marks.length
  if 2 * marks.length ≤ literal.length && marks.isSuffixOf inner then
    inner.take (inner.length - marks.length)
  else inner

def decode (literal : Text) : Text := unescape (body literal)

def escapedForm (char : Char) : Text :=
  if char = '\\' then ['\\', '\\'] else if char = '"' then ['\\', '"'] else [char]

/-- The literal that stands for a text. -/
def encode (text : Text) : Text := '"' :: text.flatMap escapedForm ++ ['"']

theorem unescape_escaped_append (text rest : Text) :
    unescape (text.flatMap escapedForm ++ rest) = text ++ unescape rest := by
  induction text with
  | nil => rfl
  | cons char text ih =>
      by_cases slash : char = '\\'
      · subst slash
        simpa [escapedForm, unescape, escaped] using ih
      · by_cases mark : char = '"'
        · subst mark
          simpa [escapedForm, unescape, escaped] using ih
        · simp only [List.flatMap_cons, escapedForm, slash, mark, if_false, List.cons_append,
            List.nil_append]
          rw [unescape.eq_2 _ _ (fun _ _ same _ => slash same), ih]

end Literal

namespace Source

def stringIn? (source : Source) (span : Span) : Option Text :=
  match source.cellsIn span with
  | [] => none
  | first :: rest =>
      if first.char = '"' && (first :: rest).all (·.kind = .string) then
        some (Literal.decode (source.textIn span))
      else none

/-- The run of string characters that begins with the quotation mark at `position`. -/
def literalAt? (source : Source) (position : Nat) : Option Span :=
  match source.at? position with
  | some first =>
      if first.char = '"' && first.kind = .string then
        let run := (source.cells.drop position).takeWhile (·.kind = .string)
        some ⟨position, position + run.length⟩
      else none
  | none => none

end Source

end SwiftWorkspace
