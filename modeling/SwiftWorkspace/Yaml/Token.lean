import SwiftWorkspace.Yaml.Cursor
import SwiftWorkspace.Yaml.Flaw

/-!
# Tokens

The tokens of a YAML text.  Indentation shows in tokens of its own: block
collections have a start, where their first entry is found, and an end, where
the indentation falls back.
-/

namespace SwiftWorkspace

namespace Yaml

inductive Directive where
  /-- The version of the format that the document is written in. -/
  | version (major : Nat)
  /-- What a tag handle stands for. -/
  | handle (handle replacement : Text)
  /-- A directive without meaning. -/
  | other
  deriving DecidableEq, Repr

inductive Token where
  | streamEnd
  | directive (directive : Directive)
  | documentStart
  | documentEnd
  | blockSequenceStart
  | blockMappingStart
  | blockEnd
  | blockEntry
  | flowSequenceStart
  | flowSequenceEnd
  | flowMappingStart
  | flowMappingEnd
  | flowEntry
  | key
  | value
  | alias (name : Text)
  | anchor (name : Text)
  /-- A tag with its handle, unless it is written out. -/
  | tag (handle : Option Text) (suffix : Text)
  /-- A scalar, and whether it has no quotation marks or other indicator. -/
  | scalar (text : Text) (plain : Bool)
  /-- The place from which on the text cannot be read. -/
  | invalid (flaw : Flaw)
  deriving DecidableEq, Repr

end Yaml

end SwiftWorkspace
