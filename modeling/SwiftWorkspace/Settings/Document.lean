import SwiftWorkspace.Text.Utf8

/-!
# Documents that hold settings

Settings are written as a YAML document.  How a text is read as one is not decided here: a
reader is any function from texts to values or errors, so that what is said about settings
holds whatever the reader makes of a text.
-/

namespace SwiftWorkspace

inductive DocumentValue where
  | null
  | bool (value : Bool)
  | int (value : Int)
  | float (value : Float)
  | text (text : Text)
  | octets (octets : Bytes)
  | list (items : List DocumentValue)
  /-- The values under keys that are texts, each key once. -/
  | mapping (entries : List (Text × DocumentValue))
  /-- A time, a set or another value that no setting can be. -/
  | other
  deriving Repr

/-- Why a reader makes no value of a text. -/
inductive DocumentError where
  /-- The error that the reader has for texts that are no documents. -/
  | malformed
  /-- Any other error that comes out of the reader, by its name. -/
  | raised (name message : String)
  deriving DecidableEq, Repr

/-- A reader of documents: the value of the document in a text, which is null without one. -/
abbrev DocumentReader := Text → Except DocumentError DocumentValue

namespace DocumentValue

def member? (key : Text) : DocumentValue → Option DocumentValue
  | .mapping entries => entries.lookup key
  | _ => none

end DocumentValue

end SwiftWorkspace
