import SwiftWorkspace.Settings.Document
import SwiftWorkspace.Yaml.Value

/-!
# A reader of documents

The reader of YAML that the program runs with.  A document may lead back to itself, while
settings look only so far into it, so its values are told down to that depth.
-/

namespace SwiftWorkspace

namespace Yaml

namespace Scalar

def told : Scalar → DocumentValue
  | .null => .null
  | .bool value => .bool value
  | .int value => .int value
  | .float value => .float value
  | .binary octets => .octets octets
  | .timestamp _ => .other
  | .string text => .text text

end Scalar

namespace Values

def toldTo (values : Values) : (depth : Nat) → NodeId → DocumentValue
  | 0, _ => .other
  | depth + 1, id =>
      match values.value? id with
      | some (.scalar scalar) => scalar.told
      | some (.sequence items) => .list (items.map (values.toldTo depth))
      | some (.mapping entries) =>
          -- The last entry of a key counts.
          .mapping (entries.reverse.filterMap fun (key, value) =>
            (values.text? key).map fun text => (text, values.toldTo depth value))
      | some (.pairs entries) => .list (entries.map fun _ => .other)
      | some (.set _) | none => .other

end Values

/-- The levels of a document that settings look into: the root, its members, and theirs. -/
def settingLevels : Nat := 3

/-- The value of the document in a text. -/
def reader : DocumentReader := fun text =>
  match Values.ofText? text with
  | .ok none => .ok .null
  | .ok (some values) => .ok (values.toldTo settingLevels values.root)
  | .error .malformed => .error .malformed
  | .error flaw => .error (.raised flaw.name flaw.message)

end Yaml

end SwiftWorkspace
