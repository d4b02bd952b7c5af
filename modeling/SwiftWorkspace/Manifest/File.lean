import SwiftWorkspace.Disk.Basic
import SwiftWorkspace.Log
import SwiftWorkspace.Manifest.Reading

/-!
# Manifest files

Reading the manifest in a file.  Only an unreadable file is a failure; every
text can be read as a manifest.
-/

namespace SwiftWorkspace

namespace Manifest

def unreadableMessage (failure : ReadFailure) : String :=
  s!"Failed to read manifest at {failure.path.text.asString}: {failure.message}"

/-- The manifest in a file, with a record of the reading. -/
def read (disk : Disk) (path : Path) : Except ReadFailure (Reported Manifest) := do
  let text ← disk.readText path
  let message := s!"Read {text.length} characters from {path.text.asString}"
  pure ⟨ofText text, [⟨.debug, .reader, message⟩]⟩

end Manifest

end SwiftWorkspace
