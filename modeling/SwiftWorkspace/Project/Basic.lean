import SwiftWorkspace.Text.Blank

/-!
# Projects

A project is a directory of a workspace that holds a manifest.  Its root is the
path of the directory relative to the workspace, which can be spelled in many
ways; the normal form of a root is the key that all spellings share.
-/

namespace SwiftWorkspace

def workspaceRoot : Text := ['.']

structure Project where
  name : Text
  root : Text
  deriving DecidableEq, Repr

namespace Project

def dropLeadingDots : Text → Text
  | '.' :: '/' :: text => dropLeadingDots text
  | text => text

def normalizeRoot (root : Text) : Text :=
  let trimmed := Text.trimEnd (· = '/') (dropLeadingDots (Text.replace '\\' '/' root).strip)
  if trimmed.isEmpty then workspaceRoot else trimmed

/-- The key of the project: its root in normal form. -/
def key (project : Project) : Text := normalizeRoot project.root

def basename (project : Project) : Text :=
  ((Text.trimEnd (· = '/') project.root).splitOn '/').getLast?.getD []

end Project

end SwiftWorkspace
