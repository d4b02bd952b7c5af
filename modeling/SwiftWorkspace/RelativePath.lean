import SwiftWorkspace.Text.Basic

/-!
# Relative paths

The way from one directory of a workspace to another: up to their last common
directory, and from there down.
-/

namespace SwiftWorkspace

namespace RelativePath

/-- The segments of a path, whatever slashes separate them, without empty ones and dots. -/
def segments (path : Text) : List Text :=
  ((Text.replace '\\' '/' path).splitOn '/').filter fun segment => segment ≠ [] && segment ≠ ['.']

def steps : List Text → List Text → List Text
  | left :: lefts, right :: rights =>
      if left = right then steps lefts rights
      else List.replicate (lefts.length + 1) ['.', '.'] ++ right :: rights
  | lefts, rights => List.replicate lefts.length ['.', '.'] ++ rights

/-- The path that leads from one directory to another. -/
def between (start target : Text) : Text :=
  let way := steps (segments start) (segments target)
  if way.isEmpty then ['.'] else Text.join ['/'] way

end RelativePath

end SwiftWorkspace
