import SwiftWorkspace.Path
import SwiftWorkspace.Text.CodePoint

/-!
# Paths from outside

A path that is given from outside may have segments that no text spells.  Such a segment leads
to none of the directories that have texts as names, but it may be left again by two dots, so
that it says nothing in the end.
-/

namespace SwiftWorkspace

namespace Anchor

/-- The anchor of a path that is written in code points. -/
def ofPoints (points : CodePoints) : Anchor :=
  ofText ((points.takeWhile CodePoints.isChar).filterMap CodePoint.char?)

end Anchor

/-- A path from outside: its anchor and its segments. -/
structure GivenPath where
  anchor : Anchor := .relative
  segments : List CodePoints := []
  deriving DecidableEq, Repr

namespace GivenPath

/-- The path with segments that are texts. -/
def ofPath (path : Path) : GivenPath := ⟨path.anchor, path.segments.map CodePoints.ofText⟩

def ofPoints (points : CodePoints) : GivenPath :=
  ⟨Anchor.ofPoints points, (points.splitOn (.ofChar '/')).filter fun segment =>
    segment ≠ [] && segment ≠ CodePoints.ofText Path.here⟩

/-- The path, taken relative to a base unless it starts at the root. -/
def behind (path : GivenPath) (base : Path) : GivenPath :=
  if path.anchor ≠ .relative then path
  else ⟨base.anchor, base.segments.map CodePoints.ofText ++ path.segments⟩

def collapse (segments : List CodePoints) : List CodePoints :=
  segments.foldl (Path.followBy (CodePoints.ofText Path.up)) []

/-- An absolute path without segments of two dots and with a single slash at its start. -/
def collapsed (path : GivenPath) : GivenPath := ⟨.root, collapse path.segments⟩

/--
Whether a code point cannot stand in any path: the null character, or a half that is no octet.
-/
def isRefused : CodePoint → Bool
  | .ofChar char => char = Char.ofNat 0
  | .half offset => !(CodePoint.half offset).isOctet

/-- Whether the path cannot name anything. -/
def isUnnameable (path : GivenPath) : Bool := path.segments.any fun segment => segment.any isRefused

def path? (path : GivenPath) : Option Path :=
  (path.segments.mapM CodePoints.text?).map fun segments => ⟨path.anchor, segments⟩

end GivenPath

end SwiftWorkspace
