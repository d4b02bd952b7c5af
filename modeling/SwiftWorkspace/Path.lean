import SwiftWorkspace.Text.Basic

/-!
# Paths

A path is where it starts and the segments below.  Empty segments and single
dots say nothing and are dropped when a path is read; two dots are kept, since
only resolving a path tells what they lead to.
-/

namespace SwiftWorkspace

inductive Anchor where
  /-- At the directory that the path is taken relative to. -/
  | relative
  /-- At the root. -/
  | root
  /-- At the root, written with exactly two slashes. -/
  | doubleRoot
  deriving DecidableEq, Repr

namespace Anchor

/-- The slashes in front of the first segment. -/
def text : Anchor → Text
  | .relative => []
  | .root => ['/']
  | .doubleRoot => ['/', '/']

/-- The anchor of a written path. -/
def ofText : Text → Anchor
  | '/' :: '/' :: '/' :: _ => .root
  | '/' :: '/' :: _ => .doubleRoot
  | '/' :: _ => .root
  | _ => .relative

end Anchor

structure Path where
  anchor : Anchor := .relative
  segments : List Text := []
  deriving DecidableEq, Repr

namespace Path

def up : Text := ['.', '.']

/-- The segment that leads nowhere. -/
def here : Text := ['.']

def ofText (text : Text) : Path :=
  ⟨Anchor.ofText text, (text.splitOn '/').filter fun segment => segment ≠ [] && segment ≠ here⟩

def text (path : Path) : Text :=
  if path.anchor = .relative && path.segments.isEmpty then here
  else path.anchor.text ++ Text.join ['/'] path.segments

/-- Whether the path starts at the root. -/
def isAbsolute (path : Path) : Bool := path.anchor ≠ .relative

/-- The second path, taken relative to the first unless it starts at the root. -/
def join (base path : Path) : Path :=
  if path.isAbsolute then path else { base with segments := base.segments ++ path.segments }

def child (path : Path) (name : Text) : Path :=
  { path with segments := path.segments ++ [name] }

/-- The last segment, or nothing for an anchor alone. -/
def name (path : Path) : Text := path.segments.getLast?.getD []

def parent (path : Path) : Path := { path with segments := path.segments.dropLast }

/--
The names that are left when one more segment is followed, where `up` goes back from the last
name.
-/
def followBy {α : Type} [DecidableEq α] (up : α) (kept : List α) (segment : α) : List α :=
  if segment = up then kept.dropLast else kept ++ [segment]

def collapse (segments : List Text) : List Text := segments.foldl (followBy up) []

/-- An absolute path without segments of two dots and with a single slash at its start. -/
def collapsed (path : Path) : Path := ⟨.root, collapse path.segments⟩

def segmentsBelow? : List Text → List Text → Option (List Text)
  | [], segments => some segments
  | _ :: _, [] => none
  | first :: base, segment :: segments =>
      if first = segment then segmentsBelow? base segments else none

def relativeTo? (path base : Path) : Option Path :=
  if path.anchor = base.anchor then
    (segmentsBelow? base.segments path.segments).map fun segments => ⟨.relative, segments⟩
  else none

/-- Whether a segment cannot name anything, because it holds the null character. -/
def isUnnameable (path : Path) : Bool := path.segments.any (·.elem (Char.ofNat 0))

/-- The written directory part of a written path: all before its last slash. -/
def directoryText (text : Text) : Text :=
  let tail := (text.reverse.takeWhile (· ≠ '/')).length
  let head := text.take (text.length - tail)
  if head.all (· = '/') then head else Text.trimEnd (· = '/') head

/-- Two written paths joined by a slash; the second alone if it starts with one. -/
def joinText (base text : Text) : Text :=
  if text.startsWith ['/'] then text
  else if base.isEmpty || base.endsWith ['/'] then base ++ text
  else base ++ '/' :: text

end Path

end SwiftWorkspace
