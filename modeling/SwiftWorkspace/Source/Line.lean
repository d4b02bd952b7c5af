import SwiftWorkspace.Source.Basic

/-!
# Lines

Questions about the line that holds a position: where it starts, how far it is
indented, and whether the position is the first that is not blank.
-/

namespace SwiftWorkspace

namespace Source

def lineStart (source : Source) (position : Nat) : Nat :=
  let before := source.cells.take position
  before.length - (before.reverse.takeWhile (·.char ≠ '\n')).length

def lineIndent (source : Source) (position : Nat) : Text :=
  ((source.cells.drop (source.lineStart position)).takeWhile fun cell =>
    cell.char = ' ' || cell.char = '\t').map Cell.char

def startsLine (source : Source) (position : Nat) : Bool :=
  (source.text.slice (source.lineStart position) position).allBlank

def lineFeed? (source : Source) (start stop : Nat) : Option Nat :=
  source.text.findFrom? '\n' start stop

def lastLineFeed? (source : Source) (start stop : Nat) : Option Nat :=
  let before := source.lineStart stop
  if start < before then some (before - 1) else none

end Source

end SwiftWorkspace
