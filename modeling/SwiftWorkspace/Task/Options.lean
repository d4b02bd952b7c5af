import SwiftWorkspace.Text.Basic

/-!
# Task options

The commands that tasks run, and which of the tasks are wanted.  An empty
command stands for the usual one.
-/

namespace SwiftWorkspace

structure TaskOptions where
  build : Text := "swift build".toList
  test : Text := "swift test".toList
  lint : Text := "swiftlint".toList
  includeTest : Bool := true
  includeLint : Bool := true
  deriving DecidableEq, Repr

end SwiftWorkspace
