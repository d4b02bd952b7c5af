import SwiftWorkspace.Text.Basic

/-!
# Runs of letters

Letters of the two cases lie in the Unicode standard in runs, so that a mapping
between the cases is given by few numbers.
-/

namespace SwiftWorkspace

/-- A run of code points from `first` to `last`, `step` apart, that are mapped one to one. -/
structure CaseRun where
  first : Nat
  last : Nat
  step : Nat
  /-- What `first` is mapped to; later members keep their distance. -/
  image : Nat

namespace CaseRun

def holds (run : CaseRun) (code : Nat) : Bool :=
  run.first ≤ code && code ≤ run.last && (code - run.first) % run.step = 0

/-- What a member of the run is mapped to. -/
def map (run : CaseRun) (code : Nat) : Char :=
  Char.ofNat (run.image + (code - run.first))

end CaseRun

end SwiftWorkspace
