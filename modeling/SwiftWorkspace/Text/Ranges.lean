/-!
# Ranges of code points

A character class of the Unicode standard is data: a list of inclusive ranges
of code points in increasing order.
-/

namespace SwiftWorkspace

abbrev CodeRanges := List (Nat × Nat)

namespace CodeRanges

def holds (ranges : CodeRanges) (char : Char) : Bool :=
  ranges.any fun (first, last) => first ≤ char.toNat && char.toNat ≤ last

end CodeRanges

end SwiftWorkspace
