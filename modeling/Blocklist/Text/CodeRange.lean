import Blocklist.Text.Basic

/-! # Stretches of code points

A character property is a list of stretches of consecutive code points, both ends included, in
increasing order. Deciding the property is finding a stretch that holds the character.
-/

namespace Blocklist.Text

/-- Stretches of code points: the first and the last one of each. -/
abbrev CodeRanges := List (Nat × Nat)

namespace CodeRanges

def holds (ranges : CodeRanges) (c : CodePoint) : Bool :=
  ranges.any fun (first, last) => first ≤ c.toNat && c.toNat ≤ last

end CodeRanges

end Blocklist.Text
