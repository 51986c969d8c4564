/-!
# Sets of characters

A set of characters is a list of ranges of code points, each with its first and its last member.
-/

namespace Speculation

/-- Ranges of code points, both ends included. -/
abbrev CharSet := List (Nat × Nat)

namespace CharSet

def contains (s : CharSet) (c : Char) : Bool :=
  s.any fun (first, last) => first ≤ c.toNat && c.toNat ≤ last

end CharSet

end Speculation
