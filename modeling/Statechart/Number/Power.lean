/-!
# Powers of two and of ten

The two bases of the number formats.
-/

namespace Statechart

/-- A power of two. -/
def twoPow (k : Nat) : Nat :=
  Nat.pow 2 k

/-- A power of ten. -/
def tenPow (k : Nat) : Nat :=
  Nat.pow 10 k

end Statechart
