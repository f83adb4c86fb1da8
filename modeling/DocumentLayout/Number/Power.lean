/-!
# Powers of two and ten

The scales of binary and decimal numbers.
-/

namespace DocumentLayout

/-- Two to the power of `n`. -/
def twoPow (n : Nat) : Nat := Nat.pow 2 n

/-- Ten to the power of `n`. -/
def tenPow (n : Nat) : Nat := Nat.pow 10 n

end DocumentLayout
