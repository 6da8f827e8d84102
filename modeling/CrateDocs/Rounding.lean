/-!
# Rounded quotients
-/

namespace CrateDocs

namespace Rounding

/-- The quotient of two natural numbers, rounded to the nearest; a tie goes to the even one. -/
def nearest (numerator denominator : Nat) : Nat :=
  let quotient := numerator / denominator
  let rest := 2 * (numerator % denominator)
  if rest < denominator ∨ (rest = denominator ∧ quotient % 2 = 0) then quotient else quotient + 1

end Rounding

end CrateDocs
