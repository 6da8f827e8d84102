import CrateDocs.Binary64

/-!
# Decimal text with a fixed number of places

The decimal text of a finite number with a fixed number of places is the nearest one to the exact
value; a tie goes to the even neighbour.
-/

namespace CrateDocs

namespace Decimal

/-- A magnitude in units of the last of `places` decimal places. -/
def scaled (places : Nat) (x : Binary64.Magnitude) : Nat :=
  Rounding.nearest (x.significand * Nat.pow 2 x.exponent.toNat * Nat.pow 10 places)
    (Nat.pow 2 (-x.exponent).toNat)

def ofUnits (places units : Nat) : String :=
  let fraction := toString (units % Nat.pow 10 places)
  toString (units / Nat.pow 10 places) ++ "." ++
    String.ofList (List.replicate (places - fraction.length) '0') ++ fraction

/-- The text of a finite number with `places` decimal places, of which there is at least one. -/
def fixed (places : Nat) (x : Float) : String :=
  (if Binary64.isNegative x then "-" else "") ++
    ofUnits places (scaled places (.ofBits x.toBits.toNat))

end Decimal

end CrateDocs
