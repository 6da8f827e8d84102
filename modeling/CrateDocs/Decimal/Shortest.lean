import CrateDocs.Binary64

/-!
# Shortest decimals

Many decimals round to the same magnitude. The shortest of them has as few digits as any, and of
those with as few it is the nearest. It lies on the coarsest grid of multiples of a power of ten
that has a point which reads back.
-/

namespace CrateDocs

structure Decimal where
  digits : Nat
  power : Int
deriving DecidableEq

namespace Decimal

/-- The numerator of `units` times two to the power of `exponent` over ten to the power of
`power`. -/
def numerator (units : Nat) (exponent power : Int) : Nat :=
  units * Nat.pow 2 exponent.toNat * Nat.pow 10 (-power).toNat

def denominator (exponent power : Int) : Nat :=
  Nat.pow 2 (-exponent).toNat * Nat.pow 10 power.toNat

/-- Whether a decimal rounds to a magnitude: it lies between the points halfway to the two
neighbours of the magnitude, or on one of them if the significand is even. -/
def readsBack (x : Binary64.Magnitude) (d : Decimal) : Bool :=
  let exponent := x.exponent - 2
  let low := numerator (4 * x.significand - if x.isNarrow then 1 else 2) exponent d.power
  let high := numerator (4 * x.significand + 2) exponent d.power
  let value := d.digits * denominator exponent d.power
  if x.significand % 2 = 0 then low ≤ value && value ≤ high else low < value && value < high

/-- The multiple of a power of ten that is nearest to a magnitude. -/
def nearest (x : Binary64.Magnitude) (power : Int) : Decimal :=
  ⟨Rounding.nearest (numerator x.significand x.exponent power) (denominator x.exponent power),
    power⟩

/-- The neighbours of a magnitude among the multiples of a power of ten, the nearest first. -/
def neighbours (x : Binary64.Magnitude) (power : Int) : List Decimal :=
  let below := numerator x.significand x.exponent power / denominator x.exponent power
  [nearest x power, ⟨below, power⟩, ⟨below + 1, power⟩]

/-- The finest power of ten that any magnitude needs. -/
def minPower : Int := -324

/-- How many powers of ten, from the finest one up, the digits of finite magnitudes begin with. -/
def powerCount : Nat := 634

def shortest (x : Binary64.Magnitude) : Decimal :=
  let found := (List.range powerCount).reverse.findSome? fun (step : Nat) =>
    (neighbours x (minPower + step)).find? (readsBack x)
  found.getD (nearest x minPower)

end Decimal

end CrateDocs
