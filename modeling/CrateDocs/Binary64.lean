import CrateDocs.Rounding

/-!
# Floating-point numbers of 64 bits

The parts of the theory of binary64 numbers that exact text needs: the magnitudes of the finite
numbers with rounded arithmetic on them, and the total order of all numbers. Everything but the
access to the bits is arithmetic on natural numbers.
-/

namespace CrateDocs

namespace Binary64

/-- A magnitude: the significand times two to the power of the exponent. It belongs to a number if
the significand has at most 53 bits and the exponent is not below -1074; it does not have fewer
than 53 bits unless the exponent is -1074. -/
structure Magnitude where
  significand : Nat
  exponent : Int
deriving DecidableEq

namespace Magnitude

def minExponent : Int := -1074

def maxExponent : Int := 971

/-- The first significand that has 54 bits. -/
def significandBound : Nat := Nat.pow 2 53

/-- The magnitude of the finite number with the given bits. -/
def ofBits (bits : Nat) : Magnitude :=
  let hidden := Nat.pow 2 52
  let exponent : Nat := bits / hidden % 2048
  let fraction : Nat := bits % hidden
  if exponent = 0 then ⟨fraction, minExponent⟩ else ⟨hidden + fraction, (exponent : Int) - 1075⟩

def isFinite (x : Magnitude) : Bool :=
  x.exponent ≤ maxExponent

/-- Whether the next smaller magnitude is only half as far away as the next greater one. -/
def isNarrow (x : Magnitude) : Bool :=
  2 * x.significand = significandBound && minExponent < x.exponent

/-- The exponent at which the quotient of two positive numbers has 53 bits, or the least one. -/
def exponentOf (numerator denominator : Nat) : Int :=
  let low := max minExponent ((numerator.log2 : Int) - denominator.log2 - 53)
  let quotient :=
    numerator * Nat.pow 2 (-low).toNat / (denominator * Nat.pow 2 low.toNat)
  if quotient < significandBound then low else low + 1

/-- The magnitude that is nearest to a quotient; a tie goes to the even significand. It need not be
finite. -/
def ofQuotient (numerator denominator : Nat) : Magnitude :=
  let exponent := exponentOf numerator denominator
  let significand :=
    Rounding.nearest (numerator * Nat.pow 2 (-exponent).toNat)
      (denominator * Nat.pow 2 exponent.toNat)
  if significand = significandBound then ⟨significand / 2, exponent + 1⟩
  else ⟨significand, exponent⟩

def ofNat (n : Nat) : Magnitude :=
  ofQuotient n 1

def mul (x y : Magnitude) : Magnitude :=
  let exponent := x.exponent + y.exponent
  ofQuotient (x.significand * y.significand * Nat.pow 2 exponent.toNat)
    (Nat.pow 2 (-exponent).toNat)

def div (x y : Magnitude) : Magnitude :=
  let exponent := x.exponent - y.exponent
  ofQuotient (x.significand * Nat.pow 2 exponent.toNat)
    (y.significand * Nat.pow 2 (-exponent).toNat)

end Magnitude

def signBit : UInt64 := 0x8000000000000000

def isNegative (x : Float) : Bool :=
  signBit ≤ x.toBits

/-- The place of a number in the total order of all numbers: the negative ones descend in their
bits and lie below the others. -/
def rank (x : Float) : UInt64 :=
  if isNegative x then ~~~x.toBits else x.toBits ||| signBit

end Binary64

end CrateDocs
