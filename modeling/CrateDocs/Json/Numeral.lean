import CrateDocs.Binary64
import CrateDocs.Json.Basic

/-!
# Numerals

The written form of a number: a sign, whole digits, and perhaps fraction digits and an exponent.
A numeral without the last two denotes an integer if that integer fits 64 bits; every other one
denotes a binary64 number, provided that it is finite.

The magnitude is found as a reader in one pass finds it. It takes digits into a 64-bit significand
for as long as they fit, counts the whole digits it has to leave out as powers of ten, and then
multiplies the rounded significand with a rounded power of ten, or divides it by one. This may miss
the nearest magnitude by a little.
-/

namespace CrateDocs

structure Numeral where
  negative : Bool
  whole : List Nat
  /-- The digits after the point; none when there is no point. -/
  fraction : List Nat
  /-- The power of ten after the exponent mark, if there is a mark. -/
  exponent : Option Int
deriving DecidableEq

namespace Numeral

def digitsValue (digits : List Nat) : Nat :=
  digits.foldl (fun value digit => 10 * value + digit) 0

/-- The greatest significand: 64 bits, all of them set. -/
def maxSignificand : Nat := UInt64.size - 1

/-- Appends digits to a significand for as long as the result fits, and counts those taken. -/
def absorb (significand : Nat) : List Nat → Nat × Nat
  | [] => (significand, 0)
  | digit :: rest =>
    if 10 * significand + digit ≤ maxSignificand then
      let (value, taken) := absorb (10 * significand + digit) rest
      (value, taken + 1)
    else
      (significand, 0)

/-- The significand and the power of ten whose product approximates the magnitude. -/
def scaled (n : Numeral) : Nat × Int :=
  let (head, wholeTaken) := absorb 0 n.whole
  let (significand, fractionTaken) := absorb head n.fraction
  (significand, (n.whole.length - wholeTaken : Int) - fractionTaken + n.exponent.getD 0)

/-- The greatest power of ten that a magnitude is multiplied with at once. -/
def maxPower : Nat := 308

def powerOfTen (power : Nat) : Binary64.Magnitude :=
  .ofNat (Nat.pow 10 power)

/-- A magnitude times ten to the given power, if that is finite. Zero stays zero. -/
def scale? (x : Binary64.Magnitude) (power : Int) : Option Binary64.Magnitude :=
  if x.significand = 0 then some x
  else if power < -maxPower then scale? (x.div (powerOfTen maxPower)) (power + maxPower)
  else if power < 0 then some (x.div (powerOfTen (-power).toNat))
  else if power ≤ maxPower then some (x.mul (powerOfTen power.toNat)) |>.filter (·.isFinite)
  else none
termination_by (-power).toNat
decreasing_by simp only [maxPower] at *; omega

def magnitude? (n : Numeral) : Option Binary64.Magnitude :=
  let (significand, power) := n.scaled
  scale? (.ofNat significand) power

def wholeValue (n : Numeral) : Int :=
  if n.negative then -(digitsValue n.whole : Int) else digitsValue n.whole

def isWhole (n : Numeral) : Bool :=
  n.fraction.isEmpty && n.exponent.isNone

/-- Whether the numeral is a whole one of 64 bits. The negative zero is not an integer. -/
def isInteger (n : Numeral) : Bool :=
  n.isWhole &&
    if n.negative then n.wholeValue < 0 && Int64.minValue.toInt ≤ n.wholeValue
    else n.wholeValue < UInt64.size

def digit? (c : Char) : Option Nat :=
  if '0' ≤ c ∧ c ≤ '9' then some (c.toNat - '0'.toNat) else none

/-- The digits at the front and the characters after them. -/
def digits : List Char → List Nat × List Char
  | [] => ([], [])
  | c :: cs =>
    match digit? c with
    | some d => let (ds, rest) := digits cs; (d :: ds, rest)
    | none => ([], c :: cs)

/-- The sign of a number and the characters after it. -/
def sign : List Char → Bool × List Char
  | '-' :: cs => (true, cs)
  | cs => (false, cs)

/-- The digits before the point: a zero alone, or a run that does not begin with one. -/
def whole? (cs : List Char) : Option (List Nat × List Char) :=
  match digits cs with
  | ([], _) => none
  | (0 :: _ :: _, _) => none
  | found => some found

/-- The digits after the point; where there is a point there are digits. -/
def fraction? : List Char → Option (List Nat × List Char)
  | '.' :: cs =>
    match digits cs with
    | ([], _) => none
    | found => some found
  | cs => some ([], cs)

def markedExponent? (cs : List Char) : Option (Int × List Char) :=
  let (positive, cs) :=
    match cs with
    | '+' :: cs => (true, cs)
    | '-' :: cs => (false, cs)
    | cs => (true, cs)
  match digits cs with
  | ([], _) => none
  | (ds, rest) => some (if positive then digitsValue ds else -(digitsValue ds : Int), rest)

def exponent? : List Char → Option (Option Int × List Char)
  | 'e' :: cs => (markedExponent? cs).map fun (e, rest) => (some e, rest)
  | 'E' :: cs => (markedExponent? cs).map fun (e, rest) => (some e, rest)
  | cs => some (none, cs)

def ofChars? (cs : List Char) : Option Numeral := do
  let (negative, cs) := sign cs
  let (whole, cs) ← whole? cs
  let (fraction, cs) ← fraction? cs
  let (exponent, cs) ← exponent? cs
  if cs.isEmpty then some ⟨negative, whole, fraction, exponent⟩ else none

end Numeral

/-- The number that is written with exactly these characters; none if it is too large. -/
def Number.ofChars? (cs : List Char) : Option Number := do
  let n ← Numeral.ofChars? cs
  if n.isInteger then some (.integer n.wholeValue)
  else n.magnitude?.map (.decimal n.negative)

end CrateDocs
