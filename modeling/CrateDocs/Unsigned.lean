/-!
# Unsigned numbers in text

An unsigned number is written with ASCII digits, of which there is at least one and before which a
plus sign may stand. Leading zeros do not matter.
-/

namespace CrateDocs

namespace Unsigned

/-- The value of decimal digits, if there is at least one and all characters are digits. -/
def ofDigits? (digits : List Char) : Option Nat :=
  if !digits.isEmpty && digits.all Char.isDigit then
    some (digits.foldl (fun value c => 10 * value + (c.toNat - '0'.toNat)) 0)
  else
    none

/-- The number below `bound` that a text denotes. -/
def ofText? (bound : Nat) (text : String) : Option Nat := do
  let value ←
    match text.toList with
    | '+' :: digits => ofDigits? digits
    | digits => ofDigits? digits
  if value < bound then some value else none

end Unsigned

end CrateDocs
