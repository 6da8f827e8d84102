import CrateDocs.Decimal.Shortest
import CrateDocs.Json.Basic
import CrateDocs.Text.Hex

/-!
# Writing JSON text

Values are written without blanks. In strings the quote, the backslash and the control characters
are escaped, and everything else stands for itself. A number that is no integer is written as the
shortest decimal that denotes it, with a point or an exponent.
-/

namespace CrateDocs

namespace Json

/-- A character as it is written inside a string. -/
def escapeChar (c : Char) : String :=
  if c = '"' then "\\\""
  else if c = '\\' then "\\\\"
  else if c = '\x08' then "\\b"
  else if c = '\t' then "\\t"
  else if c = '\n' then "\\n"
  else if c = '\x0c' then "\\f"
  else if c = '\r' then "\\r"
  else if c < ' ' then
    "\\u00" ++ String.ofList [Text.hexDigit (c.toNat / 16), Text.hexDigit (c.toNat % 16)]
  else String.singleton c

def quote (s : String) : String :=
  s.toList.foldl (fun done c => done ++ escapeChar c) "\"" ++ "\""

/-- Digits with a point after the first `whole` of them. Zeros stand for whole digits that are not
there, and for a fraction without digits. -/
def pointed (whole : Nat) (digits : String) : String :=
  let padded := digits.toList ++ List.replicate (whole - digits.length) '0'
  let fraction := padded.drop whole
  String.ofList (padded.take whole) ++ "." ++
    if fraction.isEmpty then "0" else String.ofList fraction

/-- A decimal as it is written. If the power of ten that its first digit counts is below -5 or
above 15, that power becomes the exponent. -/
def renderDecimal (d : Decimal) : String :=
  let digits := toString d.digits
  let leading := d.power + digits.length - 1
  if 0 ≤ leading ∧ leading ≤ 15 then pointed (leading.toNat + 1) digits
  else if -5 ≤ leading ∧ leading < 0 then
    "0." ++ String.ofList (List.replicate (-leading - 1).toNat '0') ++ digits
  else
    (if digits.length = 1 then digits else pointed 1 digits) ++
      (if leading < 0 then "e-" else "e+") ++ toString leading.natAbs

def renderNumber : Number → String
  | .integer value => toString value
  | .decimal isNegative magnitude =>
    (if isNegative then "-" else "") ++
      if magnitude.significand = 0 then "0.0" else renderDecimal (.shortest magnitude)

mutual

def render : Json → String
  | .null => "null"
  | .bool true => "true"
  | .bool false => "false"
  | .num n => renderNumber n
  | .str s => quote s
  | .arr [] => "[]"
  | .arr (item :: items) => "[" ++ render item ++ renderItems items ++ "]"
  | .obj [] => "\x7b\x7d"
  | .obj ((key, value) :: members) =>
    "\x7b" ++ quote key ++ ":" ++ render value ++ renderMembers members ++ "\x7d"

/-- The texts of further items, a comma before each. -/
def renderItems : List Json → String
  | [] => ""
  | item :: items => "," ++ render item ++ renderItems items

def renderMembers : List (String × Json) → String
  | [] => ""
  | (key, value) :: members => "," ++ quote key ++ ":" ++ render value ++ renderMembers members

end

end Json

end CrateDocs
