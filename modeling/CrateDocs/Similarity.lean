/-!
# Similarity of texts

The similarity of Jaro and Winkler: the share of characters that two texts have in common at
nearby places, raised for texts that begin alike.
-/

namespace CrateDocs

namespace Similarity

abbrev Place : Type := Char × Nat

/-- How far apart two characters may stand to count as common. -/
def window (a b : List Char) : Nat :=
  max a.length b.length / 2 - 1

/-- Takes the first free place that holds the same character as `place` at most `reach` away. -/
def take? (reach : Nat) (place : Place) : List Place → Option (Place × List Place)
  | [] => none
  | free :: rest =>
    if free.1 = place.1 ∧ free.2 ≤ place.2 + reach ∧ place.2 ≤ free.2 + reach then
      some (free, rest)
    else
      (take? reach place rest).map fun (found, others) => (found, free :: others)

def takes (reach : Nat) : List Place → List Place → List Place
  | [], _ => []
  | place :: rest, free =>
    match take? reach place free with
    | some (found, others) => found :: takes reach rest others
    | none => takes reach rest free

/-- The places of `a` that hold a common character, in the order in which `b` takes them. -/
def common (a b : List Char) : List Place :=
  takes (window a b) b.zipIdx a.zipIdx

/-- Half the number of common characters that stand elsewhere in the order of the first text than
in that of the second. -/
def transpositions (common : List Place) : Nat :=
  let ordered := common.mergeSort fun p q => p.2 ≤ q.2
  (common.zip ordered).countP (fun (p, q) => p.1 ≠ q.1) / 2

def commonStart : List Char → List Char → Nat
  | a :: as, b :: bs => if a = b then commonStart as bs + 1 else 0
  | _, _ => 0

/-- The similarity of Jaro of two texts that have characters in common. -/
def jaro (a b : List Char) (common : List Place) : Float :=
  let count := Float.ofNat common.length
  let agreeing := Float.ofNat (common.length - transpositions common)
  ((count / Float.ofNat a.length + count / Float.ofNat b.length) + agreeing / count) / 3.0

/-- The similarity of Jaro and Winkler of two texts, which is at most 1. -/
def jaroWinkler (a b : List Char) : Float :=
  if a.isEmpty ∧ b.isEmpty then 1.0
  else if a.isEmpty ∨ b.isEmpty then 0.0
  else if a.length = 1 ∧ b.length = 1 then if a = b then 1.0 else 0.0
  else
    let common := common a b
    if common.isEmpty then 0.0
    else
      let score := jaro a b common
      if score > 0.7 then
        score + Float.ofNat (min 4 (commonStart a b)) * 0.1 * (1.0 - score)
      else
        score

end Similarity

end CrateDocs
