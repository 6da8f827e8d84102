import CrateDocs.Json.Canonical
import CrateDocs.Json.Numeral
import CrateDocs.Proofs.Unsigned.Spelling

/-!
# Integers in JSON text

An integer of 64 bits is written with its decimal digits, after a minus sign if it is negative. The
numeral with these characters denotes it. A value is integral when it has no other numbers.
-/

namespace CrateDocs

/-- Whether a number is an integer of 64 bits, with or without a sign. -/
def Number.IsInteger64 : Number → Prop
  | .integer value => Int64.minValue.toInt ≤ value ∧ value < UInt64.size
  | .decimal _ _ => False

namespace Numeral

variable {n : Nat} {cs : List Char}

theorem digit?_of_isDigit {c : Char} (h : c.isDigit) : digit? c = some (c.toNat - '0'.toNat) := by
  obtain ⟨hlow, hhigh⟩ := Unsigned.toNat_of_isDigit h
  exact if_pos ⟨hlow, hhigh⟩

theorem digits_of_isDigit (h : ∀ c ∈ cs, c.isDigit) :
    digits cs = (cs.map fun c => c.toNat - '0'.toNat, []) := by
  induction cs with
  | nil => rfl
  | cons c cs ih =>
    rw [List.forall_mem_cons] at h
    rw [digits, digit?_of_isDigit h.1, ih h.2, List.map_cons]

/-- The values of the decimal digits of a number. -/
def decimalDigits (n : Nat) : List Nat :=
  (Nat.toDigits 10 n).map fun c => c.toNat - '0'.toNat

theorem isDigit_of_mem_toDigits {c : Char} (h : c ∈ Nat.toDigits 10 n) : c.isDigit :=
  Nat.isDigit_of_mem_toDigits (by omega) (by omega) h

theorem digits_toDigits (n : Nat) : digits (Nat.toDigits 10 n) = (decimalDigits n, []) :=
  digits_of_isDigit fun _ => isDigit_of_mem_toDigits

theorem digitsValue_decimalDigits (n : Nat) : digitsValue (decimalDigits n) = n := by
  have hvalue := Nat.ofDigitChars_ten_toDigits (n := n)
  rw [Nat.ofDigitChars_eq_foldl] at hvalue
  rw [digitsValue, decimalDigits, List.foldl_map, hvalue]

/-- The digits of a number do not begin with a zero, unless it is zero. -/
theorem whole?_toDigits (n : Nat) : whole? (Nat.toDigits 10 n) = some (decimalDigits n, []) := by
  have hdigits := digits_toDigits n
  unfold whole?
  split
  · rename_i rest heq
    rw [heq, decimalDigits, Prod.mk.injEq, eq_comm, List.map_eq_nil_iff] at hdigits
    exact absurd hdigits.1 Nat.toDigits_ne_nil
  · rename_i digit ds rest heq
    rw [heq, Prod.mk.injEq] at hdigits
    rcases Nat.eq_zero_or_pos n with rfl | hpos
    · simp [decimalDigits] at hdigits
    · obtain ⟨c, cs, hcons, hc⟩ := Unsigned.exists_toDigits_eq_cons hpos
      rw [decimalDigits, hcons, List.map_cons, List.cons.injEq] at hdigits
      have hlt : '0'.toNat < c.toNat := hc
      omega
  · rw [hdigits]

theorem ofChars?_of_sign {negative : Bool} (h : sign cs = (negative, Nat.toDigits 10 n)) :
    ofChars? cs = some ⟨negative, decimalDigits n, [], none⟩ := by
  simp only [ofChars?, h, whole?_toDigits, Option.bind_eq_bind, Option.bind_some]
  rfl

theorem ofChars?_toDigits (n : Nat) :
    ofChars? (Nat.toDigits 10 n) = some ⟨false, decimalDigits n, [], none⟩ := by
  refine ofChars?_of_sign ?_
  unfold sign
  split
  · rename_i cs heq
    have hmem : '-' ∈ Nat.toDigits 10 n := heq ▸ List.mem_cons_self
    exact absurd (isDigit_of_mem_toDigits hmem) (by decide)
  · rfl

theorem ofChars?_minus (n : Nat) :
    ofChars? ('-' :: Nat.toDigits 10 n) = some ⟨true, decimalDigits n, [], none⟩ :=
  ofChars?_of_sign rfl

theorem toList_toString_ofNat (n : Nat) : (toString (Int.ofNat n)).toList = Nat.toDigits 10 n :=
  Nat.toList_repr

theorem toList_toString_negSucc (n : Nat) :
    (toString (Int.negSucc n)).toList = '-' :: Nat.toDigits 10 (n + 1) := by
  rw [Int.toString_eq_repr, Int.repr, String.toList_append, Nat.toList_repr]
  rfl

end Numeral

open Numeral in
/-- An integer of 64 bits is denoted by its decimal digits. -/
theorem Number.ofChars?_toString {value : Int} (h : (Number.integer value).IsInteger64) :
    Number.ofChars? (toString value).toList = some (.integer value) := by
  obtain ⟨hlow, hhigh⟩ := h
  cases value with
  | ofNat n =>
    have hvalue : wholeValue ⟨false, decimalDigits n, [], none⟩ = Int.ofNat n :=
      congrArg Int.ofNat (digitsValue_decimalDigits n)
    have hinteger : isInteger ⟨false, decimalDigits n, [], none⟩ = true := by
      simpa [isInteger, isWhole, hvalue] using hhigh
    rw [toList_toString_ofNat, Number.ofChars?, ofChars?_toDigits, Option.bind_eq_bind,
      Option.bind_some, if_pos hinteger, hvalue]
  | negSucc n =>
    have hvalue : wholeValue ⟨true, decimalDigits (n + 1), [], none⟩ = Int.negSucc n := by
      simp only [wholeValue, digitsValue_decimalDigits]
      rfl
    have hinteger : isInteger ⟨true, decimalDigits (n + 1), [], none⟩ = true := by
      simpa [isInteger, isWhole, hvalue] using hlow
    rw [toList_toString_negSucc, Number.ofChars?, ofChars?_minus, Option.bind_eq_bind,
      Option.bind_some, if_pos hinteger, hvalue]

namespace Json

mutual

/-- Whether every number in a value is an integer of 64 bits. -/
def Integral : Json → Prop
  | .null | .bool _ | .str _ => True
  | .num n => n.IsInteger64
  | .arr items => IntegralItems items
  | .obj members => IntegralMembers members

def IntegralItems : List Json → Prop
  | [] => True
  | v :: vs => v.Integral ∧ IntegralItems vs

def IntegralMembers : List (String × Json) → Prop
  | [] => True
  | (_, v) :: rest => v.Integral ∧ IntegralMembers rest

end

theorem integralMembers_iff {members : List (String × Json)} :
    IntegralMembers members ↔ ∀ m ∈ members, m.2.Integral := by
  induction members with
  | nil => simp [IntegralMembers]
  | cons m rest ih => rw [IntegralMembers, ih, List.forall_mem_cons]

mutual

/-- The canonical form has the same numbers. -/
theorem Integral.canonical : {v : Json} → v.Integral → v.canonical.Integral
  | .null, _ | .bool _, _ | .str _, _ => trivial
  | .num _, h => h
  | .arr _, h => IntegralItems.canonicalItems h
  | .obj _, h => integralMembers_iff.2 fun m hm =>
    integralMembers_iff.1 (IntegralMembers.canonicalMembers h) m (mem_of_mem_sortMembers hm)

theorem IntegralItems.canonicalItems :
    {items : List Json} → IntegralItems items → IntegralItems (canonicalItems items)
  | [], _ => trivial
  | _ :: _, ⟨h, hs⟩ => ⟨h.canonical, IntegralItems.canonicalItems hs⟩

theorem IntegralMembers.canonicalMembers :
    {members : List (String × Json)} → IntegralMembers members →
      IntegralMembers (canonicalMembers members)
  | [], _ => trivial
  | (_, _) :: _, ⟨h, hs⟩ => ⟨h.canonical, IntegralMembers.canonicalMembers hs⟩

end

end Json

end CrateDocs
