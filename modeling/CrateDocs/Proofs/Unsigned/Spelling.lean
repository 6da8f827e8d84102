import CrateDocs.Proofs.Exactness.Crate

/-!
# Spellings of a number

A text denotes a number by its decimal digits, with zeros in front of them and perhaps a plus sign
before those. In the order of texts no spelling of a positive number is above its plain digits, and
the spellings of zero ascend with their length, those with a sign below all others.
-/

namespace CrateDocs

namespace Unsigned

variable {digits : List Char} {text : String} {n : Nat}

/-- Whether characters are the decimal digits of a number, of which there is at least one. -/
structure Denotes (digits : List Char) (n : Nat) : Prop where
  ne_nil : digits ≠ []
  isDigit : ∀ c ∈ digits, c.isDigit
  value : Nat.ofDigitChars 10 digits 0 = n

theorem ofDigits?_eq_some_iff : ofDigits? digits = some n ↔ Denotes digits n := by
  unfold ofDigits?
  constructor
  · intro h
    split at h
    · rename_i hdigits
      rw [Bool.and_eq_true, Bool.not_eq_true', List.isEmpty_eq_false_iff, List.all_eq_true]
        at hdigits
      refine ⟨hdigits.1, hdigits.2, ?_⟩
      rw [Nat.ofDigitChars_eq_foldl]
      exact Option.some.inj h
    · cases h
  · rintro ⟨hne, hdigit, rfl⟩
    rw [if_pos, Nat.ofDigitChars_eq_foldl]
    rw [Bool.and_eq_true, Bool.not_eq_true', List.isEmpty_eq_false_iff, List.all_eq_true]
    exact ⟨hne, hdigit⟩

theorem toNat_of_isDigit {c : Char} (h : c.isDigit) : 48 ≤ c.toNat ∧ c.toNat ≤ 57 := by
  rw [Char.isDigit, Bool.and_eq_true, decide_eq_true_iff, decide_eq_true_iff] at h
  exact ⟨UInt32.le_iff_toNat_le.1 h.1, UInt32.le_iff_toNat_le.1 h.2⟩

theorem digitChar_of_isDigit {c : Char} (h : c.isDigit) :
    c.toNat - '0'.toNat < 10 ∧ (c.toNat - '0'.toNat).digitChar = c := by
  obtain ⟨hlow, hhigh⟩ := toNat_of_isDigit h
  have hlt : c.toNat - '0'.toNat < 10 := by
    rw [show '0'.toNat = 48 from rfl]
    omega
  refine ⟨hlt, Char.toNat_inj.1 ?_⟩
  rw [Nat.toNat_digitChar_of_lt_ten hlt, show '0'.toNat = 48 from rfl]
  omega

/-- The digits of a positive number go on with whatever digits follow. -/
theorem toDigits_append {value : Nat} (hvalue : 0 < value) (h : ∀ c ∈ digits, c.isDigit) :
    Nat.toDigits 10 value ++ digits = Nat.toDigits 10 (Nat.ofDigitChars 10 digits value) := by
  induction digits generalizing value with
  | nil => simp
  | cons c digits ih =>
    obtain ⟨hlt, hc⟩ := digitChar_of_isDigit (h c List.mem_cons_self)
    have hstep : Nat.toDigits 10 value ++ [c] =
        Nat.toDigits 10 (10 * value + (c.toNat - '0'.toNat)) := by
      rw [← Nat.toDigits_append_toDigits (by omega) hvalue hlt, Nat.toDigits_of_lt_base hlt, hc]
    rw [List.append_cons, hstep, ih (by omega) fun d hd => h d (List.mem_cons_of_mem c hd),
      Nat.ofDigitChars_cons]

/-- Digits that denote a number are its own with zeros in front. -/
theorem denotes_iff :
    Denotes digits n ↔ ∃ k, digits = List.replicate k '0' ++ Nat.toDigits 10 n := by
  constructor
  · rintro ⟨hne, hdigit, rfl⟩
    induction digits with
    | nil => exact absurd rfl hne
    | cons c digits ih =>
      have hrest : ∀ d ∈ digits, d.isDigit := fun d hd => hdigit d (List.mem_cons_of_mem c hd)
      rw [Nat.ofDigitChars_cons]
      by_cases hzero : c = '0'
      · subst hzero
        by_cases hnil : digits = []
        · subst hnil
          exact ⟨0, rfl⟩
        · obtain ⟨k, hk⟩ := ih hnil hrest
          refine ⟨k + 1, ?_⟩
          rw [List.replicate_succ, List.cons_append]
          exact congrArg _ hk
      · obtain ⟨hlt, hc⟩ := digitChar_of_isDigit (hdigit c List.mem_cons_self)
        have hpos : 0 < c.toNat - '0'.toNat := by
          rw [Nat.pos_iff_ne_zero]
          intro h
          rw [h] at hc
          exact hzero hc.symm
        refine ⟨0, ?_⟩
        rw [Nat.mul_zero, Nat.zero_add, ← toDigits_append hpos hrest, Nat.toDigits_of_lt_base hlt,
          hc]
        rfl
  · rintro ⟨k, rfl⟩
    constructor
    · exact List.append_ne_nil_of_right_ne_nil _ Nat.toDigits_ne_nil
    · intro c hc
      rcases List.mem_append.1 hc with hc | hc
      · rw [List.eq_of_mem_replicate hc]
        rfl
      · exact Nat.isDigit_of_mem_toDigits (by omega) (by omega) hc
    · rw [Nat.ofDigitChars_append, Nat.ofDigitChars_replicate_zero, Nat.mul_zero,
        Nat.ofDigitChars_ten_toDigits]

/-- Whether a text is a spelling of a number. -/
def Spells (text : String) (n : Nat) : Prop :=
  Denotes text.toList n ∨ ∃ digits, text.toList = '+' :: digits ∧ Denotes digits n

/-- Exactly the spellings of numbers below the bound are read. -/
theorem ofText?_eq_some_iff {bound : Nat} :
    ofText? bound text = some n ↔ Spells text n ∧ n < bound := by
  have hbelow (digits : List Char) :
      ((ofDigits? digits).bind fun value => if value < bound then some value else none) = some n ↔
        Denotes digits n ∧ n < bound := by
    simp only [Option.bind_eq_some_iff, Option.ite_none_right_eq_some, Option.some.injEq,
      ofDigits?_eq_some_iff]
    constructor
    · rintro ⟨_, hvalue, hlt, rfl⟩
      exact ⟨hvalue, hlt⟩
    · rintro ⟨hvalue, hlt⟩
      exact ⟨n, hvalue, hlt, rfl⟩
  unfold ofText? Spells
  split
  · rename_i digits htext
    rw [Option.bind_eq_bind, hbelow, htext]
    refine and_congr_left fun _ => ?_
    constructor
    · exact fun h => .inr ⟨digits, rfl, h⟩
    · rintro (h | ⟨others, heq, h⟩)
      · exact absurd (h.isDigit '+' List.mem_cons_self) (by decide)
      · cases heq
        exact h
  · rename_i hplain
    rw [Option.bind_eq_bind, hbelow]
    refine and_congr_left fun _ => ?_
    constructor
    · exact .inl
    · rintro (h | ⟨digits, htext, -⟩)
      · exact h
      · exact absurd htext (hplain digits)

theorem Spells.eq {m : Nat} (h : Spells text m) (hother : Spells text n) : m = n := by
  have hm : ofText? (m + n + 1) text = some m := ofText?_eq_some_iff.2 ⟨h, by omega⟩
  have hn : ofText? (m + n + 1) text = some n := ofText?_eq_some_iff.2 ⟨hother, by omega⟩
  exact Option.some.inj (hm.symm.trans hn)

/-- Zeros, with a sign in front of them or without. -/
def zeros (sign : String) (k : Nat) : String :=
  sign ++ .ofList (List.replicate k '0')

theorem toList_zeros (sign : String) (k : Nat) :
    (zeros sign k).toList = sign.toList ++ List.replicate k '0' := by
  rw [zeros, String.toList_append, String.toList_ofList]

theorem spells_zero_iff :
    Spells text 0 ↔ ∃ k, 0 < k ∧ (text = zeros "" k ∨ text = zeros "+" k) := by
  have hdigits (digits : List Char) :
      Denotes digits 0 ↔ ∃ k, 0 < k ∧ digits = List.replicate k '0' := by
    rw [denotes_iff, Nat.toDigits_zero]
    constructor
    · rintro ⟨k, rfl⟩
      exact ⟨k + 1, by omega, List.replicate_succ'.symm⟩
    · rintro ⟨k, hk, rfl⟩
      refine ⟨k - 1, ?_⟩
      rw [← List.replicate_succ', Nat.sub_add_cancel hk]
  have htext (sign : String) (k : Nat) : text = zeros sign k ↔
      text.toList = sign.toList ++ List.replicate k '0' := by
    rw [← String.toList_inj, toList_zeros]
  simp only [Spells, hdigits, htext]
  constructor
  · rintro (⟨k, hk, h⟩ | ⟨digits, h, k, hk, rfl⟩)
    · exact ⟨k, hk, .inl h⟩
    · exact ⟨k, hk, .inr h⟩
  · rintro ⟨k, hk, h | h⟩
    · exact .inl ⟨k, hk, h⟩
    · exact .inr ⟨_, h, k, hk, rfl⟩

theorem isLE_of_lt {a b : String} (h : a < b) : (compare a b).isLE := by
  have hlt : compare a b = .lt := compareOfLessAndEq_eq_lt.2 h
  rw [hlt]
  rfl

theorem not_isLE_of_lt {a b : String} (h : a < b) : ¬ (compare b a).isLE := by
  have hlt : compare a b = .lt := compareOfLessAndEq_eq_lt.2 h
  rw [Std.OrientedOrd.eq_swap, hlt]
  exact Bool.false_ne_true

/-- The plain digits of a positive number begin with none of what else a spelling may begin with. -/
theorem exists_toDigits_eq_cons (hn : 0 < n) :
    ∃ c digits, Nat.toDigits 10 n = c :: digits ∧ '0' < c := by
  obtain ⟨c, digits, hcons⟩ := List.exists_cons_of_ne_nil (Nat.toDigits_ne_nil (b := 10) (n := n))
  have hdenotes : Denotes (c :: digits) n := denotes_iff.2 ⟨0, hcons.symm⟩
  refine ⟨c, digits, hcons, ?_⟩
  have hne : c ≠ '0' := by
    rintro rfl
    -- Without the zero there would be fewer digits, and yet those of the same number.
    have hrest : Denotes digits n := by
      refine ⟨?_, fun d hd => hdenotes.isDigit d (List.mem_cons_of_mem _ hd), ?_⟩
      · rintro rfl
        have hvalue := hdenotes.value
        exact absurd hvalue (Nat.ne_of_lt hn)
      · rw [← hdenotes.value, Nat.ofDigitChars_cons]
        rfl
    obtain ⟨k, hk⟩ := denotes_iff.1 hrest
    have hlength := congrArg List.length hk
    rw [List.length_append, hcons, List.length_cons] at hlength
    omega
  have hlow := (toNat_of_isDigit (hdenotes.isDigit c List.mem_cons_self)).1
  have hne' : c.toNat ≠ 48 := fun h => hne (Char.toNat_inj.1 h)
  exact Char.lt_def.2 (UInt32.lt_iff_toNat_lt.2 (by
    change 48 < c.toNat
    omega))

/-- A spelling of a positive number is its plain digits, or it begins with a zero or a sign and is
less. -/
theorem Spells.isLE_toString (h : Spells text n) (hn : 0 < n) :
    (compare text (toString n)).isLE := by
  obtain ⟨c, digits, hcons, hc⟩ := exists_toDigits_eq_cons hn
  have hless {d : Char} {rest : List Char} (htext : text.toList = d :: rest) (hd : d < c) :
      (compare text (toString n)).isLE := by
    refine isLE_of_lt (String.lt_iff.2 ?_)
    rw [htext, Nat.toString_eq_repr, Nat.toList_repr, hcons]
    exact List.cons_lt_cons_iff.2 (.inl hd)
  rcases h with h | ⟨others, htext, -⟩
  · obtain ⟨k, htext⟩ := denotes_iff.1 h
    cases k with
    | zero =>
      have heq : text = toString n := by
        rw [← String.toList_inj, htext, Nat.toString_eq_repr, Nat.toList_repr]
        rfl
      rw [heq, Std.ReflOrd.compare_self]
      rfl
    | succ k => exact hless htext hc
  · exact hless htext (Std.lt_trans (by decide) hc)

theorem zeros_lt_zeros {sign : String} {j k : Nat} (h : j < k) : zeros sign j < zeros sign k := by
  obtain ⟨i, rfl⟩ := Nat.exists_eq_add_of_lt h
  rw [String.lt_iff, toList_zeros, toList_zeros, Nat.add_assoc, List.replicate_add]
  refine List.append_left_lt ?_
  nth_rewrite 1 [← List.append_nil (List.replicate j '0')]
  exact List.append_left_lt (List.nil_lt_cons _ _)

theorem isLE_zeros_iff {sign : String} {j k : Nat} :
    (compare (zeros sign j) (zeros sign k)).isLE ↔ j ≤ k := by
  constructor
  · intro h
    by_contra hlt
    exact not_isLE_of_lt (zeros_lt_zeros (Nat.lt_of_not_le hlt)) h
  · intro h
    rcases Nat.lt_or_eq_of_le h with hlt | rfl
    · exact isLE_of_lt (zeros_lt_zeros hlt)
    · rw [Std.ReflOrd.compare_self]
      rfl

/-- Zeros with a sign are less than zeros without. -/
theorem zeros_plus_lt {j k : Nat} (hk : 0 < k) : zeros "+" j < zeros "" k := by
  obtain ⟨k, rfl⟩ := Nat.exists_eq_succ_of_ne_zero (Nat.ne_of_gt hk)
  have hsign : '+' < '0' := by decide
  rw [String.lt_iff, toList_zeros, toList_zeros, List.replicate_succ]
  exact List.cons_lt_cons_iff.2 (.inl hsign)

/-- Whether a text is the greatest spelling of a number among the given texts. -/
structure IsGreatest (texts : List String) (n : Nat) (text : String) : Prop where
  mem : text ∈ texts
  spells : Spells text n
  isLE : ∀ other ∈ texts, Spells other n → (compare other text).isLE

/-- Whether a text consists of at least one zero after the sign, and of no fewer than any such text
among the given ones. -/
def IsLongestZeros (texts : List String) (sign text : String) : Prop :=
  ∃ k, 0 < k ∧ text = zeros sign k ∧ text ∈ texts ∧ ∀ j, zeros sign j ∈ texts → j ≤ k

variable {texts : List String}

theorem IsGreatest.iff_eq {greatest : String} (h : IsGreatest texts n greatest) :
    IsGreatest texts n text ↔ text = greatest := by
  constructor
  · intro htext
    have hle : (compare text greatest).isLE := h.isLE text htext.mem htext.spells
    have hge : (compare greatest text).isLE := htext.isLE greatest h.mem h.spells
    exact Std.LawfulEqOrd.eq_of_compare (Std.OrientedCmp.isLE_antisymm hle hge)
  · rintro rfl
    exact h

/-- A spelling that is above all texts before it is the greatest one. -/
theorem isGreatest_concat_of_spells (hlast : Spells last n)
    (h : ∀ other ∈ texts, compare other last = .lt) :
    IsGreatest (texts ++ [last]) n text ↔ text = last := by
  have hgreatest : IsGreatest (texts ++ [last]) n last := by
    refine ⟨List.mem_append_right _ List.mem_cons_self, hlast, fun other hother _ => ?_⟩
    rcases List.mem_append.1 hother with hother | hother
    · rw [h other hother]
      rfl
    · rw [List.mem_singleton.1 hother, Std.ReflOrd.compare_self]
      rfl
  exact hgreatest.iff_eq

theorem isGreatest_concat_of_not_spells (hlast : ¬ Spells last n) :
    IsGreatest (texts ++ [last]) n text ↔ IsGreatest texts n text := by
  have hmem {other : String} (hspells : Spells other n) :
      other ∈ texts ++ [last] ↔ other ∈ texts := by
    rw [List.mem_append, or_iff_left]
    intro heq
    exact hlast (List.mem_singleton.1 heq ▸ hspells)
  constructor
  · rintro ⟨h, hspells, hisLE⟩
    exact ⟨(hmem hspells).1 h, hspells,
      fun other hother => hisLE other (List.mem_append_left _ hother)⟩
  · rintro ⟨h, hspells, hisLE⟩
    exact ⟨(hmem hspells).2 h, hspells,
      fun other hother hother' => hisLE other ((hmem hother').1 hother) hother'⟩

theorem spells_toString (n : Nat) : Spells (toString n) n := by
  refine .inl (denotes_iff.2 ⟨0, ?_⟩)
  rw [Nat.toString_eq_repr, Nat.toList_repr]
  rfl

/-- Of a positive number the plain digits are the greatest spelling, if they are there. -/
theorem isGreatest_iff_of_pos (hn : 0 < n) (hmem : toString n ∈ texts) :
    IsGreatest texts n text ↔ text = toString n := by
  have hplain : IsGreatest texts n (toString n) :=
    ⟨hmem, spells_toString n, fun other _ hother => hother.isLE_toString hn⟩
  exact hplain.iff_eq

/-- Of zero it is the longest spelling without a sign, or else the longest one with a sign. -/
theorem isGreatest_zero_iff :
    IsGreatest texts 0 text ↔ IsLongestZeros texts "" text ∨
      (∀ k, 0 < k → zeros "" k ∉ texts) ∧ IsLongestZeros texts "+" text := by
  constructor
  · rintro ⟨hmem, hspells, hisLE⟩
    have hlongest {sign : String} {k : Nat} (hk : 0 < k) (htext : text = zeros sign k)
        (hsign : ∀ j, 0 < j → Spells (zeros sign j) 0) : IsLongestZeros texts sign text := by
      refine ⟨k, hk, htext, hmem, fun j hj => ?_⟩
      rcases Nat.eq_zero_or_pos j with rfl | hpos
      · exact Nat.le_of_lt hk
      · exact isLE_zeros_iff.1 (htext ▸ hisLE _ hj (hsign j hpos))
    obtain ⟨k, hk, htext | htext⟩ := spells_zero_iff.1 hspells
    · exact .inl (hlongest hk htext fun j hj => spells_zero_iff.2 ⟨j, hj, .inl rfl⟩)
    · refine .inr ⟨fun j hj hplain => ?_,
        hlongest hk htext fun j hj => spells_zero_iff.2 ⟨j, hj, .inr rfl⟩⟩
      have hle := hisLE _ hplain (spells_zero_iff.2 ⟨j, hj, .inl rfl⟩)
      rw [htext] at hle
      exact not_isLE_of_lt (zeros_plus_lt hj) hle
  · rintro (⟨k, hk, rfl, hmem, hlongest⟩ | ⟨hnone, k, hk, rfl, hmem, hlongest⟩)
    · refine ⟨hmem, spells_zero_iff.2 ⟨k, hk, .inl rfl⟩, fun other hother hspells => ?_⟩
      obtain ⟨j, hj, rfl | rfl⟩ := spells_zero_iff.1 hspells
      · exact isLE_zeros_iff.2 (hlongest j hother)
      · exact isLE_of_lt (zeros_plus_lt hk)
    · refine ⟨hmem, spells_zero_iff.2 ⟨k, hk, .inr rfl⟩, fun other hother hspells => ?_⟩
      obtain ⟨j, hj, rfl | rfl⟩ := spells_zero_iff.1 hspells
      · exact absurd hother (hnone j hj)
      · exact isLE_zeros_iff.2 (hlongest j hother)

end Unsigned

end CrateDocs
