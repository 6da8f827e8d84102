import CrateDocs.ItemPath

/-!
# The range of canonicality

Canonicality is computed with 32 bits. As long as its value by the integers is in range, longer
paths with more internal names rank lower. Paths of tens of millions of names keep to the range at
every step. Somewhat longer ones leave it if all of their names are internal, and the first to do so
ends close to the greatest number.
-/

namespace CrateDocs

namespace ItemPath

variable {path other : ItemPath}

/-- The canonicality of a path as an integer. -/
def rating (path : ItemPath) : Int :=
  100 - 8 * (path.segments.length - 1 : Nat) - 40 * path.segments.countP isInternal

/-- What one more name does to the canonicality. -/
def penalize (score : Int32) (segment : String) : Int32 :=
  if isInternal segment then score - 40 else score

theorem canonicality_eq_foldl :
    path.canonicality = path.segments.foldl penalize (100 - extraSegments path.segments * 8) :=
  rfl

theorem foldl_penalize (segments : List String) (start : Int) :
    segments.foldl penalize (.ofInt start) = .ofInt (start - 40 * segments.countP isInternal) := by
  induction segments generalizing start with
  | nil => simp
  | cons segment segments ih =>
    rw [List.foldl_cons, List.countP_cons]
    by_cases hinternal : isInternal segment
    · have hstep : penalize (.ofInt start) segment = .ofInt (start - 40) := by
        rw [penalize, if_pos hinternal, Int32.ofInt_sub]
        rfl
      rw [hstep, ih, if_pos hinternal]
      congr 1
      omega
    · rw [penalize, if_neg hinternal, ih, if_neg hinternal, Nat.add_zero]

theorem product_eq_ofInt {segments : List String} (h : segments.length ≤ 0x80000000) :
    extraSegments segments * 8 = .ofInt (8 * (segments.length - 1 : Nat)) := by
  have hlt : segments.length - 1 < 0x80000000 := by omega
  rw [extraSegments, if_pos hlt, Int.mul_comm, Int32.ofInt_mul]
  rfl

theorem start_eq_ofInt {segments : List String} (h : segments.length ≤ 0x80000000) :
    100 - extraSegments segments * 8 = .ofInt (100 - 8 * (segments.length - 1 : Nat)) := by
  rw [product_eq_ofInt h, Int32.ofInt_sub]
  rfl

/-- Canonicality is the integer that wraps around at 32 bits. -/
theorem canonicality_eq_ofInt (h : path.segments.length ≤ 0x80000000) :
    path.canonicality = .ofInt path.rating := by
  rw [canonicality_eq_foldl, start_eq_ofInt h, foldl_penalize]
  rfl

theorem toInt_canonicality (h : -0x80000000 ≤ path.rating) :
    path.canonicality.toInt = path.rating := by
  unfold rating at h
  rw [canonicality_eq_ofInt (by omega)]
  apply Int32.toInt_ofInt_of_le <;> unfold rating <;> omega

/-- Within the range longer paths with more internal names are not more canonical. -/
theorem canonicality_le (hlength : path.segments.length ≤ other.segments.length)
    (hinternal : path.segments.countP isInternal ≤ other.segments.countP isInternal)
    (h : -0x80000000 ≤ other.rating) : other.canonicality ≤ path.canonicality := by
  have hle : other.rating ≤ path.rating := by
    unfold rating
    omega
  rw [Int32.le_iff_toInt_le, toInt_canonicality h, toInt_canonicality (Int.le_trans h hle)]
  exact hle

/-- Whether no step in the computation of a canonicality leaves the range of 32 bits. -/
structure InRange (path : ItemPath) : Prop where
  product : (extraSegments path.segments * 8).toInt = 8 * (path.segments.length - 1 : Nat)
  step : ∀ before, before <+: path.segments →
    (before.foldl penalize (100 - extraSegments path.segments * 8)).toInt =
      100 - 8 * (path.segments.length - 1 : Nat) - 40 * before.countP isInternal
  canonicality : path.canonicality.toInt = path.rating

theorem inRange_of_le (hlength : path.segments.length ≤ 0x10000000)
    (h : -0x80000000 ≤ path.rating) : InRange path := by
  constructor
  · rw [product_eq_ofInt (by omega)]
    apply Int32.toInt_ofInt_of_le <;> omega
  · intro before hbefore
    have hcount : before.countP isInternal ≤ path.segments.countP isInternal :=
      hbefore.sublist.countP_le
    unfold rating at h
    rw [start_eq_ofInt (by omega), foldl_penalize]
    apply Int32.toInt_ofInt_of_le <;> omega
  · exact toInt_canonicality h

/-- The range is not left by paths of up to 44739244 names. -/
theorem inRange_of_length_le (h : path.segments.length ≤ 44739244) : InRange path := by
  have hcount : path.segments.countP isInternal ≤ path.segments.length := List.countP_le_length
  apply inRange_of_le
  · omega
  · unfold rating
    omega

/-- With one more name it is left if all of them are internal. -/
theorem canonicality_of_length_eq (hlength : path.segments.length = 44739245)
    (hinternal : ∀ segment ∈ path.segments, isInternal segment) :
    path.canonicality.toInt = 2147483644 := by
  have hcount := List.countP_eq_length.2 hinternal
  rw [canonicality_eq_ofInt (by omega), rating, hcount, hlength]
  rfl

theorem canonicality_replicate :
    (⟨List.replicate 44739245 "__"⟩ : ItemPath).canonicality.toInt = 2147483644 :=
  canonicality_of_length_eq List.length_replicate fun segment hsegment => by
    rw [List.eq_of_mem_replicate hsegment]
    rfl

end ItemPath

end CrateDocs
