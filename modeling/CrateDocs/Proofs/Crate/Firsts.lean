import CrateDocs.Crate.Dangling
import Mathlib.Data.List.Nodup

/-!
# First mentions

Of the mentions of one identifier only the first is kept. What is kept depends on the identifiers
that have been seen before, and the identifiers that are kept are seen from then on.
-/

namespace CrateDocs

namespace Mention

variable {seen : Std.ExtTreeSet ItemId compare} {mentions : List Mention} {mention : Mention}
  {id : ItemId}

theorem firsts_cons_of_mem (h : mention.id ∈ seen) :
    firsts seen (mention :: mentions) = firsts seen mentions := by
  rw [firsts, if_pos h]

theorem firsts_cons_of_notMem (h : mention.id ∉ seen) :
    firsts seen (mention :: mentions) =
      mention :: firsts (seen.insert mention.id) mentions := by
  rw [firsts, if_neg h]

theorem mem_insert_iff {other : ItemId} : id ∈ seen.insert other ↔ other = id ∨ id ∈ seen := by
  rw [Std.ExtTreeSet.mem_insert, Std.LawfulEqCmp.compare_eq_iff_eq]

/-- Precisely the identifiers that are mentioned and not seen before are kept. -/
theorem mem_map_firsts :
    id ∈ (firsts seen mentions).map Mention.id ↔ id ∉ seen ∧ id ∈ mentions.map Mention.id := by
  induction mentions generalizing seen with
  | nil => simp [firsts]
  | cons mention mentions ih =>
    by_cases h : mention.id ∈ seen
    · rw [firsts_cons_of_mem h, ih, List.map_cons, List.mem_cons]
      constructor
      · intro h
        rcases h with ⟨hseen, hmem⟩
        exact ⟨hseen, .inr hmem⟩
      · intro h
        rcases h with ⟨hseen, rfl | hmem⟩
        · exact absurd h hseen
        · exact ⟨hseen, hmem⟩
    · rw [firsts_cons_of_notMem h, List.map_cons, List.mem_cons, ih, mem_insert_iff, List.map_cons,
        List.mem_cons]
      constructor
      · intro h
        rcases h with rfl | ⟨hseen, hmem⟩
        · exact ⟨h, .inl rfl⟩
        · exact ⟨fun hid => hseen (.inr hid), .inr hmem⟩
      · intro h
        rcases h with ⟨hseen, rfl | hmem⟩
        · exact .inl rfl
        · by_cases heq : mention.id = id
          · exact .inl heq.symm
          · exact .inr ⟨fun hid => hid.elim heq hseen, hmem⟩

theorem notMem_of_mem_firsts (h : mention ∈ firsts seen mentions) : mention.id ∉ seen :=
  (mem_map_firsts.1 (List.mem_map_of_mem h)).1

theorem ne_of_mem_firsts (hid : id ∈ seen) (h : mention ∈ firsts seen mentions) :
    mention.id ≠ id := by
  rintro rfl
  exact notMem_of_mem_firsts h hid

/-- No identifier is kept twice. -/
theorem nodup_map_firsts : ((firsts seen mentions).map Mention.id).Nodup := by
  induction mentions generalizing seen with
  | nil => exact List.nodup_nil
  | cons mention mentions ih =>
    by_cases h : mention.id ∈ seen
    · rw [firsts_cons_of_mem h]
      exact ih
    · rw [firsts_cons_of_notMem h, List.map_cons, List.nodup_cons]
      refine ⟨fun hmem => ?_, ih⟩
      exact (mem_map_firsts.1 hmem).1 (mem_insert_iff.2 (.inl rfl))

/-- A mention that is kept comes before all others of its identifier. -/
theorem exists_eq_append_of_mem_firsts (h : mention ∈ firsts seen mentions) :
    ∃ before after, mentions = before ++ mention :: after ∧
      ∀ other ∈ before, other.id ≠ mention.id := by
  induction mentions generalizing seen with
  | nil => cases h
  | cons head mentions ih =>
    have hcons {seen'} (hid : head.id ∈ seen') (h : mention ∈ firsts seen' mentions) :
        ∃ before after, head :: mentions = before ++ mention :: after ∧
          ∀ other ∈ before, other.id ≠ mention.id := by
      obtain ⟨before, after, rfl, hbefore⟩ := ih h
      have hne := ne_of_mem_firsts hid h
      exact ⟨head :: before, after, rfl, List.forall_mem_cons.2 ⟨hne.symm, hbefore⟩⟩
    by_cases hid : head.id ∈ seen
    · rw [firsts_cons_of_mem hid] at h
      exact hcons hid h
    · rw [firsts_cons_of_notMem hid] at h
      rcases List.mem_cons.1 h with rfl | h
      · exact ⟨[], mentions, rfl, List.forall_mem_nil _⟩
      · exact hcons (mem_insert_iff.2 (.inl rfl)) h

theorem mem_of_mem_firsts (h : mention ∈ firsts seen mentions) : mention ∈ mentions := by
  obtain ⟨before, after, rfl, -⟩ := exists_eq_append_of_mem_firsts h
  exact List.mem_append_right _ List.mem_cons_self

/-- What is kept of a list depends on what comes before it only by the identifiers seen. -/
theorem firsts_append (seen : Std.ExtTreeSet ItemId compare) (mentions others : List Mention) :
    ∃ seen', firsts seen (mentions ++ others) = firsts seen mentions ++ firsts seen' others := by
  induction mentions generalizing seen with
  | nil => exact ⟨seen, rfl⟩
  | cons mention mentions ih =>
    by_cases h : mention.id ∈ seen
    · rw [List.cons_append, firsts_cons_of_mem h, firsts_cons_of_mem h]
      exact ih seen
    · rw [List.cons_append, firsts_cons_of_notMem h, firsts_cons_of_notMem h]
      obtain ⟨seen', heq⟩ := ih (seen.insert mention.id)
      exact ⟨seen', by rw [heq, List.cons_append]⟩

/-- The mentions that are kept stand in the order in which their identifiers first occur. -/
theorem pairwise_firsts (seen : Std.ExtTreeSet ItemId compare) (mentions : List Mention) :
    (firsts seen mentions).Pairwise fun a b =>
      (mentions.map Mention.id).idxOf a.id < (mentions.map Mention.id).idxOf b.id := by
  induction mentions generalizing seen with
  | nil => exact List.Pairwise.nil
  | cons mention mentions ih =>
    -- Behind the head, positions go up by one for every other identifier.
    have hidx {id : ItemId} (h : id ≠ mention.id) :
        ((mention :: mentions).map Mention.id).idxOf id =
          (mentions.map Mention.id).idxOf id + 1 := by
      rw [List.map_cons, List.idxOf_cons_ne _ (Ne.symm h)]
    have htail {seen'} (hid : mention.id ∈ seen') :
        (firsts seen' mentions).Pairwise fun a b =>
          ((mention :: mentions).map Mention.id).idxOf a.id <
            ((mention :: mentions).map Mention.id).idxOf b.id := by
      refine (ih seen').imp_of_mem fun {a b} ha hb hlt => ?_
      rw [hidx (ne_of_mem_firsts hid ha), hidx (ne_of_mem_firsts hid hb)]
      omega
    by_cases h : mention.id ∈ seen
    · rw [firsts_cons_of_mem h]
      exact htail h
    · have hid : mention.id ∈ seen.insert mention.id := mem_insert_iff.2 (.inl rfl)
      rw [firsts_cons_of_notMem h, List.pairwise_cons]
      refine ⟨fun other hother => ?_, htail hid⟩
      rw [hidx (ne_of_mem_firsts hid hother), List.map_cons, List.idxOf_cons_self]
      omega

end Mention

end CrateDocs
