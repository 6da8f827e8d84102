import CrateDocs.Text.Blank
import Mathlib.Data.List.DropRight

/-!
# Trimmed texts

Trimming takes blanks away at both ends, and nothing else. What is left neither begins nor ends with
a blank.
-/

namespace CrateDocs

namespace Text

variable {cs : List Char}

/-- Whether a text neither begins nor ends with a blank. -/
structure Trimmed (cs : List Char) : Prop where
  head_not_blank : ∀ c ∈ cs.head?, isBlank c = false
  last_not_blank : ∀ c ∈ cs.getLast?, isBlank c = false

theorem trim_eq_rdropWhile (cs : List Char) :
    trim cs = (cs.dropWhile isBlank).rdropWhile isBlank :=
  rfl

theorem exists_eq_append_trim (cs : List Char) :
    ∃ before after, cs = before ++ trim cs ++ after ∧
      (∀ c ∈ before, isBlank c = true) ∧ ∀ c ∈ after, isBlank c = true := by
  have hfront : cs.takeWhile isBlank ++ cs.dropWhile isBlank = cs := List.takeWhile_append_dropWhile
  have hback : trim cs ++ (cs.dropWhile isBlank).rtakeWhile isBlank = cs.dropWhile isBlank :=
    List.rdropWhile_append_rtakeWhile
  refine ⟨cs.takeWhile isBlank, (cs.dropWhile isBlank).rtakeWhile isBlank, ?_, ?_, ?_⟩
  · rw [List.append_assoc, hback, hfront]
  · intro c hc
    exact List.mem_takeWhile_imp hc
  · intro c hc
    exact List.mem_rtakeWhile_imp hc

theorem length_trim_le (cs : List Char) : (trim cs).length ≤ cs.length := by
  obtain ⟨before, after, hcs, -⟩ := exists_eq_append_trim cs
  have hlength := congrArg List.length hcs
  simp only [List.length_append] at hlength
  omega

theorem trim_eq_self_of_length_le (h : cs.length ≤ (trim cs).length) : trim cs = cs := by
  obtain ⟨before, after, hcs, -⟩ := exists_eq_append_trim cs
  have hlength := congrArg List.length hcs
  simp only [List.length_append] at hlength
  have hbefore : before = [] := List.eq_nil_of_length_eq_zero (by omega)
  have hafter : after = [] := List.eq_nil_of_length_eq_zero (by omega)
  rw [hbefore, hafter, List.nil_append, List.append_nil] at hcs
  exact hcs.symm

theorem trimmed_trim (cs : List Char) : Trimmed (trim cs) where
  head_not_blank c hc := by
    have hstart : trim cs <+: cs.dropWhile isBlank := List.rdropWhile_prefix isBlank _
    have hhead : (cs.dropWhile isBlank).head? = some c := by
      obtain ⟨after, hafter⟩ := hstart
      rw [← hafter, List.head?_append, Option.mem_def.1 hc, Option.some_or]
    have hnot := List.head?_dropWhile_not isBlank cs
    rw [hhead] at hnot
    exact hnot
  last_not_blank c hc := by
    have hne : trim cs ≠ [] := by
      intro hnil
      rw [hnil] at hc
      cases hc
    have hlast : (trim cs).getLast hne = c := by
      rw [Option.mem_def, List.getLast?_eq_some_getLast hne, Option.some.injEq] at hc
      exact hc
    have hnot := List.rdropWhile_last_not isBlank (cs.dropWhile isBlank) hne
    rw [← Bool.not_eq_true, ← hlast]
    exact hnot

theorem Trimmed.trim_eq (h : Trimmed cs) : trim cs = cs := by
  have hfront : cs.dropWhile isBlank = cs := by
    rw [List.dropWhile_eq_self_iff]
    intro hpos
    rw [h.head_not_blank _ (List.head?_eq_getElem? ▸ List.getElem?_eq_getElem hpos)]
    exact Bool.false_ne_true
  rw [trim_eq_rdropWhile, hfront, List.rdropWhile_eq_self_iff]
  intro hne
  rw [h.last_not_blank _ (List.getLast?_eq_some_getLast hne)]
  exact Bool.false_ne_true

end Text

end CrateDocs
