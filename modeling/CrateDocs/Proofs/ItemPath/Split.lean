import CrateDocs.ItemPath

/-!
# Splitting at pairs of colons

A text is split at the leftmost pair of colons, and then what comes after it. The pieces make up
the text again when they are joined. They are the only list with this property in which no piece
holds a pair of colons and none but the last ends with a colon.
-/

namespace CrateDocs

namespace ItemPath

variable {cs rest piece : List Char} {pieces : List (List Char)}

/-- What stands between the names of a path. -/
def separator : List Char := [':', ':']

/-- The stretches of a text between its pairs of colons. -/
def piecesOf (cs : List Char) : List (List Char) :=
  (split cs).1 :: (split cs).2

theorem piecesOf_ne_nil (cs : List Char) : piecesOf cs ≠ [] :=
  List.cons_ne_nil _ _

theorem piecesOf_separator_append (rest : List Char) :
    piecesOf (separator ++ rest) = [] :: piecesOf rest :=
  rfl

/-- A character that begins no pair of colons belongs to the first piece. -/
theorem split_cons {c : Char} (h : ¬ separator <+: c :: cs) :
    split (c :: cs) = (c :: (split cs).1, (split cs).2) := by
  rw [split]
  intro rest hc hcs
  subst hc hcs
  exact h ⟨rest, rfl⟩

/-- A text is empty, begins with a pair of colons, or begins with a character of its first piece. -/
theorem split_induction {motive : List Char → Prop} (nil : motive [])
    (separator : ∀ rest, motive rest → motive (separator ++ rest))
    (cons : ∀ c cs, ¬ ItemPath.separator <+: c :: cs → motive cs → motive (c :: cs))
    (cs : List Char) : motive cs := by
  induction cs using split.induct with
  | case1 => exact nil
  | case2 rest _ _ _ ih => exact separator rest ih
  | case3 c rest hne _ _ _ ih =>
    apply cons c rest _ ih
    intro h
    obtain ⟨tail, htail⟩ := h
    cases htail
    exact hne tail rfl rfl

/-- The pieces of a text make it up again. -/
theorem intercalate_piecesOf (cs : List Char) : separator.intercalate (piecesOf cs) = cs := by
  induction cs using split_induction with
  | nil => rfl
  | separator rest ih =>
    rw [piecesOf_separator_append, List.intercalate_cons_of_ne_nil (piecesOf_ne_nil rest), ih,
      List.nil_append]
  | cons c cs h ih => rw [piecesOf, split_cons h, List.intercalate_cons_cons_left, ← piecesOf, ih]

/-- A text begins with its first piece. -/
theorem split_fst_prefix (cs : List Char) : (split cs).1 <+: cs := by
  have hcs := intercalate_piecesOf cs
  unfold piecesOf at hcs
  cases hsplit : (split cs).2 with
  | nil =>
    rw [hsplit, List.intercalate_singleton] at hcs
    exact ⟨[], by rw [List.append_nil, hcs]⟩
  | cons second pieces =>
    rw [hsplit, List.intercalate_cons_cons, List.append_assoc] at hcs
    exact ⟨_, hcs⟩

/-- No piece holds a pair of colons. -/
theorem separator_not_infix_of_mem_piecesOf (cs : List Char) :
    ∀ piece ∈ piecesOf cs, ¬ separator <:+: piece := by
  induction cs using split_induction with
  | nil =>
    rw [piecesOf, split, List.forall_mem_singleton, List.infix_nil]
    exact List.cons_ne_nil _ _
  | separator rest ih =>
    rw [piecesOf_separator_append, List.forall_mem_cons, List.infix_nil]
    exact ⟨List.cons_ne_nil _ _, ih⟩
  | cons c cs h ih =>
    rw [piecesOf, List.forall_mem_cons] at ih
    rw [piecesOf, split_cons h, List.forall_mem_cons, List.infix_cons_iff]
    refine ⟨?_, ih.2⟩
    rintro (hstart | hinfix)
    · -- The pair would begin with the character in the text as well.
      exact h (hstart.trans (List.cons_prefix_cons.2 ⟨rfl, split_fst_prefix cs⟩))
    · exact ih.1 hinfix

/-- No piece but the last ends with a colon, which would have been split off with the next one. -/
theorem getLast?_ne_of_mem_dropLast_piecesOf (cs : List Char) :
    ∀ piece ∈ (piecesOf cs).dropLast, piece.getLast? ≠ some ':' := by
  induction cs using split_induction with
  | nil => simp [piecesOf, split]
  | separator rest ih =>
    rw [piecesOf_separator_append, List.dropLast_cons_of_ne_nil (piecesOf_ne_nil rest),
      List.forall_mem_cons]
    exact ⟨by simp, ih⟩
  | cons c cs h ih =>
    have hcs := intercalate_piecesOf cs
    rw [piecesOf] at ih hcs
    rw [piecesOf, split_cons h]
    cases hrest : (split cs).2 with
    | nil => simp
    | cons second pieces =>
      rw [hrest, List.dropLast_cons_cons, List.forall_mem_cons] at ih
      rw [hrest, List.intercalate_cons_cons] at hcs
      rw [List.dropLast_cons_cons, List.forall_mem_cons]
      refine ⟨?_, ih.2⟩
      cases hfirst : (split cs).1 with
      | nil =>
        -- A pair of colons follows, so that the character is no colon.
        rw [List.getLast?_singleton, ne_eq, Option.some.injEq]
        rintro rfl
        rw [hfirst, List.nil_append] at hcs
        rw [← hcs] at h
        exact h ⟨':' :: separator.intercalate (second :: pieces), rfl⟩
      | cons d ds =>
        rw [List.getLast?_cons_cons, ← hfirst]
        exact ih.1

theorem piecesOf_eq_singleton (h : ¬ separator <:+: cs) : piecesOf cs = [cs] := by
  induction cs with
  | nil => rfl
  | cons c cs ih =>
    rw [List.infix_cons_iff, not_or] at h
    have hcs := ih h.2
    rw [piecesOf, List.cons.injEq] at hcs
    rw [piecesOf, split_cons h.1, hcs.1, hcs.2]

/-- The first piece goes as far as the first pair of colons, provided that no colon stands right
before this pair. -/
theorem piecesOf_append (hpiece : ¬ separator <:+: piece) (hlast : piece.getLast? ≠ some ':')
    (rest : List Char) : piecesOf (piece ++ separator ++ rest) = piece :: piecesOf rest := by
  induction piece with
  | nil => exact piecesOf_separator_append rest
  | cons c cs ih =>
    rw [List.infix_cons_iff, not_or] at hpiece
    have hnot : ¬ separator <+: c :: (cs ++ separator ++ rest) := by
      cases cs with
      | nil =>
        rintro ⟨tail, htail⟩
        cases htail
        exact hlast rfl
      | cons d ds =>
        rintro ⟨tail, htail⟩
        cases htail
        exact hpiece.1 ⟨ds, rfl⟩
    have hcs : piecesOf (cs ++ separator ++ rest) = cs :: piecesOf rest := by
      apply ih hpiece.2
      cases cs with
      | nil => simp
      | cons d ds => rwa [List.getLast?_cons_cons] at hlast
    rw [piecesOf, List.cons.injEq] at hcs
    rw [List.cons_append, List.cons_append, piecesOf, split_cons hnot, hcs.1, hcs.2]

/-- Splitting gives back the pieces that were joined. -/
theorem piecesOf_intercalate (hne : pieces ≠ [])
    (hpieces : ∀ piece ∈ pieces, ¬ separator <:+: piece)
    (hlast : ∀ piece ∈ pieces.dropLast, piece.getLast? ≠ some ':') :
    piecesOf (separator.intercalate pieces) = pieces := by
  induction pieces with
  | nil => exact absurd rfl hne
  | cons first others ih =>
    rw [List.forall_mem_cons] at hpieces
    cases others with
    | nil => rw [List.intercalate_singleton, piecesOf_eq_singleton hpieces.1]
    | cons second pieces =>
      rw [List.dropLast_cons_cons, List.forall_mem_cons] at hlast
      rw [List.intercalate_cons_cons, piecesOf_append hpieces.1 hlast.1,
        ih (List.cons_ne_nil _ _) hpieces.2 hlast.2]

end ItemPath

end CrateDocs
