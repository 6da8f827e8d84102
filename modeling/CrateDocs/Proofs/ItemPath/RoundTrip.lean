import CrateDocs.Proofs.ItemPath.Split
import CrateDocs.Proofs.Text.Trim

/-!
# Reading what is written for a path

Reading a path gives names only, in the order in which they stand in the text, and skips nothing
but blanks and colons. A path is read back from what is written for it exactly if it consists of
names and no name but the last ends with a colon.
-/

namespace CrateDocs

namespace ItemPath

open Text

variable {cs rest : List Char} {pieces names : List (List Char)} {path : ItemPath}

/-- Whether a text can stand between pairs of colons: it is not empty, has no blank at either end
and holds no pair of colons. -/
structure IsName (cs : List Char) : Prop extends Trimmed cs where
  ne_nil : cs ≠ []
  lacks_separator : ¬ separator <:+: cs

/-- The names that a list of pieces comes to. -/
def namesOf (pieces : List (List Char)) : List (List Char) :=
  (pieces.map trim).filter fun name => !name.isEmpty

theorem map_toList_segments_parse (text : String) :
    (parse text).segments.map String.toList = namesOf (piecesOf text.toList) := by
  have hsegments : (parse text).segments = (namesOf (piecesOf text.toList)).map String.ofList := rfl
  rw [hsegments, List.map_map]
  exact List.map_id'' (fun _ => String.toList_ofList) _

theorem namesOf_cons_of_blank {piece : List Char} (h : trim piece = []) :
    namesOf (piece :: pieces) = namesOf pieces := by
  rw [namesOf, List.map_cons, List.filter_cons_of_neg (by simp [h]), namesOf]

theorem namesOf_cons_of_ne_nil {piece : List Char} (h : trim piece ≠ []) :
    namesOf (piece :: pieces) = trim piece :: namesOf pieces := by
  rw [namesOf, List.map_cons, List.filter_cons_of_pos (by simp [h]), namesOf]

theorem isName_of_mem_namesOf (h : ∀ piece ∈ pieces, ¬ separator <:+: piece) :
    ∀ name ∈ namesOf pieces, IsName name := by
  intro name hname
  obtain ⟨hmem, hne⟩ := List.mem_filter.1 hname
  obtain ⟨piece, hpiece, rfl⟩ := List.mem_map.1 hmem
  obtain ⟨before, after, heq, -⟩ := exists_eq_append_trim piece
  have hinfix : trim piece <:+: piece := ⟨before, after, heq.symm⟩
  have hne : trim piece ≠ [] := by
    intro hnil
    rw [hnil] at hne
    cases hne
  exact ⟨trimmed_trim piece, hne, fun hseparator => h piece hpiece (hseparator.trans hinfix)⟩

/-- Pieces that are names are taken as they are. -/
theorem namesOf_eq_self (h : ∀ name ∈ names, IsName name) : namesOf names = names := by
  induction names with
  | nil => rfl
  | cons name names ih =>
    rw [List.forall_mem_cons] at h
    have htrim : trim name = name := h.1.trim_eq
    rw [namesOf_cons_of_ne_nil (htrim.symm ▸ h.1.ne_nil), htrim, ih h.2]

theorem isName_of_mem_parse (text : String) :
    ∀ segment ∈ (parse text).segments, IsName segment.toList := by
  have hnames := isName_of_mem_namesOf (separator_not_infix_of_mem_piecesOf text.toList)
  rwa [← map_toList_segments_parse, List.forall_mem_map] at hnames

/-- The length of a list of pieces when a pair of colons is written after each of them. -/
def writtenLength : List (List Char) → Nat
  | [] => 0
  | piece :: pieces => piece.length + separator.length + writtenLength pieces

/-- In a text no pair of colons follows the last piece. -/
theorem length_intercalate (h : pieces ≠ []) :
    (separator.intercalate pieces).length + separator.length = writtenLength pieces := by
  induction pieces with
  | nil => exact absurd rfl h
  | cons first others ih =>
    cases others with
    | nil => rw [List.intercalate_singleton, writtenLength]; rfl
    | cons second pieces =>
      have hothers := ih (List.cons_ne_nil second pieces)
      rw [List.intercalate_cons_cons, writtenLength, ← hothers]
      simp only [List.length_append]
      omega

theorem writtenLength_namesOf_le (pieces : List (List Char)) :
    writtenLength (namesOf pieces) ≤ writtenLength pieces := by
  induction pieces with
  | nil => exact Nat.le_refl _
  | cons piece pieces ih =>
    rw [writtenLength]
    by_cases hblank : trim piece = []
    · rw [namesOf_cons_of_blank hblank]
      omega
    · have hpiece := length_trim_le piece
      rw [namesOf_cons_of_ne_nil hblank, writtenLength]
      omega

/-- If no length is lost, the pieces were names already. -/
theorem namesOf_eq_self_of_writtenLength_le
    (h : writtenLength pieces ≤ writtenLength (namesOf pieces)) : namesOf pieces = pieces := by
  induction pieces with
  | nil => rfl
  | cons piece pieces ih =>
    have hpieces := writtenLength_namesOf_le pieces
    rw [writtenLength] at h
    by_cases hblank : trim piece = []
    · have hpos : 0 < separator.length := Nat.zero_lt_two
      rw [namesOf_cons_of_blank hblank] at h
      omega
    · have hpiece := length_trim_le piece
      rw [namesOf_cons_of_ne_nil hblank, writtenLength] at h
      have htrim : trim piece = piece := trim_eq_self_of_length_le (by omega)
      rw [namesOf_cons_of_ne_nil hblank, htrim, ih (by omega)]

/-- Whether a path consists of names of which none but the last ends with a colon. -/
structure Legible (path : ItemPath) : Prop where
  isName : ∀ segment ∈ path.segments, IsName segment.toList
  getLast?_ne : ∀ segment ∈ path.segments.dropLast, segment.toList.getLast? ≠ some ':'

theorem toList_render (path : ItemPath) :
    path.render.toList = separator.intercalate (path.segments.map String.toList) :=
  String.toList_intercalate

/-- A path is read back if and only if its names are those of the pieces of the text. -/
theorem parse_render_eq_iff_namesOf :
    parse path.render = path ↔
      namesOf (piecesOf (separator.intercalate (path.segments.map String.toList))) =
        path.segments.map String.toList := by
  rw [← toList_render, ← map_toList_segments_parse]
  constructor
  · intro h
    rw [h]
  · intro h
    have hsegments : (parse path.render).segments = path.segments :=
      List.map_injective_iff.2 (fun _ _ => String.toList_inj.1) h
    cases path
    exact congrArg ItemPath.mk hsegments

theorem Legible.parse_render (h : path.Legible) : parse path.render = path := by
  have hnames : ∀ name ∈ path.segments.map String.toList, IsName name := by
    rw [List.forall_mem_map]
    exact h.isName
  rw [parse_render_eq_iff_namesOf]
  by_cases hnil : path.segments.map String.toList = []
  · rw [hnil]
    rfl
  · have hpieces : piecesOf (separator.intercalate (path.segments.map String.toList)) =
        path.segments.map String.toList := by
      apply piecesOf_intercalate hnil
      · intro name hname
        exact (hnames name hname).lacks_separator
      · rw [← List.map_dropLast, List.forall_mem_map]
        exact h.getLast?_ne
    rw [hpieces, namesOf_eq_self hnames]

/-- A path that is read back is as long as the pieces of the text, so that it consists of these
very pieces. -/
theorem segments_eq_piecesOf (h : parse path.render = path) (hne : path.segments ≠ []) :
    path.segments.map String.toList = piecesOf path.render.toList := by
  have hnames : namesOf (piecesOf path.render.toList) = path.segments.map String.toList := by
    rw [← map_toList_segments_parse, h]
  have hpieces := length_intercalate (piecesOf_ne_nil path.render.toList)
  have hsegments : (separator.intercalate (path.segments.map String.toList)).length +
      separator.length = writtenLength (path.segments.map String.toList) :=
    length_intercalate (mt List.map_eq_nil_iff.1 hne)
  rw [intercalate_piecesOf] at hpieces
  rw [← toList_render] at hsegments
  rw [← hnames]
  apply namesOf_eq_self_of_writtenLength_le
  rw [hnames, ← hpieces, hsegments]

theorem legible_of_parse_render (h : parse path.render = path) : path.Legible where
  isName := by
    have hnames := isName_of_mem_parse path.render
    rwa [h] at hnames
  getLast?_ne := by
    by_cases hne : path.segments = []
    · rw [hne]
      simp
    · have hlast := getLast?_ne_of_mem_dropLast_piecesOf path.render.toList
      rwa [← segments_eq_piecesOf h hne, ← List.map_dropLast, List.forall_mem_map] at hlast

/-- Whether a text consists of some names, one after the other, and of blanks and colons before,
between and after them. -/
inductive Spells : List (List Char) → List Char → Prop
  | nil {gap : List Char} (hgap : ∀ c ∈ gap, isBlank c = true ∨ c = ':') : Spells [] gap
  | cons {gap name rest : List Char} {names : List (List Char)}
      (hgap : ∀ c ∈ gap, isBlank c = true ∨ c = ':') (hrest : Spells names rest) :
      Spells (name :: names) (gap ++ name ++ rest)

namespace Spells

variable {gap : List Char}

theorem gap_append (hgap : ∀ c ∈ gap, isBlank c = true ∨ c = ':') (h : Spells names rest) :
    Spells names (gap ++ rest) := by
  cases h with
  | nil hrest => exact .nil (List.forall_mem_append.2 ⟨hgap, hrest⟩)
  | cons hfront hrest =>
    rw [← List.append_assoc, ← List.append_assoc]
    exact .cons (List.forall_mem_append.2 ⟨hgap, hfront⟩) hrest

/-- A piece brings its name with it, or nothing if it is blank. -/
theorem piece_append (piece : List Char) (h : Spells (namesOf pieces) rest) :
    Spells (namesOf (piece :: pieces)) (piece ++ rest) := by
  obtain ⟨before, after, hpiece, hbefore, hafter⟩ := exists_eq_append_trim piece
  have hgap : ∀ c ∈ before, isBlank c = true ∨ c = ':' := fun c hc => .inl (hbefore c hc)
  have hrest : Spells (namesOf pieces) (after ++ rest) :=
    h.gap_append fun c hc => .inl (hafter c hc)
  have htext : piece ++ rest = before ++ trim piece ++ (after ++ rest) := by
    rw [← List.append_assoc, ← hpiece]
  rw [htext]
  by_cases hblank : trim piece = []
  · rw [namesOf_cons_of_blank hblank, hblank, List.append_nil]
    exact hrest.gap_append hgap
  · rw [namesOf_cons_of_ne_nil hblank]
    exact .cons hgap hrest

theorem namesOf_intercalate (pieces : List (List Char)) :
    Spells (namesOf pieces) (separator.intercalate pieces) := by
  induction pieces with
  | nil => exact .nil (by simp)
  | cons first others ih =>
    cases others with
    | nil =>
      have hnone : Spells (namesOf []) [] := .nil (by simp)
      have hfirst := hnone.piece_append first
      rw [List.append_nil] at hfirst
      rwa [List.intercalate_singleton]
    | cons second pieces =>
      rw [List.intercalate_cons_cons, List.append_assoc]
      apply piece_append
      exact ih.gap_append (by simp [separator])

end Spells

/-- A path is read back from what is written for it exactly if it is legible. Whatever text is read,
the path consists of names that stand in the text in this order and without overlap. -/
theorem parse_inverts_render :
    (∀ path : ItemPath, parse path.render = path ↔ path.Legible) ∧
      ∀ text : String, (∀ segment ∈ (parse text).segments, IsName segment.toList) ∧
        Spells ((parse text).segments.map String.toList) text.toList := by
  constructor
  · intro path
    exact ⟨legible_of_parse_render, Legible.parse_render⟩
  · intro text
    constructor
    · exact isName_of_mem_parse text
    · rw [map_toList_segments_parse]
      have hspells := Spells.namesOf_intercalate (piecesOf text.toList)
      rwa [intercalate_piecesOf] at hspells

end ItemPath

end CrateDocs
