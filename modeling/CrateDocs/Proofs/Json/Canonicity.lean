import CrateDocs.Json.Reader

/-!
# What is read from a text is canonical

Every array and object that is still open holds canonical values only, and an object is put in
order when it is closed.
-/

namespace CrateDocs

open Json

theorem Json.canonicalItems_iff {items : List Json} :
    CanonicalItems items ↔ ∀ v ∈ items, v.Canonical := by
  induction items with
  | nil => simp [CanonicalItems]
  | cons v rest ih => rw [CanonicalItems, ih, List.forall_mem_cons]

namespace Reader

/-- Whether an open array or object holds canonical values only. -/
def Frame.Canonical : Frame → Prop
  | .array items => CanonicalItems items
  | .object members _ => CanonicalMembers members

/-- Whether all that has been read so far is canonical. -/
def State.Canonical : State → Prop
  | .value frames | .firstItem frames | .firstKey frames => ∀ frame ∈ frames, frame.Canonical
  | .key members frames | .colon members _ frames =>
    CanonicalMembers members ∧ ∀ frame ∈ frames, frame.Canonical
  | .after frames v => v.Canonical ∧ ∀ frame ∈ frames, frame.Canonical

variable {limit : Nat} {frames : List Frame} {lexeme : Lexeme} {state next : State}

theorem canonical_arr_reverse {items : List Json} (h : CanonicalItems items) :
    (Json.arr items.reverse).Canonical := by
  rw [Json.Canonical, canonicalItems_iff]
  intro v hv
  exact canonicalItems_iff.1 h v (List.mem_reverse.1 hv)

theorem canonical_closeObject {members : List (String × Json)} (h : CanonicalMembers members) :
    (closeObject members).Canonical := by
  refine ⟨ascending_sortMembers _, canonicalMembers_iff.2 fun m hm => ?_⟩
  have hm := mem_of_mem_sortMembers hm
  exact canonicalMembers_iff.1 h m (List.mem_reverse.1 hm)

theorem canonical_startValue (h : startValue limit frames lexeme = some next)
    (hframes : ∀ frame ∈ frames, frame.Canonical) : next.Canonical := by
  unfold startValue opened at h
  split at h
  case h_1 | h_2 =>
    split at h
    · cases h
      exact hframes
    · cases h
  case h_3 | h_4 | h_5 | h_6 =>
    cases h
    exact ⟨trivial, hframes⟩
  all_goals cases h

/-- One more lexeme leaves canonical what has been read. -/
theorem canonical_step (h : step limit state lexeme = some next) (hstate : state.Canonical) :
    next.Canonical := by
  unfold step at h
  split at h
  case h_1 => exact canonical_startValue h hstate
  case h_3 => exact canonical_startValue h (List.forall_mem_cons.2 ⟨trivial, hstate⟩)
  all_goals cases h
  case h_2 => exact ⟨trivial, hstate⟩
  case h_4 => exact ⟨⟨List.Pairwise.nil, trivial⟩, hstate⟩
  case h_5 => exact ⟨trivial, hstate⟩
  case h_6 => exact hstate
  case h_7 => exact List.forall_mem_cons.2 hstate
  all_goals
    obtain ⟨hvalue, hframes⟩ := hstate
    obtain ⟨hframe, hframes⟩ := List.forall_mem_cons.1 hframes
  case h_8 => exact List.forall_mem_cons.2 ⟨⟨hvalue, hframe⟩, hframes⟩
  case h_9 => exact ⟨canonical_arr_reverse ⟨hvalue, hframe⟩, hframes⟩
  case h_10 => exact ⟨⟨hvalue, hframe⟩, hframes⟩
  case h_11 => exact ⟨canonical_closeObject ⟨hvalue, hframe⟩, hframes⟩

/-- So do any number of lexemes. -/
theorem canonical_foldlM {lexemes : List Lexeme}
    (h : lexemes.foldlM (step limit) state = some next) (hstate : state.Canonical) :
    next.Canonical := by
  induction lexemes generalizing state with
  | nil =>
    cases h
    exact hstate
  | cons lexeme rest ih =>
    rw [List.foldlM_cons, Option.bind_eq_bind, Option.bind_eq_some_iff] at h
    obtain ⟨middle, hstep, hrest⟩ := h
    exact ih hrest (canonical_step hstep hstate)

end Reader

theorem Json.canonical_of_ofLexemes? {limit : Nat} {lexemes : List Lexeme} {v : Json}
    (h : ofLexemes? limit lexemes = some v) : v.Canonical := by
  unfold ofLexemes? at h
  rw [Option.bind_eq_bind, Option.bind_eq_some_iff] at h
  obtain ⟨final, hrun, hresult⟩ := h
  have hfinal : final.Canonical := Reader.canonical_foldlM hrun (by simp [Reader.State.Canonical])
  unfold Reader.result? at hresult
  split at hresult
  · cases hresult
    exact hfinal.1
  · cases hresult

/-- The value of a text is canonical. -/
theorem Json.canonical_of_ofText? {text : String} {v : Json} (h : ofText? text = some v) :
    v.Canonical := by
  unfold ofText? ofTextWithin? at h
  rw [Option.bind_eq_bind, Option.bind_eq_some_iff] at h
  obtain ⟨lexemes, -, hlexemes⟩ := h
  exact canonical_of_ofLexemes? hlexemes

end CrateDocs
