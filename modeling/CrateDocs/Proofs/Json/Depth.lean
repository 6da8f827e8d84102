import CrateDocs.Json.Reader
import CrateDocs.Proofs.Json.Regular

/-!
# How deep values nest

The depth of a value is the greatest number of arrays and objects in it that enclose each other.
Neither the canonical form nor what a value contains nests deeper than the value, and a reader of
text lets nothing nest deeper than its limit.
-/

namespace CrateDocs

namespace Json

mutual

/-- How many arrays and objects of a value enclose each other at most. -/
def depth : Json → Nat
  | .null | .bool _ | .num _ | .str _ => 0
  | .arr items => depthOfItems items + 1
  | .obj members => depthOfMembers members + 1

def depthOfItems : List Json → Nat
  | [] => 0
  | v :: vs => max v.depth (depthOfItems vs)

def depthOfMembers : List (String × Json) → Nat
  | [] => 0
  | (_, v) :: rest => max v.depth (depthOfMembers rest)

end

variable {items : List Json} {members : List (String × Json)} {n : Nat}

theorem depthOfItems_le : depthOfItems items ≤ n ↔ ∀ v ∈ items, v.depth ≤ n := by
  induction items with
  | nil => simp [depthOfItems]
  | cons v vs ih => rw [depthOfItems, Nat.max_le, ih, List.forall_mem_cons]

theorem depthOfMembers_le : depthOfMembers members ≤ n ↔ ∀ m ∈ members, m.2.depth ≤ n := by
  induction members with
  | nil => simp [depthOfMembers]
  | cons m rest ih => rw [depthOfMembers, Nat.max_le, ih, List.forall_mem_cons]

theorem depth_arr_le : (arr items).depth ≤ n + 1 ↔ ∀ v ∈ items, v.depth ≤ n := by
  rw [depth, Nat.add_le_add_iff_right, depthOfItems_le]

theorem depth_obj_le : (obj members).depth ≤ n + 1 ↔ ∀ m ∈ members, m.2.depth ≤ n := by
  rw [depth, Nat.add_le_add_iff_right, depthOfMembers_le]

theorem depth_le_depthOfItems {v : Json} (h : v ∈ items) : v.depth ≤ depthOfItems items :=
  depthOfItems_le.1 (Nat.le_refl _) v h

theorem depth_le_depthOfMembers {m : String × Json} (h : m ∈ members) :
    m.2.depth ≤ depthOfMembers members :=
  depthOfMembers_le.1 (Nat.le_refl _) m h

theorem depth_arr_cons (v : Json) (items : List Json) :
    (arr (v :: items)).depth = max (v.depth + 1) (arr items).depth := by
  simp only [depth, depthOfItems]
  omega

theorem depth_obj_cons (key : String) (v : Json) (members : List (String × Json)) :
    (obj ((key, v) :: members)).depth = max (v.depth + 1) (obj members).depth := by
  simp only [depth, depthOfMembers]
  omega

theorem depth_arr_reverse_le (items : List Json) :
    (arr items.reverse).depth ≤ (arr items).depth :=
  depth_arr_le.2 fun _ hv => depth_le_depthOfItems (List.mem_reverse.1 hv)

mutual

/-- To put the members of objects in order nests nothing deeper. -/
theorem depth_canonical_le : (v : Json) → v.canonical.depth ≤ v.depth
  | .null | .bool _ | .num _ | .str _ => Nat.le_refl _
  | .arr items => Nat.succ_le_succ (depthOfItems_canonical_le items)
  | .obj members => by
    have hmembers := depthOfMembers_le.1 (depthOfMembers_canonical_le members)
    exact depth_obj_le.2 fun m hm => hmembers m (mem_of_mem_sortMembers hm)

theorem depthOfItems_canonical_le :
    (items : List Json) → depthOfItems (canonicalItems items) ≤ depthOfItems items
  | [] => Nat.le_refl _
  | v :: vs => by
    have hv := depth_canonical_le v
    have hvs := depthOfItems_canonical_le vs
    simp only [canonicalItems, depthOfItems]
    omega

theorem depthOfMembers_canonical_le :
    (members : List (String × Json)) →
      depthOfMembers (canonicalMembers members) ≤ depthOfMembers members
  | [] => Nat.le_refl _
  | (_, v) :: rest => by
    have hv := depth_canonical_le v
    have hrest := depthOfMembers_canonical_le rest
    simp only [canonicalMembers, depthOfMembers]
    omega

end

theorem holdsNames_none (v : Json) : HoldsNames none v :=
  fun heq => absurd heq (by simp)

mutual

/-- A value nests at least as deep as a regular value that it contains. -/
theorem Regular.depth_le_of_containsAt : {e : Json} → e.Regular → {key : Option String} →
    HoldsNames key e → {v : Json} → ContainsAt key v e → e.depth ≤ v.depth
  | .null, _, _, _, _, _ | .bool _, _, _, _, _, _ | .num _, _, _, _, _, _
  | .str _, _, _, _, _, _ => Nat.zero_le _
  | .arr expected, h, key, hnames, v, hv => by
    obtain ⟨items, rfl, hitems⟩ := hv
    split at hitems
    · rename_i hkey
      -- A set of names may be written with fewer names than the array has.
      obtain ⟨names, rfl⟩ := hnames hkey expected rfl
      refine depth_arr_le.2 fun w hw => ?_
      obtain ⟨name, -, rfl⟩ := List.mem_map.1 hw
      exact Nat.zero_le _
    · exact Nat.succ_le_succ (RegularItems.depth_le_of_containsItems h hitems)
  | .obj expected, h, _, _, v, hv => by
    obtain ⟨members, rfl, hfields, -⟩ := hv
    exact depth_obj_le.2 (RegularMembers.depth_le_of_containsFields h.2 hfields)

theorem RegularItems.depth_le_of_containsItems : {expected : List Json} →
    RegularItems expected → {items : List Json} → ContainsItems items expected →
      depthOfItems expected ≤ depthOfItems items
  | [], _, _, _ => Nat.zero_le _
  | _ :: _, ⟨h, hs⟩, _, hitems => by
    obtain ⟨w, ws, rfl, hw, hws⟩ := hitems
    have hhead := h.depth_le_of_containsAt (holdsNames_none _) hw
    have htail := RegularItems.depth_le_of_containsItems hs hws
    simp only [depthOfItems]
    omega

theorem RegularMembers.depth_le_of_containsFields : {expected : List (String × Json)} →
    RegularMembers expected → {members : List (String × Json)} →
      ContainsFields members expected → ∀ m ∈ expected, m.2.depth ≤ depthOfMembers members
  | (key, e) :: rest, ⟨hnames, h, hs⟩, members, ⟨hfield, hfields⟩, m, hm => by
    rcases List.mem_cons.1 hm with rfl | hm
    · split at hfield
      · rename_i w hw
        exact Nat.le_trans (h.depth_le_of_containsAt hnames hfield)
          (depth_le_depthOfMembers (mem_of_member? hw))
      · rw [hfield]
        exact Nat.zero_le _
    · exact RegularMembers.depth_le_of_containsFields hs hfields m hm

end

theorem Regular.depth_le {v e : Json} (h : e.Regular) (hv : v.Contains e) : e.depth ≤ v.depth :=
  h.depth_le_of_containsAt (holdsNames_none e) hv

theorem Regular.depth_le_of_hasField {key : String} {e : Json} (h : e.Regular)
    (hnames : HoldsNames (some key) e) (hfield : HasField members key e) :
    e.depth ≤ depthOfMembers members := by
  have hexpected : RegularMembers [(key, e)] := ⟨hnames, h, trivial⟩
  have hfields : ContainsFields members [(key, e)] := ⟨hfield, trivial⟩
  exact hexpected.depth_le_of_containsFields hfields (key, e) List.mem_cons_self

end Json

namespace Reader

open Json

/-- An open array or object as if it ended here. -/
def Frame.close : Frame → Json
  | .array items => .arr items
  | .object members _ => .obj members

/-- Whether what is open, and what is in it so far, nests within the limit. -/
def Fits (limit : Nat) : List Frame → Prop
  | [] => True
  | frame :: outer => outer.length + frame.close.depth ≤ limit ∧ Fits limit outer

/-- Whether all that has been read so far nests within the limit. -/
def State.Fits (limit : Nat) : State → Prop
  | .value frames => Reader.Fits limit frames
  | .firstItem frames => Reader.Fits limit (.array [] :: frames)
  | .firstKey frames => Reader.Fits limit (.object [] "" :: frames)
  | .key members frames | .colon members _ frames =>
    Reader.Fits limit (.object members "" :: frames)
  | .after frames v => frames.length + v.depth ≤ limit ∧ Reader.Fits limit frames

variable {limit : Nat} {frames : List Frame} {lexeme : Lexeme} {state next : State}

theorem depth_close_pos (frame : Frame) : 0 < frame.close.depth := by
  cases frame <;> exact Nat.succ_pos _

theorem Fits.length_le (h : Fits limit frames) : frames.length ≤ limit := by
  cases frames with
  | nil => exact Nat.zero_le _
  | cons frame outer =>
    have hpos := depth_close_pos frame
    have hhead := h.1
    rw [List.length_cons]
    omega

theorem depth_closeObject_le (members : List (String × Json)) :
    (closeObject members).depth ≤ (Json.obj members).depth :=
  depth_obj_le.2 fun _ hm =>
    depth_le_depthOfMembers (List.mem_reverse.1 (mem_of_mem_sortMembers hm))

theorem fits_startValue (h : startValue limit frames lexeme = some next)
    (hframes : Fits limit frames) : next.Fits limit := by
  unfold startValue opened at h
  split at h
  case h_1 | h_2 =>
    split at h
    · rename_i hlength
      cases h
      exact ⟨hlength, hframes⟩
    · cases h
  case h_3 | h_4 | h_5 | h_6 =>
    cases h
    exact ⟨hframes.length_le, hframes⟩
  all_goals cases h

/-- One more lexeme keeps within the limit what has been read. -/
theorem fits_step (h : step limit state lexeme = some next) (hstate : state.Fits limit) :
    next.Fits limit := by
  unfold step at h
  split at h
  case h_1 => exact fits_startValue h hstate
  case h_3 => exact fits_startValue h hstate
  all_goals cases h
  case h_2 | h_4 | h_5 | h_6 | h_7 => exact hstate
  -- A finished value joins what the innermost open array or object holds already.
  all_goals
    obtain ⟨hvalue, hframe, hframes⟩ := hstate
    rw [List.length_cons] at hvalue
    dsimp only [Frame.close] at hframe
  case h_8 items frames v =>
    have hopen := depth_arr_cons v items
    exact ⟨by dsimp only [Frame.close]; omega, hframes⟩
  case h_9 items frames v =>
    have hopen := depth_arr_cons v items
    have hclose := depth_arr_reverse_le (v :: items)
    exact ⟨by omega, hframes⟩
  case h_10 members key frames v =>
    have hopen := depth_obj_cons key v members
    exact ⟨by dsimp only [Frame.close]; omega, hframes⟩
  case h_11 members key frames v =>
    have hopen := depth_obj_cons key v members
    have hclose := depth_closeObject_le ((key, v) :: members)
    exact ⟨by omega, hframes⟩

/-- So do any number of lexemes. -/
theorem fits_foldlM {lexemes : List Lexeme} (h : lexemes.foldlM (step limit) state = some next)
    (hstate : state.Fits limit) : next.Fits limit := by
  induction lexemes generalizing state with
  | nil =>
    cases h
    exact hstate
  | cons lexeme rest ih =>
    rw [List.foldlM_cons, Option.bind_eq_bind, Option.bind_eq_some_iff] at h
    obtain ⟨middle, hstep, hrest⟩ := h
    exact ih hrest (fits_step hstep hstate)

end Reader

namespace Json

theorem depth_le_of_ofLexemes? {limit : Nat} {lexemes : List Lexeme} {v : Json}
    (h : ofLexemes? limit lexemes = some v) : v.depth ≤ limit := by
  unfold ofLexemes? at h
  rw [Option.bind_eq_bind, Option.bind_eq_some_iff] at h
  obtain ⟨final, hrun, hresult⟩ := h
  have hfinal : final.Fits limit := Reader.fits_foldlM hrun trivial
  unfold Reader.result? at hresult
  split at hresult
  · cases hresult
    simpa using hfinal.1
  · cases hresult

/-- The value of a text nests within the limit. -/
theorem depth_le_of_ofTextWithin? {limit : Nat} {text : String} {v : Json}
    (h : ofTextWithin? limit text = some v) : v.depth ≤ limit := by
  unfold ofTextWithin? at h
  rw [Option.bind_eq_bind, Option.bind_eq_some_iff] at h
  obtain ⟨lexemes, -, hlexemes⟩ := h
  exact depth_le_of_ofLexemes? hlexemes

end Json

end CrateDocs
