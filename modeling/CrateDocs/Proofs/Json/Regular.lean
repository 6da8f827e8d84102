import CrateDocs.Proofs.Exactness.Entries

/-!
# Regular values

A value is regular when no key occurs twice in an object of it and when nothing but strings stands
where a set of names is expected. What is written for items is regular. The canonical form of a
regular value contains it: to put members in order loses nothing.
-/

namespace CrateDocs

namespace Table

variable {κ α : Type} [Ord κ] [Std.TransOrd κ] [Std.LawfulEqOrd κ] {entries : List (κ × α)}

theorem getElem?_ofEntries_of_nodup (h : (entries.map Prod.fst).Nodup) {key : κ} {value : α} :
    (ofEntries entries)[key]? = some value ↔ (key, value) ∈ entries := by
  constructor
  · exact mem_of_getElem?_ofEntries
  · refine Std.ExtTreeMap.getElem?_ofList_of_mem Std.ReflOrd.compare_self ?_
    refine (List.pairwise_map.1 h).imp fun hne heq => hne ?_
    exact Std.LawfulEqOrd.eq_of_compare heq

/-- A table is made from its entries in any order. -/
theorem ofEntries_of_perm {table : Table κ α} (h : entries.Perm table.toList) :
    ofEntries entries = table := by
  have hnodup : (entries.map Prod.fst).Nodup :=
    (h.map Prod.fst).nodup_iff.2 (ascending_toList table).nodup_keys
  refine Std.ExtTreeMap.ext_getElem? fun key => Option.ext fun value => ?_
  rw [getElem?_ofEntries_of_nodup hnodup, h.mem_iff, mem_toList_iff]

end Table

namespace Json

variable {members : List (String × Json)}

theorem mem_sortMembers (h : (members.map Prod.fst).Nodup) {m : String × Json} :
    m ∈ sortMembers members ↔ m ∈ members :=
  Table.mem_toList_iff.trans (Table.getElem?_ofEntries_of_nodup h)

theorem sortMembers_perm (h : (members.map Prod.fst).Nodup) :
    (sortMembers members).Perm members :=
  (List.perm_ext_iff_of_nodup (Table.nodup_of_ascending (ascending_sortMembers members))
    (List.Nodup.of_map _ h)).2 fun _ => mem_sortMembers h

theorem canonicalItems_eq_map (items : List Json) :
    canonicalItems items = items.map canonical := by
  induction items with
  | nil => rfl
  | cons v vs ih => rw [canonicalItems, ih, List.map_cons]

theorem canonicalMembers_eq_map (members : List (String × Json)) :
    canonicalMembers members = members.map fun m => (m.1, m.2.canonical) := by
  induction members with
  | nil => rfl
  | cons m rest ih => rw [canonicalMembers, ih, List.map_cons]

theorem map_fst_canonicalMembers (members : List (String × Json)) :
    (canonicalMembers members).map Prod.fst = members.map Prod.fst := by
  rw [canonicalMembers_eq_map, List.map_map]
  rfl

theorem mem_map_fst_sortMembers (h : (members.map Prod.fst).Nodup) {name : String} :
    name ∈ (sortMembers members).map Prod.fst ↔ name ∈ members.map Prod.fst := by
  simp only [List.mem_map, mem_sortMembers h]

theorem canonical_eq_null {v : Json} : v.canonical = .null ↔ v = .null := by
  cases v <;> simp [canonical]

/-- The member of an object in canonical form is the canonical form of its member. -/
theorem member?_sortMembers (h : (members.map Prod.fst).Nodup) {m : String × Json}
    (hm : m ∈ members) (hnull : m.2 ≠ .null) :
    member? (sortMembers (canonicalMembers members)) m.1 = some m.2.canonical := by
  have hsorted := (ascending_sortMembers (canonicalMembers members)).nodup_keys
  rw [← map_fst_canonicalMembers] at h
  rw [member?_eq_some_iff hsorted, mem_sortMembers h, canonicalMembers_eq_map]
  exact ⟨List.mem_map_of_mem hm, fun heq => hnull (canonical_eq_null.1 heq)⟩

theorem member?_sortMembers_of_null (h : (members.map Prod.fst).Nodup) {key : String}
    (hm : (key, .null) ∈ members) :
    member? (sortMembers (canonicalMembers members)) key = none := by
  have hsorted := (ascending_sortMembers (canonicalMembers members)).nodup_keys
  rw [← map_fst_canonicalMembers] at h
  rw [Option.eq_none_iff_forall_ne_some]
  intro w hw
  obtain ⟨hmem, hnull⟩ := (member?_eq_some_iff hsorted).1 hw
  have hm' : (key, Json.null) ∈ canonicalMembers members := by
    rw [canonicalMembers_eq_map]
    exact List.mem_map_of_mem hm
  have heq := List.inj_on_of_nodup_map h ((mem_sortMembers h).1 hmem) hm' rfl
  exact hnull (Prod.mk.inj heq).2

theorem hasField_sortMembers (h : (members.map Prod.fst).Nodup) {key : String} {v : Json}
    (hm : (key, v) ∈ members) (hv : v.canonical.ContainsAt (some key) v) :
    HasField (sortMembers (canonicalMembers members)) key v := by
  unfold HasField
  by_cases hnull : v = .null
  · rw [member?_sortMembers_of_null h (hnull ▸ hm)]
    exact hnull
  · rw [member?_sortMembers h hm hnull]
    exact hv

/-- Whether a value is no array, or one of strings, if it stands in a field for a set of names. -/
def HoldsNames (key : Option String) (v : Json) : Prop :=
  key = some "provided_trait_methods" → ∀ items, v = .arr items →
    ∃ names : List String, items = names.map .str

mutual

/-- Whether keys differ and sets of names consist of strings. -/
def Regular : Json → Prop
  | .null | .bool _ | .num _ | .str _ => True
  | .arr items => RegularItems items
  | .obj members => (members.map Prod.fst).Nodup ∧ RegularMembers members

/-- Whether each value of a list is regular. -/
def RegularItems : List Json → Prop
  | [] => True
  | v :: vs => v.Regular ∧ RegularItems vs

/-- Whether the value of each member of a list is regular. -/
def RegularMembers : List (String × Json) → Prop
  | [] => True
  | (key, v) :: rest => HoldsNames (some key) v ∧ v.Regular ∧ RegularMembers rest

end

mutual

/-- A regular value is contained in its canonical form. -/
theorem Regular.containsAt_canonical : {e : Json} → e.Regular → {key : Option String} →
    HoldsNames key e → e.canonical.ContainsAt key e
  | .null, _, _, _ | .bool _, _, _, _ | .num _, _, _, _ | .str _, _, _, _ => by
    simp [canonical, ContainsAt]
  | .arr items, h, key, hnames => by
    refine ⟨canonicalItems items, by rw [canonical], ?_⟩
    split
    · rename_i hkey
      obtain ⟨names, rfl⟩ := hnames hkey items rfl
      refine ⟨names, ?_, fun name => by simp⟩
      simp [canonicalItems_eq_map, canonical]
    · exact RegularItems.containsItems_canonical h
  | .obj members, ⟨hnodup, h⟩, _, _ => by
    refine ⟨sortMembers (canonicalMembers members), by rw [canonical], ?_, fun _ name => ?_⟩
    · rw [containsFields_iff]
      intro m hm
      exact hasField_sortMembers hnodup hm (RegularMembers.containsAt_canonical h m hm)
    · rw [mem_map_fst_sortMembers (map_fst_canonicalMembers members ▸ hnodup),
        map_fst_canonicalMembers]

/-- Regular items are contained in their canonical forms. -/
theorem RegularItems.containsItems_canonical : {items : List Json} → RegularItems items →
    ContainsItems (canonicalItems items) items
  | [], _ => rfl
  | _ :: _, ⟨h, hs⟩ =>
    ⟨_, _, rfl, h.containsAt_canonical nofun, RegularItems.containsItems_canonical hs⟩

/-- Regular members are contained in their canonical forms. -/
theorem RegularMembers.containsAt_canonical : {members : List (String × Json)} →
    RegularMembers members → ∀ m ∈ members, m.2.canonical.ContainsAt (some m.1) m.2
  | (_, _) :: _, ⟨hnames, h, hs⟩, m, hm => by
    rcases List.mem_cons.1 hm with rfl | hm
    · exact h.containsAt_canonical hnames
    · exact RegularMembers.containsAt_canonical hs m hm

end

theorem Regular.contains_canonical {e : Json} (h : e.Regular) : e.canonical.Contains e :=
  h.containsAt_canonical nofun

theorem canonical_eq_str {v : Json} {s : String} : v.canonical = .str s ↔ v = .str s := by
  cases v <;> simp [canonical]

mutual

/-- To ask for a regular value is to ask for its canonical form. -/
theorem Regular.containsAt_canonical_iff : {e : Json} → e.Regular →
    ∀ (key : Option String) (v : Json), ContainsAt key v e.canonical ↔ ContainsAt key v e
  | .null, _, _, _ | .bool _, _, _, _ | .num _, _, _, _ | .str _, _, _, _ => by rw [canonical]
  | .arr items, h, key, v => by
    have hnames (name : String) : .str name ∈ canonicalItems items ↔ .str name ∈ items := by
      simp only [canonicalItems_eq_map, List.mem_map, canonical_eq_str, exists_eq_right]
    have hitems := RegularItems.containsItems_canonical_iff h
    simp only [canonical, ContainsAt, hnames, hitems]
  | .obj members, ⟨hnodup, h⟩, key, v => by
    have hkeys := map_fst_canonicalMembers members ▸ hnodup
    have hfields (fields : List (String × Json)) :
        ContainsFields fields (sortMembers (canonicalMembers members)) ↔
          ContainsFields fields members := by
      simp only [containsFields_iff, mem_sortMembers hkeys]
      rw [← containsFields_iff, ← containsFields_iff]
      exact RegularMembers.containsFields_canonical_iff h fields
    simp only [canonical, ContainsAt, hfields, mem_map_fst_sortMembers hkeys,
      map_fst_canonicalMembers]

theorem RegularItems.containsItems_canonical_iff : {items : List Json} → RegularItems items →
    ∀ ws : List Json, ContainsItems ws (canonicalItems items) ↔ ContainsItems ws items
  | [], _, _ => Iff.rfl
  | _ :: _, ⟨h, hs⟩, _ => by
    simp only [canonicalItems, ContainsItems, h.containsAt_canonical_iff,
      RegularItems.containsItems_canonical_iff hs]

theorem RegularMembers.containsFields_canonical_iff : {members : List (String × Json)} →
    RegularMembers members → ∀ fields : List (String × Json),
      ContainsFields fields (canonicalMembers members) ↔ ContainsFields fields members
  | [], _, _ => Iff.rfl
  | (key, e) :: _, ⟨_, h, hs⟩, fields => by
    have hfield : HasField fields key e.canonical ↔ HasField fields key e := by
      unfold HasField
      cases member? fields key with
      | none => exact canonical_eq_null
      | some w => exact h.containsAt_canonical_iff (some key) w
    rw [canonicalMembers, containsFields_cons, containsFields_cons, hfield,
      RegularMembers.containsFields_canonical_iff hs]

end

theorem Regular.contains_canonical_iff {v e : Json} (h : e.Regular) :
    v.Contains e.canonical ↔ v.Contains e :=
  h.containsAt_canonical_iff none v

end Json

end CrateDocs
