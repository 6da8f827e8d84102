import CrateDocs.Record
import Mathlib.Data.List.Forall2

/-!
# Values that contain others

A value contains another one when it says at least as much: scalars agree, arrays agree item by
item, and an object has all the fields that are asked for, where a null asks for the absence of a
field. Two fields of the format are special. The links of an item are a table rather than a record,
so that no further key may stand in them; and the provided methods of an implementation are a set,
so that order and repetition do not matter.
-/

namespace CrateDocs

namespace Json

mutual

/-- Whether a value contains another one, where `key` is the field in which both of them stand. -/
def ContainsAt : (key : Option String) → (v expected : Json) → Prop
  | key, v, .arr expected =>
    ∃ items, v = .arr items ∧
      if key = some "provided_trait_methods" then
        ∃ names : List String, items = names.map .str ∧
          ∀ name, name ∈ names ↔ .str name ∈ expected
      else ContainsItems items expected
  | key, v, .obj expected =>
    ∃ members, v = .obj members ∧ ContainsFields members expected ∧
      (key = some "links" →
        ∀ name, name ∈ members.map Prod.fst ↔ name ∈ expected.map Prod.fst)
  | _, v, .null => v = .null
  | _, v, .bool b => v = .bool b
  | _, v, .num n => v = .num n
  | _, v, .str s => v = .str s

/-- Whether the items of an array contain those of another one. -/
def ContainsItems : (items expected : List Json) → Prop
  | items, [] => items = []
  | items, e :: es => ∃ w ws, items = w :: ws ∧ ContainsAt none w e ∧ ContainsItems ws es

/-- Whether an object has all the fields that are asked for. -/
def ContainsFields : (members expected : List (String × Json)) → Prop
  | _, [] => True
  | members, (key, e) :: es =>
    (match member? members key with
      | some w => ContainsAt (some key) w e
      | none => e = .null) ∧ ContainsFields members es

end

/-- Whether a value contains another one. -/
def Contains (v expected : Json) : Prop :=
  ContainsAt none v expected

/-- Whether an object has a field with the value that is asked for. -/
def HasField (members : List (String × Json)) (key : String) (expected : Json) : Prop :=
  match member? members key with
  | some w => ContainsAt (some key) w expected
  | none => expected = .null

/-- The fields in which values are compared in a way of their own. -/
def specialKeys : List String := ["links", "provided_trait_methods"]

@[simp] theorem mem_specialKeys {key : String} :
    key ∈ specialKeys ↔ key = "links" ∨ key = "provided_trait_methods" := by
  simp [specialKeys]

variable {key : Option String} {name : String} {v e : Json} {members : List (String × Json)}

theorem containsAt_iff_contains (h : name ∉ specialKeys) :
    ContainsAt (some name) v e ↔ v.Contains e := by
  rw [mem_specialKeys, not_or] at h
  cases e <;> simp [Contains, ContainsAt, h]

theorem contains_str {s : String} : v.Contains (.str s) ↔ v = .str s := by
  simp [Contains, ContainsAt]

theorem contains_bool {b : Bool} : v.Contains (.bool b) ↔ v = .bool b := by
  simp [Contains, ContainsAt]

theorem contains_num {n : Number} : v.Contains (.num n) ↔ v = .num n := by
  simp [Contains, ContainsAt]

theorem containsItems_iff_forall₂ {items expected : List Json} :
    ContainsItems items expected ↔ List.Forall₂ Contains items expected := by
  induction expected generalizing items with
  | nil => simp [ContainsItems]
  | cons e es ih =>
    simp only [ContainsItems, ih, List.forall₂_cons_right_iff, Contains]
    constructor
    · intro h
      rcases h with ⟨w, ws, rfl, hw, hws⟩
      exact ⟨w, ws, hw, hws, rfl⟩
    · intro h
      rcases h with ⟨w, ws, hw, hws, rfl⟩
      exact ⟨w, ws, rfl, hw, hws⟩

theorem contains_arr {expected : List Json} :
    v.Contains (.arr expected) ↔
      ∃ items, v = .arr items ∧ List.Forall₂ Contains items expected := by
  simp [Contains, ContainsAt, containsItems_iff_forall₂]

@[simp] theorem containsFields_nil : ContainsFields members [] :=
  trivial

@[simp] theorem containsFields_cons {rest : List (String × Json)} :
    ContainsFields members ((name, e) :: rest) ↔
      HasField members name e ∧ ContainsFields members rest :=
  Iff.rfl

theorem containsFields_iff {expected : List (String × Json)} :
    ContainsFields members expected ↔ ∀ m ∈ expected, HasField members m.1 m.2 := by
  induction expected with
  | nil => simp
  | cons m rest ih => rw [containsFields_cons, ih, List.forall_mem_cons]

theorem containsFields_append {expected rest : List (String × Json)} :
    ContainsFields members (expected ++ rest) ↔
      ContainsFields members expected ∧ ContainsFields members rest := by
  simp only [containsFields_iff, List.forall_mem_append]

theorem obj_contains_obj {expected : List (String × Json)} :
    (obj members).Contains (.obj expected) ↔ ContainsFields members expected := by
  simp [Contains, ContainsAt]

theorem exists_members_of_contains (h : v.Contains e) (he : e.kind = .object) :
    ∃ members, v = .obj members := by
  cases e with
  | obj expected =>
    simp only [Contains, ContainsAt] at h
    obtain ⟨members, hv, -⟩ := h
    exact ⟨members, hv⟩
  | _ => simp [kind] at he

theorem ne_null_of_kind (h : e.kind = .object) : e ≠ .null := by
  rintro rfl
  simp [kind] at h

theorem member?_ne_null : member? members name ≠ some .null := by
  unfold member?
  split <;> simp_all

theorem hasField_null : HasField members name .null ↔ member? members name = none := by
  unfold HasField
  cases h : member? members name with
  | none => simp
  | some w =>
    have hw : w ≠ .null := fun hw => member?_ne_null (hw ▸ h)
    simp [ContainsAt, hw]

theorem hasField_iff (he : e ≠ .null) :
    HasField members name e ↔
      ∃ w, member? members name = some w ∧ ContainsAt (some name) w e := by
  unfold HasField
  cases member? members name <;> simp [he]

/-- A field that is compared like any other. -/
theorem hasField_iff_contains (h : name ∉ specialKeys) (he : e ≠ .null) :
    HasField members name e ↔ ∃ w, member? members name = some w ∧ w.Contains e := by
  simp only [hasField_iff he, containsAt_iff_contains h]

end Json

end CrateDocs
