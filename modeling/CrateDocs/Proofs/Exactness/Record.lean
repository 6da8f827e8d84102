import CrateDocs.Proofs.Exactness.Containment
import CrateDocs.TypeExpr.Written

/-!
# Exact readers

A reader is exact for a written form when it accepts precisely the values that contain what is
written for its result. This file shows what a reading comes to that succeeds, and that the fields
of a record are read exactly when their values are.
-/

namespace CrateDocs

namespace Reading

variable {ε α β : Type}

@[simp] theorem bind_eq_ok {x : Except ε α} {f : α → Except ε β} {b : β} :
    (x >>= f) = .ok b ↔ ∃ a, x = .ok a ∧ f a = .ok b := by
  cases x <;> simp [bind, Except.bind]

theorem bind_eq_error {x : Except ε α} {f : α → Except ε β} {e : ε} :
    (x >>= f) = .error e ↔ x = .error e ∨ ∃ a, x = .ok a ∧ f a = .error e := by
  cases x <;> simp [bind, Except.bind]

@[simp] theorem pure_eq_ok {a b : α} : (pure a : Except ε α) = .ok b ↔ a = b := by
  simp [pure, Except.pure]

@[simp] theorem map_eq_ok {x : Except ε α} {f : α → β} {b : β} :
    x.map f = .ok b ↔ ∃ a, x = .ok a ∧ f a = b := by
  cases x <;> simp [Except.map]

@[simp] theorem functor_map_eq_ok {x : Except ε α} {f : α → β} {b : β} :
    (f <$> x) = .ok b ↔ ∃ a, x = .ok a ∧ f a = b :=
  map_eq_ok

@[simp] theorem mapError_eq_ok {δ : Type} {x : Except ε α} {f : ε → δ} {a : α} :
    x.mapError f = .ok a ↔ x = .ok a := by
  cases x <;> simp [Except.mapError]

theorem mapError_eq_error {δ : Type} {x : Except ε α} {f : ε → δ} {d : δ} :
    x.mapError f = .error d ↔ ∃ e, x = .error e ∧ f e = d := by
  cases x <;> simp [Except.mapError]

@[simp] theorem within_eq_ok {segment : Segment} {reading : Reading α} {a : α} :
    reading.within segment = .ok a ↔ reading = .ok a :=
  mapError_eq_ok

/-- A list is read when each of its items is. -/
theorem mapM_eq_ok {f : α → Except ε β} {as : List α} {bs : List β} :
    as.mapM f = .ok bs ↔ List.Forall₂ (fun a b => f a = .ok b) as bs := by
  induction as generalizing bs with
  | nil => cases bs <;> simp [pure_eq_ok]
  | cons a as ih =>
    simp only [List.mapM_cons, bind_eq_ok, pure_eq_ok, ih, List.forall₂_cons_left_iff]
    constructor
    · intro h
      rcases h with ⟨b, hb, bs, hbs, rfl⟩
      exact ⟨b, bs, hb, hbs, rfl⟩
    · intro h
      rcases h with ⟨b, bs, hb, hbs, rfl⟩
      exact ⟨b, hb, bs, hbs, rfl⟩

end Reading

open Reading

namespace Json

variable {v : Json} {α β : Type}

theorem asString_eq_ok {s : String} : v.asString = .ok s ↔ v.Contains (.str s) := by
  rw [contains_str]
  cases v <;> simp [asString]

theorem asBool_eq_ok {b : Bool} : v.asBool = .ok b ↔ v.Contains (.bool b) := by
  rw [contains_bool]
  cases v <;> simp [asBool]

theorem asId_eq_ok {id : ItemId} : v.asId = .ok id ↔ v.Contains id.toJson := by
  rw [ItemId.toJson, ← asString_eq_ok, asId, map_eq_ok]
  constructor
  · intro h
    rcases h with ⟨s, hs, rfl⟩
    exact hs
  · intro h
    exact ⟨id.text, h, rfl⟩

theorem asBelow_eq_ok {bound n : Nat} {shape : Shape} :
    v.asBelow bound shape = .ok n ↔ v = .num (.integer n) ∧ n < bound := by
  unfold asBelow
  split
  · rename_i m
    split <;> rename_i h <;> simp <;> omega
  · rename_i h
    simp only [reduceCtorEq, false_iff, not_and]
    rintro rfl
    exact absurd rfl (h _)

theorem asUInt32_eq_ok {n : UInt32} :
    v.asUInt32 = .ok n ↔ v.Contains (.num (.integer n.toNat)) := by
  simp only [asUInt32, map_eq_ok, asBelow_eq_ok, contains_num]
  constructor
  · intro h
    rcases h with ⟨m, ⟨rfl, hm⟩, rfl⟩
    rw [UInt32.toNat_ofNat_of_lt' hm]
  · rintro rfl
    exact ⟨n.toNat, ⟨rfl, n.toNat_lt⟩, UInt32.ofNat_toNat⟩

theorem asUInt64_eq_ok {n : UInt64} :
    v.asUInt64 = .ok n ↔ v.Contains (.num (.integer n.toNat)) := by
  simp only [asUInt64, map_eq_ok, asBelow_eq_ok, contains_num]
  constructor
  · intro h
    rcases h with ⟨m, ⟨rfl, hm⟩, rfl⟩
    rw [UInt64.toNat_ofNat_of_lt' hm]
  · rintro rfl
    exact ⟨n.toNat, ⟨rfl, n.toNat_lt⟩, UInt64.ofNat_toNat⟩

/-- A choice among the names of a list, each of which stands for one variant. -/
theorem asVariant_eq_ok {choice : Choice} {all : List α} {name : α → String}
    (hname : ∀ a, (all.find? fun b => name b == name a) = some a) {a : α} :
    v.asVariant choice (fun s => all.find? fun b => name b == s) = .ok a ↔
      v.Contains (.str (name a)) := by
  simp only [asVariant, bind_eq_ok, asString_eq_ok]
  constructor
  · intro h
    rcases h with ⟨s, hs, h⟩
    cases hv : all.find? fun b => name b == s with
    | none => simp [hv] at h
    | some b =>
      simp only [hv, Except.ok.injEq] at h
      have hb := List.find?_some hv
      rw [beq_iff_eq] at hb
      rwa [← h, hb]
  · intro h
    exact ⟨name a, h, by rw [hname a]⟩

theorem asRecord_eq_ok {r : Record v} : v.asRecord = .ok r ↔ v = .obj r.members := by
  obtain ⟨members, rfl⟩ := r
  simp [asRecord]

theorem map_val_itemParts (items : List Json) :
    (itemParts items).map (fun w => w.val) = items :=
  List.map_map.trans (List.attach_map_subtype_val items)

theorem forall₂_itemParts {items : List Json} {p : Json → β → Prop} {bs : List β} :
    List.Forall₂ (fun w b => p w.val b) (itemParts items) bs ↔ List.Forall₂ p items bs := by
  have h := List.forall₂_map_left_iff (R := p) (f := fun w : (arr items).Part => w.val)
    (l := itemParts items) (u := bs)
  rw [map_val_itemParts] at h
  exact h.symm

/-- The positions of the items matter for nothing but faults. -/
theorem mapM_zipIdx_eq_ok {read : α → Reading β} {as : List α} {bs : List β} :
    (as.zipIdx.mapM fun (a, i) => (read a).within (.index i)) = .ok bs ↔
      List.Forall₂ (fun a b => read a = .ok b) as bs := by
  have h := List.forall₂_map_left_iff (R := fun a b => read a = .ok b) (f := Prod.fst)
    (l := as.zipIdx) (u := bs)
  rw [List.zipIdx_map_fst] at h
  simp only [mapM_eq_ok, within_eq_ok, h]

end Json

variable {v : Json} {α β : Type}

/-- Whether a reader accepts exactly the values that contain what is written for its result. -/
def Reading.Exact (read : v.Part → Reading α) (write : α → Json) : Prop :=
  ∀ (w : v.Part) (a : α), read w = .ok a ↔ w.val.Contains (write a)

theorem Json.readItems_eq_ok {read : v.Part → Reading α} {write : α → Json}
    (hread : Exact read write) {as : List α} :
    v.readItems read = .ok as ↔ v.Contains (.arr (as.map write)) := by
  rw [contains_arr]
  cases v with
  | arr items =>
    simp only [readItems, mapM_zipIdx_eq_ok, hread _ _, Json.arr.injEq, exists_eq_left',
      List.forall₂_map_right_iff]
    exact forall₂_itemParts (p := fun w a => w.Contains (write a))
  | _ => simp [readItems]

theorem Json.readPair_eq_ok {first : v.Part → Reading α} {second : v.Part → Reading β}
    {write : α → Json} {write' : β → Json} (hfirst : Exact first write)
    (hsecond : Exact second write') {a : α} {b : β} :
    v.readPair first second = .ok (a, b) ↔ v.Contains (.arr [write a, write' b]) := by
  rw [contains_arr]
  cases v with
  | arr items =>
    simp only [readPair, Json.arr.injEq, exists_eq_left']
    rw [← forall₂_itemParts (p := Contains)]
    generalize itemParts items = parts
    rcases parts with _ | ⟨x, _ | ⟨y, _ | ⟨z, rest⟩⟩⟩
    case cons.cons.nil =>
      simp only [bind_eq_ok, pure_eq_ok, within_eq_ok, hfirst _ _, hsecond _ _, Prod.mk.injEq,
        List.forall₂_cons, List.Forall₂.nil, and_true]
      constructor
      · intro h
        rcases h with ⟨a, ha, b, hb, rfl, rfl⟩
        exact ⟨ha, hb⟩
      · intro h
        rcases h with ⟨ha, hb⟩
        exact ⟨a, ha, b, hb, rfl, rfl⟩
    all_goals simp
  | _ => simp [readPair]

namespace Record

variable {r : Record v} {key : String}

theorem get?_eq_some {w : v.Part} :
    r.get? key = some w ↔ Json.member? r.members key = some w.val := by
  unfold get?
  split
  · rename_i x hx
    constructor
    · intro h
      cases h
      exact hx
    · intro h
      rw [hx, Option.some.injEq] at h
      exact congrArg some (Subtype.ext h)
  · rename_i h
    simp [h]

theorem get?_eq_none : r.get? key = none ↔ Json.member? r.members key = none := by
  unfold get?
  split <;> rename_i h <;> simp [h]

theorem required_eq_ok {w : v.Part} :
    r.required key = .ok w ↔ Json.member? r.members key = some w.val := by
  rw [← get?_eq_some]
  unfold required
  cases r.get? key <;> simp

/-- A member of an object is a part of it. -/
theorem exists_part {w : Json} (h : Json.member? r.members key = some w) :
    ∃ part : v.Part, part.val = w := by
  cases hg : r.get? key with
  | none => simp [get?_eq_none.1 hg] at h
  | some part =>
    rw [get?_eq_some.1 hg] at h
    exact ⟨part, Option.some.inj h⟩

theorem field_eq_ok_iff_exists {read : v.Part → Reading α} {p : Json → α → Prop}
    (hread : ∀ w a, read w = .ok a ↔ p w.val a) {a : α} :
    r.field key read = .ok a ↔ ∃ w, Json.member? r.members key = some w ∧ p w a := by
  simp only [field, bind_eq_ok, required_eq_ok, within_eq_ok, hread]
  constructor
  · intro h
    rcases h with ⟨w, hw, h⟩
    exact ⟨w.val, hw, h⟩
  · intro h
    rcases h with ⟨w, hw, h⟩
    obtain ⟨part, rfl⟩ := exists_part hw
    exact ⟨part, hw, h⟩

theorem field_eq_ok {read : v.Part → Reading α} {write : α → Json} (hread : Exact read write)
    (hkey : key ∉ Json.specialKeys) (hwrite : ∀ a, write a ≠ .null) {a : α} :
    r.field key read = .ok a ↔ Json.HasField r.members key (write a) := by
  rw [field_eq_ok_iff_exists (p := fun w a => w.Contains (write a)) hread,
    Json.hasField_iff_contains hkey (hwrite a)]

theorem optional_eq_ok {read : v.Part → Reading α} {write : α → Json} (hread : Exact read write)
    (hkey : key ∉ Json.specialKeys) (hwrite : ∀ a, write a ≠ .null) {a : Option α} :
    r.optional key read = .ok a ↔ Json.HasField r.members key (a.elim .null write) := by
  unfold optional
  cases hg : r.get? key with
  | none =>
    have hm := get?_eq_none.1 hg
    cases a with
    | none => simp [Json.hasField_null, hm]
    | some a => simp [Json.hasField_iff (hwrite a), hm]
  | some w =>
    have hm := get?_eq_some.1 hg
    cases a with
    | none => simp only [bind_eq_ok, pure_eq_ok, reduceCtorEq, and_false, exists_false,
        Option.elim_none, Json.hasField_null, hm]
    | some a =>
      simp only [bind_eq_ok, pure_eq_ok, within_eq_ok, hread _ _, Option.some.injEq,
        exists_eq_right, Option.elim_some, Json.hasField_iff_contains hkey (hwrite a), hm,
        exists_eq_left']

theorem list_eq_ok {read : v.Part → Reading α} {write : α → Json} (hread : Exact read write)
    (hkey : key ∉ Json.specialKeys) {as : List α} :
    r.list key read = .ok as ↔ Json.HasField r.members key (.arr (as.map write)) := by
  have hlist : Exact (fun w => w.val.readItems fun item => read (w.widen item))
      (fun as : List α => .arr (as.map write)) :=
    fun w as => Json.readItems_eq_ok fun item a => hread (w.widen item) a
  exact field_eq_ok hlist hkey (fun _ => by simp)

@[simp] theorem string_eq_ok (hkey : key ∉ Json.specialKeys) {s : String} :
    r.string key = .ok s ↔ Json.HasField r.members key (.str s) :=
  field_eq_ok (fun _ _ => Json.asString_eq_ok) hkey (fun _ => by simp)

@[simp] theorem string?_eq_ok (hkey : key ∉ Json.specialKeys) {s : Option String} :
    r.string? key = .ok s ↔ Json.HasField r.members key (s.elim .null .str) :=
  optional_eq_ok (fun _ _ => Json.asString_eq_ok) hkey (fun _ => by simp)

@[simp] theorem bool_eq_ok (hkey : key ∉ Json.specialKeys) {b : Bool} :
    r.bool key = .ok b ↔ Json.HasField r.members key (.bool b) :=
  field_eq_ok (fun _ _ => Json.asBool_eq_ok) hkey (fun _ => by simp)

@[simp] theorem uint32_eq_ok (hkey : key ∉ Json.specialKeys) {n : UInt32} :
    r.uint32 key = .ok n ↔ Json.HasField r.members key (.num (.integer n.toNat)) :=
  have hread : Exact (fun w : v.Part => w.val.asUInt32) (fun n => .num (.integer n.toNat)) :=
    fun _ _ => Json.asUInt32_eq_ok
  field_eq_ok hread hkey (fun _ => by simp)

@[simp] theorem id_eq_ok (hkey : key ∉ Json.specialKeys) {id : ItemId} :
    r.id key = .ok id ↔ Json.HasField r.members key id.toJson :=
  field_eq_ok (fun _ _ => Json.asId_eq_ok) hkey (fun _ => by simp [ItemId.toJson])

@[simp] theorem id?_eq_ok (hkey : key ∉ Json.specialKeys) {id : Option ItemId} :
    r.id? key = .ok id ↔ Json.HasField r.members key (id.elim .null ItemId.toJson) :=
  optional_eq_ok (fun _ _ => Json.asId_eq_ok) hkey (fun _ => by simp [ItemId.toJson])

@[simp] theorem ids_eq_ok (hkey : key ∉ Json.specialKeys) {ids : List ItemId} :
    r.ids key = .ok ids ↔ Json.HasField r.members key (.ofIds ids) :=
  list_eq_ok (fun _ _ => Json.asId_eq_ok) hkey

@[simp] theorem strings_eq_ok (hkey : key ∉ Json.specialKeys) {strings : List String} :
    r.strings key = .ok strings ↔ Json.HasField r.members key (.ofStrings strings) :=
  list_eq_ok (fun _ _ => Json.asString_eq_ok) hkey

@[simp] theorem tag_eq_ok {s : String} : r.tag = .ok s ↔ Json.HasField r.members "tag" (.str s) :=
  string_eq_ok (by simp)

/-- What the value of a record contains is settled by its fields. -/
theorem contains_obj (r : Record v) {expected : List (String × Json)} :
    v.Contains (.obj expected) ↔ Json.ContainsFields r.members expected := by
  obtain ⟨members, rfl⟩ := r
  exact Json.obj_contains_obj

/-- A value is read through the record that it has to be. -/
theorem asRecord_bind_eq_ok {read : Record v → Reading α} {a : α} {expected : Json}
    (hkind : expected.kind = .object) (h : ∀ r, read r = .ok a ↔ v.Contains expected) :
    (v.asRecord >>= read) = .ok a ↔ v.Contains expected := by
  rw [bind_eq_ok]
  constructor
  · intro h
    rcases h with ⟨r, -, hr⟩
    exact (h r).1 hr
  · intro hv
    obtain ⟨members, rfl⟩ := Json.exists_members_of_contains hv hkind
    exact ⟨⟨members, rfl⟩, rfl, (h _).2 hv⟩

/-- The tag of a record settles which fields are asked for. -/
theorem tagged_eq_ok {read : String → Reading α} {a : α} {expected : Json} {tag : String}
    (hexpected : ∃ fields, expected = .obj (("tag", .str tag) :: fields))
    (htag : ∀ s, read s = .ok a → s = tag)
    (hfields : Json.HasField r.members "tag" (.str tag) →
      (read tag = .ok a ↔ v.Contains expected)) :
    (r.tag >>= read) = .ok a ↔ v.Contains expected := by
  simp only [bind_eq_ok, tag_eq_ok]
  constructor
  · intro h
    rcases h with ⟨s, hs, h⟩
    obtain rfl := htag s h
    exact (hfields hs).1 h
  · intro h
    obtain ⟨fields, rfl⟩ := hexpected
    have hs := (Json.containsFields_cons.1 (r.contains_obj.1 h)).1
    exact ⟨tag, hs, (hfields hs).2 h⟩

end Record

end CrateDocs
