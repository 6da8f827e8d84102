import CrateDocs.Proofs.Exactness.Record

/-!
# Faults point at what is wrong

The location of a fault leads to a value of which its cause is true, and its path spells the
location. A reader knows only its own value, and each step further out leads from an object or an
array to one of its parts. Hence a fault of a part points into the whole.
-/

namespace CrateDocs

/-- The value that a location leads to: `v.HoldsAt location w` says that one can go from `v` along
the keys and positions of the location, and so arrive at `w`. -/
inductive Json.HoldsAt : Json → Location → Json → Prop
  | here (v : Json) : HoldsAt v [] v
  | key {members : List (String × Json)} {name : String} {w u : Json} {rest : Location} :
      (name, w) ∈ members → HoldsAt w rest u → HoldsAt (.obj members) (.key name :: rest) u
  | index {items : List Json} {position : Nat} {w u : Json} {rest : Location} :
      items[position]? = some w → HoldsAt w rest u →
      HoldsAt (.arr items) (.index position :: rest) u

namespace Location

/-- Whether a text spells a location: a key as `.key`, a position as `[position]`. -/
inductive SpelledBy : Location → String → Prop
  | nil : SpelledBy [] ""
  | key {rest : Location} {text : String} (name : String) :
      SpelledBy rest text → SpelledBy (.key name :: rest) ("." ++ name ++ text)
  | index {rest : Location} {text : String} (position : Nat) :
      SpelledBy rest text →
        SpelledBy (.index position :: rest) ("[" ++ toString position ++ "]" ++ text)

variable {location : Location} {text : String}

theorem spelledBy_join (location : Location) :
    location.SpelledBy (String.join (location.map Segment.render)) := by
  induction location with
  | nil => exact .nil
  | cons segment rest ih =>
    rw [List.map_cons, String.join_cons]
    cases segment with
    | key name => exact .key name ih
    | index position => exact .index position ih

theorem SpelledBy.eq_join (h : location.SpelledBy text) :
    text = String.join (location.map Segment.render) := by
  induction h with
  | nil => rfl
  | key name _ ih => rw [List.map_cons, String.join_cons, ← ih, Segment.render]
  | index position _ ih => rw [List.map_cons, String.join_cons, ← ih, Segment.render]

/-- A location is printed as a dollar sign and its spelling, of which there is one. -/
theorem render_eq_iff : location.render = "$" ++ text ↔ location.SpelledBy text := by
  rw [render, String.append_right_inj]
  constructor
  · intro h
    rw [← h]
    exact spelledBy_join location
  · intro h
    exact h.eq_join.symm

end Location

/-- Whether a value has a shape. -/
def Shape.Fits (v : Json) : Shape → Prop
  | .object => ∃ members, v = .obj members
  | .array => ∃ items, v = .arr items
  | .pair => ∃ a b, v = .arr [a, b]
  | .string => ∃ s, v = .str s
  | .boolean => ∃ b, v = .bool b
  | .integer => ∃ n, v = .num (.integer n)
  | .unsigned => ∃ n : Nat, n < UInt64.size ∧ v = .num (.integer n)
  | .unsigned32 => ∃ n : Nat, n < UInt32.size ∧ v = .num (.integer n)

/-- Whether a value is at fault for a cause. A key is never at fault as a value. -/
def Cause.TrueOf (v : Json) : Cause → Prop
  | .missingField field => ∃ members, v = .obj members ∧ Json.member? members field = none
  | .mismatch expected found => v.kind = found ∧ ¬ expected.Fits v
  | .unknownVariant choice tag => v = .str tag ∧ tag ∉ choice.variants
  | .nonNumericKey => False

/-- Whether the location of a fault leads to a value that is at fault. -/
def Fault.PointsInto (v : Json) (fault : Fault) : Prop :=
  ∃ w, v.HoldsAt fault.location w ∧ fault.cause.TrueOf w

namespace Fault

variable {v w : Json} {fault : Fault}

theorem pointsInto_of_trueOf {cause : Cause} (h : cause.TrueOf v) :
    PointsInto v ⟨[], cause⟩ :=
  ⟨v, .here v, h⟩

theorem pointsInto_mismatch {shape : Shape} (h : ¬ shape.Fits v) :
    PointsInto v (mismatch shape v) :=
  pointsInto_of_trueOf ⟨rfl, h⟩

/-- The path of a fault spells its location. -/
theorem exists_path_eq (fault : Fault) :
    ∃ text, fault.path = "$" ++ text ∧ fault.location.SpelledBy text :=
  ⟨_, rfl, Location.render_eq_iff.1 rfl⟩

/-- A fault of a member points into the object. -/
theorem PointsInto.within_key {members : List (String × Json)} {name : String}
    (h : fault.PointsInto w) (hmem : (name, w) ∈ members) :
    (fault.within (.key name)).PointsInto (.obj members) := by
  obtain ⟨u, hu, hcause⟩ := h
  exact ⟨u, .key hmem hu, hcause⟩

/-- A fault of an item points into the array. -/
theorem PointsInto.within_index {items : List Json} {position : Nat}
    (h : fault.PointsInto w) (hitem : items[position]? = some w) :
    (fault.within (.index position)).PointsInto (.arr items) := by
  obtain ⟨u, hu, hcause⟩ := h
  exact ⟨u, .index hitem hu, hcause⟩

end Fault

namespace Reading

variable {ε δ α β : Type} {p : ε → Prop}

/-- Whether every error that may come of a computation has a property. -/
def FailsOnly (p : ε → Prop) (x : Except ε α) : Prop :=
  ∀ e, x = .error e → p e

@[simp] theorem failsOnly_ok {a : α} : FailsOnly p (.ok a) :=
  nofun

@[simp] theorem failsOnly_pure {a : α} : FailsOnly p (pure a : Except ε α) :=
  nofun

@[simp] theorem failsOnly_error {e : ε} : FailsOnly p (.error e : Except ε α) ↔ p e := by
  simp [FailsOnly]

/-- Of two steps the second is taken only if the first one succeeds. -/
@[simp] theorem failsOnly_bind {x : Except ε α} {f : α → Except ε β} :
    FailsOnly p (x >>= f) ↔ FailsOnly p x ∧ ∀ a, x = .ok a → FailsOnly p (f a) := by
  cases x with
  | error e => simp [FailsOnly, bind, Except.bind]
  | ok a => simp [FailsOnly, bind, Except.bind]

@[simp] theorem failsOnly_mapError {x : Except ε α} {q : δ → Prop} {f : ε → δ} :
    FailsOnly q (x.mapError f) ↔ FailsOnly (fun e => q (f e)) x := by
  cases x <;> simp [FailsOnly, Except.mapError]

@[simp] theorem failsOnly_map {x : Except ε α} {f : α → β} :
    FailsOnly p (x.map f) ↔ FailsOnly p x := by
  cases x <;> simp [FailsOnly, Except.map]

@[simp] theorem failsOnly_functor_map {x : Except ε α} {f : α → β} :
    FailsOnly p (f <$> x) ↔ FailsOnly p x :=
  failsOnly_map

theorem FailsOnly.imp {q : ε → Prop} {x : Except ε α} (h : FailsOnly p x)
    (hpq : ∀ e, p e → q e) : FailsOnly q x :=
  fun e he => hpq e (h e he)

theorem failsOnly_mapM {f : α → Except ε β} {as : List α} (h : ∀ a ∈ as, FailsOnly p (f a)) :
    FailsOnly p (as.mapM f) := by
  induction as with
  | nil => exact failsOnly_pure
  | cons a as ih =>
    obtain ⟨ha, has⟩ := List.forall_mem_cons.1 h
    simp [List.mapM_cons, ha, ih has]

/-- Whether every fault that a reading may report points into the value that is read. -/
abbrev Located (v : Json) (reading : Reading α) : Prop :=
  FailsOnly (Fault.PointsInto v) reading

end Reading

open Reading

namespace Json

variable {v : Json} {α β : Type}

@[simp] theorem located_asString : Located v v.asString := by
  unfold asString
  split
  · exact failsOnly_ok
  · rename_i h
    exact failsOnly_error.2 (Fault.pointsInto_mismatch fun hfits => h _ hfits.choose_spec)

@[simp] theorem located_asBool : Located v v.asBool := by
  unfold asBool
  split
  · exact failsOnly_ok
  · rename_i h
    exact failsOnly_error.2 (Fault.pointsInto_mismatch fun hfits => h _ hfits.choose_spec)

@[simp] theorem located_asId : Located v v.asId :=
  failsOnly_map.2 located_asString

theorem located_asBelow {bound : Nat} {shape : Shape}
    (hshape : shape.Fits v ↔ ∃ n : Nat, n < bound ∧ v = .num (.integer n)) :
    Located v (v.asBelow bound shape) := by
  have herror (h : ∀ n : Nat, n < bound → v ≠ .num (.integer n)) :
      (Fault.mismatch shape v).PointsInto v := by
    refine Fault.pointsInto_mismatch fun hfits => ?_
    obtain ⟨n, hn, hv⟩ := hshape.1 hfits
    exact h n hn hv
  unfold asBelow
  split
  · rename_i m
    split
    · exact failsOnly_ok
    · rename_i hm
      refine failsOnly_error.2 (herror fun n hn heq => hm ?_)
      simp only [num.injEq, Number.integer.injEq] at heq
      omega
  · rename_i h
    exact failsOnly_error.2 (herror fun n _ hv => h _ hv)

@[simp] theorem located_asUInt32 : Located v v.asUInt32 :=
  failsOnly_map.2 (located_asBelow Iff.rfl)

@[simp] theorem located_asUInt64 : Located v v.asUInt64 :=
  failsOnly_map.2 (located_asBelow Iff.rfl)

/-- A name that no variant has is not among the names of the choice. -/
theorem located_asVariant {choice : Choice} {all : List α} {name : α → String}
    (hvariants : choice.variants = all.map name) :
    Located v (v.asVariant choice fun s => all.find? fun a => name a == s) := by
  unfold asVariant
  refine failsOnly_bind.2 ⟨located_asString, fun s hs => ?_⟩
  have hv : v = .str s := contains_str.1 (asString_eq_ok.1 hs)
  split
  · exact failsOnly_ok
  · rename_i hnone
    refine failsOnly_error.2 (Fault.pointsInto_of_trueOf ⟨hv, ?_⟩)
    rw [hvariants, List.mem_map]
    intro h
    rcases h with ⟨a, ha, rfl⟩
    exact absurd (beq_self_eq_true _) (List.find?_eq_none.1 hnone a ha)

@[simp] theorem located_asRecord : Located v v.asRecord := by
  unfold asRecord
  split
  · exact failsOnly_ok
  · rename_i h
    exact failsOnly_error.2 (Fault.pointsInto_mismatch fun hfits => h _ hfits.choose_spec)

theorem getElem?_of_mem_zipIdx_itemParts {items : List Json} {item : (arr items).Part}
    {position : Nat} (h : (item, position) ∈ (itemParts items).zipIdx) :
    items[position]? = some item.val := by
  have hitem : (itemParts items)[position]? = some item := List.mem_zipIdx_iff_getElem?.1 h
  calc items[position]?
    _ = ((itemParts items).map fun w => w.val)[position]? :=
      congrArg (·[position]?) (map_val_itemParts items).symm
    _ = (itemParts items)[position]?.map fun w => w.val := List.getElem?_map
    _ = some item.val := by rw [hitem]; rfl

theorem located_readItems {read : v.Part → Reading α} (h : ∀ w, Located w.val (read w)) :
    Located v (v.readItems read) := by
  cases v with
  | arr items =>
    refine failsOnly_mapM fun m hm => failsOnly_mapError.2 ?_
    have hitem := getElem?_of_mem_zipIdx_itemParts hm
    exact (h m.1).imp fun fault hfault => hfault.within_index hitem
  | _ =>
    refine failsOnly_error.2 (Fault.pointsInto_mismatch ?_)
    rintro ⟨items, hitems⟩
    cases hitems

theorem located_readPair {first : v.Part → Reading α} {second : v.Part → Reading β}
    (hfirst : ∀ w, Located w.val (first w)) (hsecond : ∀ w, Located w.val (second w)) :
    Located v (v.readPair first second) := by
  cases v with
  | arr items =>
    unfold readPair
    dsimp only
    split
    · rename_i a b hparts
      have hitems : items = [a.val, b.val] :=
        (map_val_itemParts items).symm.trans (congrArg (List.map fun w => w.val) hparts)
      have ha : items[0]? = some a.val := congrArg (·[0]?) hitems
      have hb : items[1]? = some b.val := congrArg (·[1]?) hitems
      refine failsOnly_bind.2 ⟨failsOnly_mapError.2 ?_, fun x _ => ?_⟩
      · exact (hfirst a).imp fun fault hfault => hfault.within_index ha
      · refine failsOnly_bind.2 ⟨failsOnly_mapError.2 ?_, fun y _ => failsOnly_pure⟩
        exact (hsecond b).imp fun fault hfault => hfault.within_index hb
    · rename_i hparts
      refine failsOnly_error.2 (Fault.pointsInto_of_trueOf ⟨rfl, ?_⟩)
      rintro ⟨x, y, hitems⟩
      obtain rfl := arr.inj hitems
      exact hparts _ _ rfl
  | _ =>
    refine failsOnly_error.2 (Fault.pointsInto_mismatch ?_)
    rintro ⟨items, hitems⟩
    cases hitems

theorem mem_of_mem_memberParts {members : List (String × Json)} {m : String × (obj members).Part}
    (h : m ∈ memberParts members) : (m.1, m.2.val) ∈ members := by
  obtain ⟨member, -, rfl⟩ := List.mem_map.1 h
  exact member.property

theorem located_readEntries {read : String → v.Part → Reading α}
    (h : ∀ name w, Located w.val (read name w)) : Located v (v.readEntries read) := by
  cases v with
  | obj members =>
    refine failsOnly_mapM fun m hm => failsOnly_mapError.2 ?_
    have hmember := mem_of_mem_memberParts hm
    exact (h m.1 m.2).imp fun fault hfault => hfault.within_key hmember
  | _ =>
    refine failsOnly_error.2 (Fault.pointsInto_mismatch ?_)
    rintro ⟨items, hitems⟩
    cases hitems

end Json

namespace Record

variable {v : Json} {r : Record v} {key : String} {α β : Type}

@[simp] theorem located_required : Located v (r.required key) := by
  unfold required
  split
  · exact failsOnly_ok
  · rename_i hnone
    exact failsOnly_error.2
      (Fault.pointsInto_of_trueOf ⟨r.members, r.eq_obj, get?_eq_none.1 hnone⟩)

/-- The faults of a field point into the record. -/
theorem located_within_key {w : v.Part} {reading : Reading α}
    (hmember : Json.member? r.members key = some w.val) (h : Located w.val reading) :
    Located v (reading.within (.key key)) := by
  refine failsOnly_mapError.2 (h.imp fun fault hfault => ?_)
  have hfault := hfault.within_key (Json.mem_of_member? hmember)
  rwa [← r.eq_obj] at hfault

theorem located_field {read : v.Part → Reading α} (h : ∀ w, Located w.val (read w)) :
    Located v (r.field key read) := by
  refine failsOnly_bind.2 ⟨located_required, fun w hw => ?_⟩
  exact located_within_key (required_eq_ok.1 hw) (h w)

theorem located_optional {read : v.Part → Reading α} (h : ∀ w, Located w.val (read w)) :
    Located v (r.optional key read) := by
  unfold optional
  split
  · rename_i w hw
    refine failsOnly_bind.2 ⟨?_, fun a _ => failsOnly_pure⟩
    exact located_within_key (get?_eq_some.1 hw) (h w)
  · exact failsOnly_ok

theorem located_list {read : v.Part → Reading α} (h : ∀ w, Located w.val (read w)) :
    Located v (r.list key read) :=
  located_field fun w => Json.located_readItems fun item => h (w.widen item)

theorem located_entries {read : String → v.Part → Reading α}
    (h : ∀ name w, Located w.val (read name w)) : Located v (r.entries key read) :=
  located_field fun w => Json.located_readEntries fun name value => h name (w.widen value)

@[simp] theorem located_string : Located v (r.string key) :=
  located_field fun _ => Json.located_asString

@[simp] theorem located_string? : Located v (r.string? key) :=
  located_optional fun _ => Json.located_asString

@[simp] theorem located_bool : Located v (r.bool key) :=
  located_field fun _ => Json.located_asBool

@[simp] theorem located_uint32 : Located v (r.uint32 key) :=
  located_field fun _ => Json.located_asUInt32

@[simp] theorem located_id : Located v (r.id key) :=
  located_field fun _ => Json.located_asId

@[simp] theorem located_id? : Located v (r.id? key) :=
  located_optional fun _ => Json.located_asId

@[simp] theorem located_ids : Located v (r.ids key) :=
  located_list fun _ => Json.located_asId

@[simp] theorem located_strings : Located v (r.strings key) :=
  located_list fun _ => Json.located_asString

theorem located_unknownTag {choice : Choice} {tag : String} (htag : r.tag = .ok tag)
    (hvariants : tag ∉ choice.variants) :
    Located v (r.unknownTag choice tag : Reading α) := by
  have hfield := tag_eq_ok.1 htag
  obtain ⟨w, hmember, hw⟩ := (Json.hasField_iff_contains (by simp) (by simp)).1 hfield
  obtain rfl := Json.contains_str.1 hw
  refine failsOnly_error.2 ⟨.str tag, ?_, rfl, hvariants⟩
  rw [r.eq_obj]
  exact .key (Json.mem_of_member? hmember) (.here _)

/-- A record with a tag is located if it is so for each tag that may be found. -/
theorem located_tagged {f : String → Reading α}
    (h : ∀ tag, r.tag = .ok tag → Located v (f tag)) : Located v (r.tag >>= f) :=
  failsOnly_bind.2 ⟨located_string, h⟩

/-- A value is read through the record that it has to be. -/
theorem located_asRecord_bind {f : Record v → Reading α} (h : ∀ r, Located v (f r)) :
    Located v (v.asRecord >>= f) :=
  failsOnly_bind.2 ⟨Json.located_asRecord, fun r _ => h r⟩

end Record

end CrateDocs
