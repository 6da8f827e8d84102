import CrateDocs.Proofs.Exactness.Entries
import CrateDocs.Proofs.Indifference.Alike

/-!
# Readers of values that look alike

A reader that looks at a value through a layout cannot tell two values apart that are alike through
it: it returns the same, or reports the same fault. For the fields of a record this follows from
what is known of each field.
-/

namespace CrateDocs

variable {v w : Json} {α β : Type} {layout : Layout}

namespace Reading

theorem mapM_congr {ε γ : Type} {f : α → Except ε γ} {g : β → Except ε γ} {as : List α}
    {bs : List β} (h : List.Forall₂ (fun a b => f a = g b) as bs) : as.mapM f = bs.mapM g := by
  induction h with
  | nil => rfl
  | cons hhead _ ih => rw [List.mapM_cons, List.mapM_cons, hhead, ih]

theorem forall₂_zipIdx {R : α → β → Prop} {as : List α} {bs : List β} (h : List.Forall₂ R as bs)
    (start : Nat) :
    List.Forall₂ (fun a b => R a.1 b.1 ∧ a.2 = b.2) (as.zipIdx start) (bs.zipIdx start) := by
  induction h generalizing start with
  | nil => exact .nil
  | cons hhead _ ih => exact .cons ⟨hhead, rfl⟩ (ih (start + 1))

/-- Whether a reader finds out the same about any two values that are alike. -/
def Respects (layout : Layout) (read : Json → Reading α) : Prop :=
  ∀ {v w : Json}, Json.Alike layout v w → read v = read w

theorem respects_whole (read : Json → Reading α) : Respects .whole read := by
  intro v w h
  rw [h.eq_of_whole]

end Reading

namespace Json

open Reading

/-- Whether two readers, each for the parts of one of two values, agree on parts that are alike. -/
def AgreeOn (layout : Layout) (read : v.Part → Reading α) (read' : w.Part → Reading α) : Prop :=
  ∀ x y, Alike layout x.val y.val → read x = read' y

theorem agreeOn_of_respects {read : Json → Reading α} (h : Respects layout read) :
    AgreeOn layout (v := v) (w := w) (read ·) (read ·) :=
  fun _ _ hxy => h hxy

theorem AgreeOn.eq {read read' : v.Part → Reading α} (h : AgreeOn layout read read') :
    read = read' :=
  funext fun x => h x x (.refl layout x.val)

variable {items others : List Json} {members rest : List (String × Json)}

theorem forall₂_val_itemParts {R : Json → Json → Prop} (h : List.Forall₂ R items others) :
    List.Forall₂ (fun x y => R x.val y.val) (itemParts items) (itemParts others) := by
  rw [← map_val_itemParts items, ← map_val_itemParts others] at h
  rwa [List.forall₂_map_left_iff, List.forall₂_map_right_iff] at h

theorem forall₂_val_memberParts {R : String × Json → String × Json → Prop}
    (h : List.Forall₂ R members rest) :
    List.Forall₂ (fun m m' => R (m.1, m.2.val) (m'.1, m'.2.val)) (memberParts members)
      (memberParts rest) := by
  have hval (members : List (String × Json)) :
      (memberParts members).map (fun m => (m.1, m.2.val)) = members :=
    List.map_map.trans (List.attach_map_subtype_val members)
  rw [← hval members, ← hval rest] at h
  rwa [List.forall₂_map_left_iff, List.forall₂_map_right_iff] at h

theorem readItems_congr {read : v.Part → Reading α} {read' : w.Part → Reading α}
    (h : Alike (.list layout) v w) (hread : AgreeOn layout read read') :
    v.readItems read = w.readItems read' := by
  cases h with
  | refl => rw [hread.eq]
  | list length_eq values =>
    have hparts := forall₂_val_itemParts (Alike.list length_eq values).forall₂_items
    apply mapM_congr
    refine (forall₂_zipIdx hparts 0).imp fun a b hab => ?_
    obtain ⟨x, i⟩ := a
    obtain ⟨y, j⟩ := b
    obtain ⟨hxy, rfl⟩ := hab
    exact congrArg (Reading.within (.index i)) (hread x y hxy)

theorem readPair_congr {first second : Layout} {read₁ : v.Part → Reading α}
    {read₂ : v.Part → Reading β} {read₁' : w.Part → Reading α} {read₂' : w.Part → Reading β}
    (h : Alike (.pair first second) v w) (hfirst : AgreeOn first read₁ read₁')
    (hsecond : AgreeOn second read₂ read₂') :
    v.readPair read₁ read₂ = w.readPair read₁' read₂' := by
  cases h with
  | refl => rw [hfirst.eq, hsecond.eq]
  | pair hv hw =>
    have hx := hfirst ⟨_, by simp; omega⟩ ⟨_, by simp; omega⟩ hv
    have hy := hsecond ⟨_, by simp; omega⟩ ⟨_, by simp; omega⟩ hw
    change (do let x ← within _ _; let y ← within _ _; return (x, y)) =
      do let x ← within _ _; let y ← within _ _; return (x, y)
    rw [hx, hy]

theorem readEntries_congr {read : String → v.Part → Reading α}
    {read' : String → w.Part → Reading α} (h : Alike (.table layout) v w)
    (hread : ∀ key, AgreeOn layout (read key) (read' key)) :
    v.readEntries read = w.readEntries read' := by
  cases h with
  | refl =>
    have heq : read = read' := funext fun key => (hread key).eq
    rw [heq]
  | table length_eq keys values =>
    have hparts := forall₂_val_memberParts (Alike.table length_eq keys values).forall₂_members
    apply mapM_congr
    refine hparts.imp fun m m' hm => ?_
    obtain ⟨key, x⟩ := m
    obtain ⟨key', y⟩ := m'
    obtain ⟨hkey, hxy⟩ := hm
    dsimp only at hkey hxy
    subst hkey
    exact congrArg (Reading.within (.key key)) (hread key x y hxy)

end Json

namespace Record

/-- Whether two records are the same in certain fields, as far as these are looked at. -/
structure Alike (fields : Fields) (r : Record v) (r' : Record w) : Prop where
  presence : ∀ {key layout}, fields.lookup key = some layout →
    (Json.member? r.members key).isSome = (Json.member? r'.members key).isSome
  values : ∀ {key layout}, fields.lookup key = some layout → ∀ {x y},
    Json.member? r.members key = some x → Json.member? r'.members key = some y →
      Json.Alike layout x y

namespace Alike

variable {fields : Fields} {r : Record v} {r' : Record w} {key : String}

/-- Records with the same members are the same in their fields. -/
theorem of_member?_eq (h : ∀ key layout, fields.lookup key = some layout →
    Json.member? r.members key = Json.member? r'.members key) : Alike fields r r' where
  presence hkey := by rw [h _ _ hkey]
  values {key layout} hkey {x y} hx hy := by
    rw [h key layout hkey] at hx
    obtain rfl := Option.some.inj (hx.symm.trans hy)
    exact .refl layout x

theorem refl (fields : Fields) (r : Record v) : Alike fields r r :=
  of_member?_eq fun _ _ _ => rfl

/-- A field is absent from both records, or it has values that are alike. -/
theorem get? (h : Alike fields r r') (hkey : fields.lookup key = some layout) :
    r.get? key = none ∧ r'.get? key = none ∨
      ∃ x y, r.get? key = some x ∧ r'.get? key = some y ∧ Json.Alike layout x.val y.val := by
  have hpresence := h.presence hkey
  cases hx : r.get? key with
  | none =>
    rw [get?_eq_none.1 hx, Option.isSome_none] at hpresence
    have hy := Option.isSome_eq_false_iff.1 hpresence.symm
    exact .inl ⟨rfl, get?_eq_none.2 (Option.isNone_iff_eq_none.1 hy)⟩
  | some x =>
    rw [get?_eq_some.1 hx, Option.isSome_some] at hpresence
    cases hy : r'.get? key with
    | none =>
      rw [get?_eq_none.1 hy] at hpresence
      cases hpresence
    | some y =>
      exact .inr ⟨x, y, rfl, rfl, h.values hkey (get?_eq_some.1 hx) (get?_eq_some.1 hy)⟩

theorem field (h : Alike fields r r') (hkey : fields.lookup key = some layout)
    {read : v.Part → Reading α} {read' : w.Part → Reading α}
    (hread : Json.AgreeOn layout read read') : r.field key read = r'.field key read' := by
  rcases h.get? hkey with ⟨hx, hy⟩ | ⟨x, y, hx, hy, hxy⟩
  · rw [Record.field, Record.field, required, required, hx, hy]
    rfl
  · rw [Record.field, Record.field, required, required, hx, hy]
    exact congrArg (Reading.within (.key key)) (hread x y hxy)

theorem optional (h : Alike fields r r') (hkey : fields.lookup key = some layout)
    {read : v.Part → Reading α} {read' : w.Part → Reading α}
    (hread : Json.AgreeOn layout read read') : r.optional key read = r'.optional key read' := by
  rcases h.get? hkey with ⟨hx, hy⟩ | ⟨x, y, hx, hy, hxy⟩
  · rw [Record.optional, Record.optional, hx, hy]
  · rw [Record.optional, Record.optional, hx, hy]
    dsimp only
    rw [hread x y hxy]

theorem list (h : Alike fields r r') (hkey : fields.lookup key = some (.list layout))
    {read : v.Part → Reading α} {read' : w.Part → Reading α}
    (hread : Json.AgreeOn layout read read') : r.list key read = r'.list key read' :=
  h.field hkey fun x y hxy =>
    Json.readItems_congr hxy fun item other hitem => hread (x.widen item) (y.widen other) hitem

theorem entries (h : Alike fields r r') (hkey : fields.lookup key = some (.table layout))
    {read : String → v.Part → Reading α} {read' : String → w.Part → Reading α}
    (hread : ∀ name, Json.AgreeOn layout (read name) (read' name)) :
    r.entries key read = r'.entries key read' :=
  h.field hkey fun x y hxy =>
    Json.readEntries_congr hxy fun name item other hitem =>
      hread name (x.widen item) (y.widen other) hitem

theorem read (h : Alike fields r r') {read : Json → Reading α}
    (hkey : fields.lookup key = some layout) (hread : Reading.Respects layout read) :
    r.field key (read ·) = r'.field key (read ·) :=
  h.field hkey (Json.agreeOn_of_respects hread)

theorem read? (h : Alike fields r r') {read : Json → Reading α}
    (hkey : fields.lookup key = some layout) (hread : Reading.Respects layout read) :
    r.optional key (read ·) = r'.optional key (read ·) :=
  h.optional hkey (Json.agreeOn_of_respects hread)

theorem readAll (h : Alike fields r r') {read : Json → Reading α}
    (hkey : fields.lookup key = some (.list layout)) (hread : Reading.Respects layout read) :
    r.list key (read ·) = r'.list key (read ·) :=
  h.list hkey (Json.agreeOn_of_respects hread)

theorem string (h : Alike fields r r') (hkey : fields.lookup key = some .whole) :
    r.string key = r'.string key :=
  h.read hkey (Reading.respects_whole Json.asString)

theorem string? (h : Alike fields r r') (hkey : fields.lookup key = some .whole) :
    r.string? key = r'.string? key :=
  h.read? hkey (Reading.respects_whole Json.asString)

theorem bool (h : Alike fields r r') (hkey : fields.lookup key = some .whole) :
    r.bool key = r'.bool key :=
  h.read hkey (Reading.respects_whole Json.asBool)

theorem uint32 (h : Alike fields r r') (hkey : fields.lookup key = some .whole) :
    r.uint32 key = r'.uint32 key :=
  h.read hkey (Reading.respects_whole Json.asUInt32)

theorem id (h : Alike fields r r') (hkey : fields.lookup key = some .whole) :
    r.id key = r'.id key :=
  h.read hkey (Reading.respects_whole Json.asId)

theorem id? (h : Alike fields r r') (hkey : fields.lookup key = some .whole) :
    r.id? key = r'.id? key :=
  h.read? hkey (Reading.respects_whole Json.asId)

theorem ids (h : Alike fields r r') (hkey : fields.lookup key = some .whole) :
    r.ids key = r'.ids key :=
  h.read hkey (Reading.respects_whole fun v => v.readItems (Json.asId ·))

theorem strings (h : Alike fields r r') (hkey : fields.lookup key = some .whole) :
    r.strings key = r'.strings key :=
  h.read hkey (Reading.respects_whole fun v => v.readItems (Json.asString ·))

theorem variant (h : Alike fields r r') (hkey : fields.lookup key = some .whole) {choice : Choice}
    {ofName? : String → Option α} :
    r.field key (Json.asVariant choice ofName? ·) =
      r'.field key (Json.asVariant choice ofName? ·) :=
  h.read hkey (Reading.respects_whole (Json.asVariant choice ofName?))

theorem of_imp {some : Fields} (h : Alike fields r r')
    (hsome : ∀ {key layout}, some.lookup key = Option.some layout →
      fields.lookup key = Option.some layout) : Alike some r r' where
  presence hkey := h.presence (hsome hkey)
  values hkey := h.values (hsome hkey)

theorem of_cons {first : String × Layout} (h : Alike (first :: fields) r r')
    (hfirst : fields.lookup first.1 = none) : Alike fields r r' := by
  apply h.of_imp
  intro key layout hkey
  have hne : key ≠ first.1 := by
    intro heq
    rw [heq, hfirst] at hkey
    cases hkey
  rw [List.lookup_cons, beq_eq_false_iff_ne.2 hne]
  exact hkey

theorem of_append {more : Fields} (h : Alike (fields ++ more) r r') : Alike fields r r' := by
  apply h.of_imp
  intro key layout hkey
  rw [List.lookup_append, hkey, Option.some_or]

/-- The tag is the same in both records, and settles which fields are. -/
theorem tagged {fieldsOf : String → Fields}
    (h : Alike (.tagged (Json.tag? r.members) fieldsOf) r r') {f g : String → Reading α}
    (hfg : ∀ tag, Alike (("tag", .whole) :: fieldsOf tag) r r' → f tag = g tag) :
    (r.tag >>= f) = (r'.tag >>= g) := by
  have htag : r.tag = r'.tag := h.string rfl
  rw [← htag]
  cases hread : r.tag with
  | error fault => rfl
  | ok tag =>
    have hfield := (Json.hasField_iff_contains (by simp) (by simp)).1 (tag_eq_ok.1 hread)
    obtain ⟨value, hvalue, hstr⟩ := hfield
    rw [Json.contains_str.1 hstr] at hvalue
    rw [Json.tag?, hvalue] at h
    exact hfg tag h

/-- Of values that are alike both are records with the same fields, or neither is a record. -/
theorem asRecord {type : RecordType} (h : Json.Alike (.record type) v w) :
    (∃ fault, v.asRecord = .error fault ∧ w.asRecord = .error fault) ∨
      ∃ r r', v.asRecord = .ok r ∧ w.asRecord = .ok r' ∧
        Alike (type.fields (Json.tag? r.members)) r r' := by
  cases h with
  | refl =>
    cases hv : v.asRecord with
    | error fault => exact .inl ⟨fault, rfl, rfl⟩
    | ok r => exact .inr ⟨r, r, rfl, rfl, refl _ r⟩
  | record presence values =>
    have halike : Alike (type.fields _) ⟨_, rfl⟩ ⟨_, rfl⟩ :=
      ⟨presence _ _, fun hkey _ _ => values _ _ hkey _ _⟩
    exact .inr ⟨_, _, rfl, rfl, halike⟩

theorem asRecord_bind {type : RecordType} (h : Json.Alike (.record type) v w)
    {f : Record v → Reading α} {g : Record w → Reading α}
    (hfg : ∀ r r', Alike (type.fields (Json.tag? r.members)) r r' → f r = g r') :
    (v.asRecord >>= f) = (w.asRecord >>= g) := by
  rcases asRecord h with ⟨fault, hv, hw⟩ | ⟨r, r', hv, hw, hr⟩
  · rw [hv, hw]
    rfl
  · rw [hv, hw]
    exact hfg r r' hr

end Alike

end Record

end CrateDocs
