import CrateDocs.Proofs.Indifference.Layout
import Mathlib.Data.List.Forall2
import Mathlib.Logic.Relation

/-!
# Values that look alike

Two values are alike through a layout if they are the same as far as the layout looks. In a record
a null counts as absent, and what else there is besides the fields that are read does not count.
An edit that respects this, at any depth, leaves a value that is like the one before.
-/

namespace CrateDocs.Json

/-- Whether two values are the same in all that a layout looks at. -/
inductive Alike : Layout → Json → Json → Prop
  | refl (layout : Layout) (v : Json) : Alike layout v v
  | record {type : RecordType} {members others : List (String × Json)}
      (presence : ∀ key layout, (type.fields (tag? members)).lookup key = some layout →
        (member? members key).isSome = (member? others key).isSome)
      (values : ∀ key layout, (type.fields (tag? members)).lookup key = some layout →
        ∀ v w, member? members key = some v → member? others key = some w → Alike layout v w) :
      Alike (.record type) (.obj members) (.obj others)
  | list {layout : Layout} {items others : List Json} (length_eq : items.length = others.length)
      (values : ∀ v w, (v, w) ∈ items.zip others → Alike layout v w) :
      Alike (.list layout) (.arr items) (.arr others)
  | pair {first second : Layout} {v w v' w' : Json} (hfirst : Alike first v v')
      (hsecond : Alike second w w') : Alike (.pair first second) (.arr [v, w]) (.arr [v', w'])
  | table {layout : Layout} {members others : List (String × Json)}
      (length_eq : members.length = others.length)
      (keys : ∀ m m', (m, m') ∈ members.zip others → m.1 = m'.1)
      (values : ∀ m m', (m, m') ∈ members.zip others → Alike layout m.2 m'.2) :
      Alike (.table layout) (.obj members) (.obj others)

variable {layout : Layout} {v w : Json} {key name : String}
  {members others before after : List (String × Json)} {fields : Fields}

/-- What is looked at as a whole is the same. -/
theorem Alike.eq_of_whole (h : Alike .whole v w) : v = w := by
  cases h
  rfl

theorem Alike.forall₂_items {items others : List Json}
    (h : Alike (.list layout) (.arr items) (.arr others)) :
    List.Forall₂ (Alike layout) items others := by
  cases h with
  | refl => exact List.forall₂_same.2 fun v _ => .refl layout v
  | list length_eq values =>
    exact List.forall₂_iff_zip.2 ⟨length_eq, fun hmem => values _ _ hmem⟩

theorem Alike.forall₂_members (h : Alike (.table layout) (.obj members) (.obj others)) :
    List.Forall₂ (fun m m' => m.1 = m'.1 ∧ Alike layout m.2 m'.2) members others := by
  cases h with
  | refl => exact List.forall₂_same.2 fun m _ => ⟨rfl, .refl layout m.2⟩
  | table length_eq keys values =>
    exact List.forall₂_iff_zip.2 ⟨length_eq, fun hmem => ⟨keys _ _ hmem, values _ _ hmem⟩⟩

/-- A change to the members of a record of which certain fields are read: a null is removed, or
added where nothing was, or anything at all is done to the members that are not read. -/
inductive Retouch (fields : Fields) : List (String × Json) → List (String × Json) → Prop
  | removeNull {before after : List (String × Json)} {key : String}
      (habsent : key ∉ (before ++ after).map Prod.fst) :
      Retouch fields (before ++ (key, .null) :: after) (before ++ after)
  | addNull {before after : List (String × Json)} {key : String}
      (habsent : key ∉ (before ++ after).map Prod.fst) :
      Retouch fields (before ++ after) (before ++ (key, .null) :: after)
  | unread {members others : List (String × Json)}
      (hread : ∀ key, (fields.lookup key).isSome → others.lookup key = members.lookup key) :
      Retouch fields members others

/-- One record of a value is changed, which may lie at any depth. -/
inductive Edit : Layout → Json → Json → Prop
  | record {type : RecordType} {members others : List (String × Json)}
      (h : Retouch (type.fields (tag? members)) members others) :
      Edit (.record type) (.obj members) (.obj others)
  | field {type : RecordType} {layout : Layout} {before after : List (String × Json)}
      {key : String} {v w : Json} (hkey : key ∉ before.map Prod.fst)
      (hlayout : (type.fields (tag? (before ++ (key, v) :: after))).lookup key = some layout)
      (h : Edit layout v w) :
      Edit (.record type) (.obj (before ++ (key, v) :: after)) (.obj (before ++ (key, w) :: after))
  | item {layout : Layout} {before after : List Json} {v w : Json} (h : Edit layout v w) :
      Edit (.list layout) (.arr (before ++ v :: after)) (.arr (before ++ w :: after))
  | first {first second : Layout} {v w u : Json} (h : Edit first v w) :
      Edit (.pair first second) (.arr [v, u]) (.arr [w, u])
  | second {first second : Layout} {v w u : Json} (h : Edit second v w) :
      Edit (.pair first second) (.arr [u, v]) (.arr [u, w])
  | entry {layout : Layout} {before after : List (String × Json)} {key : String} {v w : Json}
      (h : Edit layout v w) :
      Edit (.table layout) (.obj (before ++ (key, v) :: after)) (.obj (before ++ (key, w) :: after))

theorem lookup_eq_none_of_notMem (h : key ∉ members.map Prod.fst) : members.lookup key = none := by
  rw [List.lookup_eq_none_iff]
  intro m hm
  have hne : key ≠ m.1 := fun heq => h (heq ▸ List.mem_map_of_mem hm)
  exact bne_iff_ne.2 hne

theorem lookup_middle_of_ne (h : name ≠ key) :
    (before ++ (key, v) :: after).lookup name = (before ++ after).lookup name := by
  have hne : (name == key) = false := beq_eq_false_iff_ne.2 h
  rw [List.lookup_append, List.lookup_append, List.lookup_cons, hne]

theorem lookup_middle_self (h : key ∉ before.map Prod.fst) :
    (before ++ (key, v) :: after).lookup key = some v := by
  rw [List.lookup_append, lookup_eq_none_of_notMem h, Option.none_or, List.lookup_cons_self]

/-- A null is as good as nothing. -/
theorem member?_middle_null (h : key ∉ (before ++ after).map Prod.fst) :
    member? (before ++ (key, .null) :: after) name = member? (before ++ after) name := by
  by_cases hname : name = key
  · subst hname
    have hbefore : name ∉ before.map Prod.fst := by
      intro hmem
      rw [List.map_append] at h
      exact h (List.mem_append_left _ hmem)
    rw [member?, member?, lookup_middle_self hbefore, lookup_eq_none_of_notMem h]
  · rw [member?, member?, lookup_middle_of_ne hname]

theorem Retouch.member?_eq (h : Retouch fields members others)
    (hkey : (fields.lookup key).isSome) : member? others key = member? members key := by
  cases h with
  | removeNull habsent => exact (member?_middle_null habsent).symm
  | addNull habsent => exact member?_middle_null habsent
  | unread hread => rw [member?, member?, hread key hkey]

theorem Edit.ne_null (h : Edit layout v w) : v ≠ .null ∧ w ≠ .null := by
  constructor
  · rintro rfl
    cases h
  · rintro rfl
    cases h

theorem member?_middle_self (h : key ∉ before.map Prod.fst) (hv : v ≠ .null) :
    member? (before ++ (key, v) :: after) key = some v := by
  rw [member?, lookup_middle_self h]
  cases v with
  | null => exact absurd rfl hv
  | _ => rfl

theorem forall₂_middle {α : Type} {R : α → α → Prop} (hrefl : ∀ a, R a a) {a b : α}
    (before after : List α) (h : R a b) :
    List.Forall₂ R (before ++ a :: after) (before ++ b :: after) := by
  have hsame (as : List α) : List.Forall₂ R as as :=
    List.forall₂_same.2 fun a _ => hrefl a
  exact List.rel_append (hsame before) (.cons h (hsame after))

/-- An edit is not seen through the layout that it respects. -/
theorem Edit.alike (h : Edit layout v w) : Alike layout v w := by
  induction h with
  | record h =>
    apply Alike.record
    · intro key layout hlayout
      rw [h.member?_eq (by rw [hlayout]; rfl)]
    · intro key layout hlayout v w hv hw
      rw [h.member?_eq (by rw [hlayout]; rfl), hv, Option.some.injEq] at hw
      rw [hw]
      exact .refl layout w
  | @field type layout before after key v w hkey hlayout h ih =>
    obtain ⟨hv, hw⟩ := h.ne_null
    have hother {name : String} (hname : name ≠ key) :
        member? (before ++ (key, w) :: after) name =
          member? (before ++ (key, v) :: after) name := by
      rw [member?, member?, lookup_middle_of_ne hname, lookup_middle_of_ne hname]
    apply Alike.record
    · intro name _ _
      by_cases hname : name = key
      · rw [hname, member?_middle_self hkey hv, member?_middle_self hkey hw]
        rfl
      · rw [hother hname]
    · intro name other hother' v' w' hv' hw'
      by_cases hname : name = key
      · subst hname
        rw [hlayout, Option.some.injEq] at hother'
        rw [member?_middle_self hkey hv, Option.some.injEq] at hv'
        rw [member?_middle_self hkey hw, Option.some.injEq] at hw'
        subst hother' hv' hw'
        exact ih
      · rw [hother hname, hv', Option.some.injEq] at hw'
        rw [hw']
        exact .refl other w'
  | @item layout before after v w h ih =>
    have hitems := forall₂_middle (.refl layout) before after ih
    rw [List.forall₂_iff_zip] at hitems
    exact .list hitems.1 fun _ _ hmem => hitems.2 hmem
  | first h ih => exact .pair ih (.refl _ _)
  | second h ih => exact .pair (.refl _ _) ih
  | @entry layout before after key v w h ih =>
    have hmembers := forall₂_middle (R := fun m m' => m.1 = m'.1 ∧ Alike layout m.2 m'.2)
      (fun m => ⟨rfl, .refl layout m.2⟩) before after (a := (key, v)) (b := (key, w)) ⟨rfl, ih⟩
    rw [List.forall₂_iff_zip] at hmembers
    exact .table hmembers.1 (fun _ _ hmem => (hmembers.2 hmem).1) fun _ _ hmem =>
      (hmembers.2 hmem).2

end CrateDocs.Json
