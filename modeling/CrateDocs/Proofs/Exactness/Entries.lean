import CrateDocs.Json.Canonical
import CrateDocs.Proofs.Exactness.Record
import Mathlib.Data.List.Nodup

/-!
# Entries of tables

A table is read from an object entry by entry. As long as the keys of the object differ, it is
settled by what stands under each of them.
-/

namespace CrateDocs

open Reading

theorem Table.Ascending.nodup_keys {κ α : Type} [Ord κ] [Std.TransOrd κ]
    {entries : List (κ × α)} (h : Ascending entries) : (entries.map Prod.fst).Nodup := by
  rw [List.Nodup, List.pairwise_map]
  refine List.Pairwise.imp (fun {a b} hlt heq => ?_) h
  rw [heq, Std.ReflOrd.compare_self] at hlt
  cases hlt

namespace Json

variable {members : List (String × Json)} {key : String} {w : Json} {α β : Type}

theorem lookup_eq_some_iff_mem (h : (members.map Prod.fst).Nodup) :
    members.lookup key = some w ↔ (key, w) ∈ members := by
  constructor
  · intro hlookup
    obtain ⟨before, after, rfl, -⟩ := List.lookup_eq_some_iff.1 hlookup
    simp
  · intro hmem
    induction members with
    | nil => cases hmem
    | cons m rest ih =>
      rw [List.map_cons, List.nodup_cons] at h
      rcases List.mem_cons.1 hmem with rfl | hmem
      · exact List.lookup_cons_self
      · have hne : key ≠ m.1 := by
          rintro rfl
          exact h.1 (List.mem_map.2 ⟨_, hmem, rfl⟩)
        rw [List.lookup_cons, beq_eq_false_iff_ne.2 hne]
        exact ih h.2 hmem

theorem member?_eq_some_iff (h : (members.map Prod.fst).Nodup) :
    member? members key = some w ↔ (key, w) ∈ members ∧ w ≠ .null := by
  rw [← lookup_eq_some_iff_mem h]
  unfold member?
  split <;> rename_i hl
  · simp [hl, eq_comm]
  · constructor
    · intro hw
      exact ⟨hw, fun hnull => hl (hnull ▸ hw)⟩
    · exact And.left

theorem Canonical.member? (h : (obj members).Canonical) (hw : member? members key = some w) :
    w.Canonical :=
  canonicalMembers_iff.1 h.2 _ (mem_of_member? hw)

theorem forall₂_memberParts {p : String × Json → β → Prop} {bs : List β} :
    List.Forall₂ (fun m b => p (m.1, m.2.val) b) (memberParts members) bs ↔
      List.Forall₂ p members bs := by
  have hval : (memberParts members).map (fun m => (m.1, m.2.val)) = members :=
    List.map_map.trans (List.attach_map_subtype_val members)
  have h := List.forall₂_map_left_iff (R := p) (f := fun m => (m.1, m.2.val))
    (l := memberParts members) (u := bs)
  rw [hval] at h
  exact h.symm

theorem readEntries_eq_ok {v : Json} {read : String → v.Part → Reading α}
    {p : String × Json → α → Prop} (hread : ∀ name w a, read name w = .ok a ↔ p (name, w.val) a)
    {as : List α} :
    v.readEntries read = .ok as ↔ ∃ members, v = .obj members ∧ List.Forall₂ p members as := by
  cases v with
  | obj members =>
    simp only [readEntries, mapM_eq_ok, within_eq_ok, hread, obj.injEq, exists_eq_left']
    exact forall₂_memberParts
  | _ => simp [readEntries]

end Json

theorem Record.entries_eq_ok {v : Json} {r : Record v} {key : String} {α : Type}
    {read : String → v.Part → Reading α} {p : String × Json → α → Prop}
    (hread : ∀ name w a, read name w = .ok a ↔ p (name, w.val) a) {as : List α} :
    r.entries key read = .ok as ↔
      ∃ members, Json.member? r.members key = some (.obj members) ∧
        List.Forall₂ p members as := by
  have hentries (w : v.Part) (as : List α) :
      (w.val.readEntries fun name value => read name (w.widen value)) = .ok as ↔
        ∃ members, w.val = .obj members ∧ List.Forall₂ p members as :=
    Json.readEntries_eq_ok fun name value a => hread name (w.widen value) a
  rw [entries, field_eq_ok_iff_exists (p := fun w as => ∃ members, w = .obj members ∧
    List.Forall₂ p members as) hentries]
  constructor
  · intro h
    rcases h with ⟨_, hmember, members, rfl, h⟩
    exact ⟨members, hmember, h⟩
  · intro h
    rcases h with ⟨members, hmember, h⟩
    exact ⟨_, hmember, members, rfl, h⟩

end CrateDocs
