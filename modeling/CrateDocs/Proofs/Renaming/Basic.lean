import CrateDocs.ItemId
import CrateDocs.Table

/-!
# Renamings of identifiers

A renaming gives every identifier another name and keeps the order of the names. A table whose keys
are renamed has the same entries in the same order as before, under the other keys.
-/

namespace CrateDocs

/-- A way to rename identifiers that keeps their order, and so never makes two of them one. -/
structure Renaming where
  apply : ItemId → ItemId
  compare_eq_lt : ∀ {a b : ItemId}, compare a b = .lt → compare (apply a) (apply b) = .lt

namespace Renaming

instance : CoeFun Renaming fun _ => ItemId → ItemId := ⟨apply⟩

variable (ρ : Renaming)

@[simp] theorem compare_apply (a b : ItemId) : compare (ρ a) (ρ b) = compare a b := by
  cases h : compare a b with
  | lt => exact ρ.compare_eq_lt h
  | eq => rw [Std.LawfulEqOrd.eq_of_compare h, Std.ReflOrd.compare_self]
  | gt =>
    rw [Std.OrientedOrd.eq_swap] at h ⊢
    rw [Ordering.swap_eq_gt] at h
    rw [ρ.compare_eq_lt h]
    rfl

theorem injective : Function.Injective ρ := by
  intro a b heq
  refine Std.LawfulEqOrd.eq_of_compare ?_
  rw [← ρ.compare_apply, heq, Std.ReflOrd.compare_self]

/-- The renaming that puts the same text in front of all identifiers. -/
def underPrefix (text : String) : Renaming where
  apply id := ⟨text ++ id.text⟩
  compare_eq_lt {a b} h := by
    rw [ItemId.compare_eq] at h ⊢
    change compareOfLessAndEq _ _ = _ at h
    change compareOfLessAndEq _ _ = _
    rw [compareOfLessAndEq_eq_lt, String.lt_iff] at h ⊢
    simp only [String.toList_append]
    exact List.append_left_lt h

end Renaming

namespace Table

variable {α β : Type} (ρ : Renaming) (f : α → β)

/-- The values of a table stand in the order of their keys. -/
theorem values_eq_map {κ : Type} [Ord κ] [Std.TransOrd κ] (table : Table κ α) :
    table.values = table.toList.map Prod.snd := by
  obtain ⟨quotient⟩ := table
  induction quotient with
  | mk tree =>
    change tree.inner.values = (Std.DTreeMap.Internal.Impl.Const.toList tree.inner).map Prod.snd
    rw [Std.DTreeMap.Internal.Impl.values_eq_map_snd,
      Std.DTreeMap.Internal.Impl.Const.toList_eq_toListModel_map, List.map_map]
    rfl

/-- The entries of a table under renamed keys, with each value replaced by its image. -/
def rename (table : Table ItemId α) : Table ItemId β :=
  ofEntries (table.toList.map fun (id, value) => (ρ id, f value))

@[simp] theorem toList_rename (table : Table ItemId α) :
    (table.rename ρ f).toList = table.toList.map fun (id, value) => (ρ id, f value) := by
  refine toList_ofEntries (List.pairwise_map.2 ?_)
  exact (ascending_toList table).imp ρ.compare_eq_lt

@[simp] theorem getElem?_rename (table : Table ItemId α) (id : ItemId) :
    (table.rename ρ f)[ρ id]? = table[id]?.map f := by
  refine Option.ext fun value => ?_
  have hentry : (ρ id, value) ∈ (table.rename ρ f).toList ↔
      (table.rename ρ f)[ρ id]? = some value := mem_toList_iff
  rw [← hentry, toList_rename, List.mem_map]
  simp only [Prod.mk.injEq, Prod.exists, Option.map_eq_some_iff, mem_toList_iff]
  constructor
  · intro h
    rcases h with ⟨other, a, hother, heq, hvalue⟩
    cases ρ.injective heq
    exact ⟨a, hother, hvalue⟩
  · intro h
    rcases h with ⟨a, ha, hvalue⟩
    exact ⟨id, a, ha, rfl, hvalue⟩

@[simp] theorem contains_rename (table : Table ItemId α) (id : ItemId) :
    (table.rename ρ f).contains (ρ id) = table.contains id := by
  rw [Std.ExtTreeMap.contains_eq_isSome_getElem?, Std.ExtTreeMap.contains_eq_isSome_getElem?,
    getElem?_rename, Option.isSome_map]

@[simp] theorem values_rename (table : Table ItemId α) :
    (table.rename ρ f).values = table.values.map f := by
  rw [values_eq_map, values_eq_map, toList_rename, List.map_map, List.map_map]
  rfl

end Table

end CrateDocs
