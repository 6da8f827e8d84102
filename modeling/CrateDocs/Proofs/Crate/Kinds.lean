import Mathlib.Algebra.GroupWithZero.Nat
import CrateDocs.Crate.Lookup
import CrateDocs.Proofs.Crate.Bare
import CrateDocs.Proofs.Crate.Decode
import CrateDocs.Proofs.Renaming.Basic

/-!
# The kinds part the items of a crate

Every item of the index is listed once, under the kind of its payload. The list of a kind ascends in
the identifiers, since the items of a decoded crate stand under their own.
-/

namespace CrateDocs

namespace Crate

variable {crate : Crate} {kind : ItemKind} {id : ItemId} {item : Item}

theorem ne_of_compare_eq_lt {a b : ItemId} (h : compare a b = .lt) : a ≠ b := by
  rintro rfl
  rw [Std.ReflOrd.compare_self] at h
  cases h

theorem mem_itemsOfKind :
    item ∈ crate.itemsOfKind kind ↔ item ∈ crate.index.values ∧ item.kind = kind := by
  rw [itemsOfKind, List.mem_filter, beq_iff_eq]

/-- The lists of all kinds hold together what the index holds. -/
theorem mem_flatMap_itemsOfKind :
    item ∈ ItemKind.all.flatMap crate.itemsOfKind ↔ item ∈ crate.index.values := by
  simp only [List.mem_flatMap, mem_itemsOfKind]
  constructor
  · intro h
    rcases h with ⟨kind, -, hmem, -⟩
    exact hmem
  · intro hmem
    exact ⟨item.kind, ItemKind.mem_all _, hmem, rfl⟩

theorem length_values (crate : Crate) : crate.index.values.length = crate.index.size := by
  rw [Table.values_eq_map, List.length_map, Std.ExtTreeMap.length_toList]

namespace WellFormed

theorem mem_values (hcrate : crate.WellFormed) :
    item ∈ crate.index.values ↔ crate.index[item.id]? = some item := by
  rw [Table.values_eq_map, List.mem_map]
  constructor
  · rintro ⟨⟨id, other⟩, hmem, rfl⟩
    have hother := Table.mem_toList_iff.1 hmem
    rwa [hcrate.id_eq hother]
  · intro h
    exact ⟨(item.id, item), Table.mem_toList_iff.2 h, rfl⟩

theorem pairwise_values (hcrate : crate.WellFormed) :
    crate.index.values.Pairwise fun a b => compare a.id b.id = .lt := by
  rw [Table.values_eq_map, List.pairwise_map]
  refine (Table.ascending_toList crate.index).imp_of_mem fun {a b} ha hb hlt => ?_
  rwa [hcrate.id_eq (Table.mem_toList_iff.1 ha), hcrate.id_eq (Table.mem_toList_iff.1 hb)]

theorem pairwise_itemsOfKind (hcrate : crate.WellFormed) (kind : ItemKind) :
    (crate.itemsOfKind kind).Pairwise fun a b => compare a.id b.id = .lt :=
  hcrate.pairwise_values.filter _

theorem nodup_values (hcrate : crate.WellFormed) : crate.index.values.Nodup :=
  hcrate.pairwise_values.imp fun hlt heq => ne_of_compare_eq_lt hlt (congrArg Item.id heq)

/-- An item is the only one with its identifier. -/
theorem filter_values (hcrate : crate.WellFormed) (hitem : crate.index[id]? = some item) :
    (crate.index.values.filter fun other => other.id = id) = [item] := by
  obtain rfl := hcrate.id_eq hitem
  obtain ⟨before, after, hsplit⟩ := List.append_of_mem (hcrate.mem_values.2 hitem)
  have hascending := hcrate.pairwise_values
  rw [hsplit, List.pairwise_append, List.pairwise_cons] at hascending
  obtain ⟨-, ⟨hafter, -⟩, hbefore⟩ := hascending
  have hnone : (before.filter fun other => other.id = item.id) = [] :=
    List.filter_eq_nil_iff.2 fun other hother => by
      simpa using ne_of_compare_eq_lt (hbefore other hother item List.mem_cons_self)
  have hnone' : (after.filter fun other => other.id = item.id) = [] :=
    List.filter_eq_nil_iff.2 fun other hother => by
      simpa using (ne_of_compare_eq_lt (hafter other hother)).symm
  rw [hsplit, List.filter_append, hnone, List.filter_cons_of_pos (by simp), hnone',
    List.nil_append]

/-- An item is listed once under the kind of its payload, and under no other kind. -/
theorem filter_itemsOfKind (hcrate : crate.WellFormed) (hitem : crate.index[id]? = some item) :
    ((crate.itemsOfKind kind).filter fun other => other.id = id) =
      if item.payload.kind = kind then [item] else [] := by
  rw [itemsOfKind, List.filter_comm, hcrate.filter_values hitem, List.filter_singleton, cond_eq_ite]
  exact if_congr beq_iff_eq rfl rfl

/-- Nothing is listed under two kinds. -/
theorem nodup_flatMap_itemsOfKind (hcrate : crate.WellFormed) :
    (ItemKind.all.flatMap crate.itemsOfKind).Nodup := by
  rw [List.nodup_flatMap]
  constructor
  · exact fun kind _ => hcrate.nodup_values.filter _
  · refine ItemKind.nodup_all.imp fun {a b} hne => ?_
    intro item ha hb
    exact hne ((mem_itemsOfKind.1 ha).2.symm.trans (mem_itemsOfKind.1 hb).2)

theorem perm_flatMap_itemsOfKind (hcrate : crate.WellFormed) :
    (ItemKind.all.flatMap crate.itemsOfKind).Perm crate.index.values :=
  (List.perm_ext_iff_of_nodup hcrate.nodup_flatMap_itemsOfKind hcrate.nodup_values).2
    fun _ => mem_flatMap_itemsOfKind

end WellFormed

/-- Whether the lists of the kinds part the items of the index among themselves. -/
structure PartedByKind (crate : Crate) : Prop where
  /-- An item is listed once under the kind of its payload, and under no other kind. -/
  filter_eq : ∀ id item, crate.index[id]? = some item → ∀ kind ∈ ItemKind.all,
    ((crate.itemsOfKind kind).filter fun other => other.id = id) =
      if item.payload.kind = kind then [item] else []
  /-- Taken together, the lists are a rearrangement of the index. -/
  perm : (ItemKind.all.flatMap crate.itemsOfKind).Perm crate.index.values
  ascending : ∀ kind, (crate.itemsOfKind kind).Pairwise fun a b => compare a.id b.id = .lt
  length_all : ItemKind.all.length = 25
  sum_length : (ItemKind.all.map fun kind => (crate.itemsOfKind kind).length).sum =
    crate.index.size

end Crate

/-- In every decoded crate the kinds part the items of the index. -/
theorem partedByKind_of_decode {mode : Mode} {document : Json} {decoded : Decoded}
    (h : decode mode document = .ok decoded) : decoded.crate.PartedByKind := by
  have hcrate := wellFormed_of_decode h
  have hperm := hcrate.perm_flatMap_itemsOfKind
  constructor
  · exact fun id item hitem kind _ => hcrate.filter_itemsOfKind hitem
  · exact hperm
  · exact hcrate.pairwise_itemsOfKind
  · rfl
  · rw [← List.length_flatMap, hperm.length_eq, Crate.length_values]

/-- A module with macros of four sorts. Those that are called like functions are of one kind,
whichever way they are defined. -/
def macroShelf : Json :=
  let procMacro (id style : String) : BareItem :=
    { id, inner := [("helpers", .arr []), ("kind", .str style), ("tag", .str "ProcMacro")] }
  BareCrate.document {
    index := [
      BareItem.entry { id := "0", inner := bareModule [] },
      (procMacro "1" "Bang").entry, (procMacro "2" "Attr").entry, (procMacro "3" "Derive").entry,
      BareItem.entry {
        id := "4"
        inner := [("macro", .str "macro_rules! m"), ("tag", .str "Macro")] }] }

theorem partedByKind_macroShelf :
    ∃ decoded item, decode .strict macroShelf = .ok decoded ∧
      decoded.crate.index[(⟨"1"⟩ : ItemId)]? = some item ∧
      ((decoded.crate.itemsOfKind .macroDef).filter fun other => other.id = ⟨"1"⟩) = [item] ∧
      ((decoded.crate.itemsOfKind .procDerive).filter fun other => other.id = ⟨"1"⟩) = [] ∧
      (decoded.crate.itemsOfKind .macroDef).map Item.id = [⟨"1"⟩, ⟨"4"⟩] ∧
      (ItemKind.all.map fun kind => (decoded.crate.itemsOfKind kind).length).sum = 5 := by
  obtain ⟨decoded, h, hkind, hids, hsize⟩ : ∃ decoded, decode .strict macroShelf = .ok decoded ∧
      (decoded.crate.index[(⟨"1"⟩ : ItemId)]?.map fun item => item.payload.kind) =
        some .macroDef ∧
      (decoded.crate.itemsOfKind .macroDef).map Item.id = [⟨"1"⟩, ⟨"4"⟩] ∧
      decoded.crate.index.size = 5 :=
    ⟨_, rfl, by decide +kernel, by decide +kernel, by decide +kernel⟩
  have hparted := partedByKind_of_decode h
  obtain ⟨item, hitem, hkind⟩ := Option.map_eq_some_iff.1 hkind
  refine ⟨decoded, item, h, hitem, ?_, ?_, hids, hparted.sum_length.trans hsize⟩
  · rw [hparted.filter_eq _ _ hitem _ (ItemKind.mem_all _), if_pos hkind]
  · rw [hparted.filter_eq _ _ hitem _ (ItemKind.mem_all _), if_neg (by rw [hkind]; decide)]

end CrateDocs
