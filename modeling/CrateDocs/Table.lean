import Std.Data.ExtTreeMap

/-!
# Tables

A table is a finite map that lists its entries in ascending order of the keys. Two tables with the
same entries are equal, however they were built. A table that is made from a list of entries holds
the last entry with each key.
-/

namespace CrateDocs

/-- A finite map whose listing ascends in the keys. -/
abbrev Table (κ : Type) [Ord κ] [Std.TransOrd κ] (α : Type) : Type :=
  Std.ExtTreeMap κ α compare

namespace Table

variable {κ α : Type} [Ord κ]

def Ascending (entries : List (κ × α)) : Prop :=
  entries.Pairwise fun a b => compare a.1 b.1 = .lt

variable [Std.TransOrd κ]

/-- The table of a list of entries; of two entries with one key the later one counts. -/
def ofEntries (entries : List (κ × α)) : Table κ α :=
  Std.ExtTreeMap.ofList entries compare

theorem ascending_toList (table : Table κ α) : Ascending table.toList :=
  Std.ExtTreeMap.ordered_keys_toList

theorem nodup_of_ascending {entries : List (κ × α)} (h : Ascending entries) : entries.Nodup :=
  h.imp fun hlt heq => by simp [heq, Std.ReflOrd.compare_self] at hlt

/-- Two lists with the same entries are equal if their keys ascend. -/
theorem Ascending.ext {as bs : List (κ × α)} (ha : Ascending as) (hb : Ascending bs)
    (h : ∀ entry, entry ∈ as ↔ entry ∈ bs) : as = bs := by
  refine List.Perm.eq_of_pairwise (fun a b _ _ hab hba => ?_) ha hb
    ((List.perm_ext_iff_of_nodup (nodup_of_ascending ha) (nodup_of_ascending hb)).2 h)
  rw [Std.OrientedOrd.eq_swap, hba] at hab
  simp at hab

/-- The last entry of a list is written over what comes before it. -/
theorem ofEntries_concat (entries : List (κ × α)) (key : κ) (value : α) :
    ofEntries (entries ++ [(key, value)]) = (ofEntries entries).insert key value := by
  simp only [ofEntries, Std.ExtTreeMap.ofList_eq_insertMany_empty,
    Std.ExtTreeMap.insertMany_append]
  rfl

variable [Std.LawfulEqOrd κ]

/-- A table holds nothing but entries of the list that it is made from. -/
theorem mem_of_getElem?_ofEntries {entries : List (κ × α)} {key : κ} {value : α}
    (h : (ofEntries entries)[key]? = some value) : (key, value) ∈ entries := by
  have insertMany : ∀ (entries : List (κ × α)) (table : Table κ α),
      (table.insertMany entries)[key]? = some value →
        table[key]? = some value ∨ (key, value) ∈ entries := by
    intro entries
    induction entries with
    | nil => exact fun _ h => .inl h
    | cons entry rest ih =>
      intro table h
      rw [Std.ExtTreeMap.insertMany_cons] at h
      rcases ih _ h with h | h
      · rw [Std.ExtTreeMap.getElem?_insert] at h
        split at h
        · rename_i heq
          simp only [Option.some.injEq] at h
          exact .inr (by simp [← h, ← Std.LawfulEqOrd.eq_of_compare heq])
        · exact .inl h
      · exact .inr (by simp [h])
  rw [ofEntries, Std.ExtTreeMap.ofList_eq_insertMany_empty] at h
  exact (insertMany entries ∅ h).resolve_left (by simp)

theorem mem_toList_iff {table : Table κ α} {entry : κ × α} :
    entry ∈ table.toList ↔ table[entry.1]? = some entry.2 :=
  Std.ExtTreeMap.mem_toList_iff_getElem?_eq_some

theorem getElem?_ofEntries {entries : List (κ × α)} (h : Ascending entries) {key : κ} {value : α} :
    (ofEntries entries)[key]? = some value ↔ (key, value) ∈ entries :=
  ⟨mem_of_getElem?_ofEntries, Std.ExtTreeMap.getElem?_ofList_of_mem Std.ReflOrd.compare_self
    (h.imp fun hlt heq => by simp [hlt] at heq)⟩

/-- A list whose keys ascend is the listing of its table. -/
theorem toList_ofEntries {entries : List (κ × α)} (h : Ascending entries) :
    (ofEntries entries).toList = entries :=
  (ascending_toList _).ext h fun _ =>
    mem_toList_iff.trans (getElem?_ofEntries h)

theorem ofEntries_toList (table : Table κ α) : ofEntries table.toList = table :=
  Std.ExtTreeMap.toList_inj.1 (toList_ofEntries (ascending_toList table))

end Table

end CrateDocs
