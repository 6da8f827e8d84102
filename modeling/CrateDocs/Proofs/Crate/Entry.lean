import CrateDocs.Crate.Decode
import CrateDocs.Proofs.Exactness.Item
import CrateDocs.Proofs.Json.WrittenForm

/-!
# Entries of the index are read exactly

An entry of the index describes an item if and only if it stands under the item's identifier and
contains the written form of the item.
-/

namespace CrateDocs

open Reading

namespace Decode

variable {v : Json} {key : String} {item : Item}

/-- A fault is an error, and a reading that succeeds is left as it is. -/
@[simp] theorem liftM_eq_ok {α : Type} {reading : Reading α} {a : α} :
    (liftM reading : Except DecodeError α) = .ok a ↔ reading = .ok a :=
  mapError_eq_ok

theorem liftM_eq_error {α : Type} {reading : Reading α} {error : DecodeError} :
    (liftM reading : Except DecodeError α) = .error error ↔
      ∃ fault, reading = .error fault ∧ .fault fault = error :=
  mapError_eq_error

theorem entry_eq_ok :
    entry key v = .ok item ↔
      ∃ r : Record v, r.id "id" = .ok ⟨key⟩ ∧ Item.ofRecord ⟨key⟩ r = .ok item := by
  simp only [entry, bind_eq_ok, liftM_eq_ok]
  constructor
  · intro h
    rcases h with ⟨r, -, id, hid, h⟩
    split at h
    · rename_i hkey
      subst hkey
      exact ⟨r, hid, liftM_eq_ok.1 h⟩
    · cases h
  · intro h
    rcases h with ⟨r, hid, h⟩
    refine ⟨r, Json.asRecord_eq_ok.2 r.eq_obj, ⟨key⟩, hid, ?_⟩
    rw [if_pos rfl]
    exact liftM_eq_ok.2 h

/-- An item stands under its own identifier. -/
theorem id_of_entry (h : entry key v = .ok item) : item.id = ⟨key⟩ := by
  obtain ⟨r, -, h⟩ := entry_eq_ok.1 h
  simp only [Item.ofRecord, bind_eq_ok, pure_eq_ok] at h
  grind

/-- What is written for an item is read back, whatever stands beside it. -/
theorem entry_of_contains (hv : v.Canonical) (h : v.Contains item.toJson) :
    entry item.id.text v = .ok item := by
  obtain ⟨members, rfl⟩ := Json.exists_members_of_contains h rfl
  have hid := (Json.containsFields_cons.1 (Json.obj_contains_obj.1 h)).1
  refine entry_eq_ok.2 ⟨⟨members, rfl⟩, (Record.id_eq_ok (by simp)).2 hid, ?_⟩
  exact (Item.ofRecord_eq_ok hv hid).2 ⟨rfl, h⟩

/-- An entry of the index is accepted if and only if it contains the written form of an item that
bears its key, and then it is read as that item. -/
theorem entry_eq_ok_iff (hv : v.Canonical) :
    entry key v = .ok item ↔ item.id = ⟨key⟩ ∧ v.Contains item.toJson.canonical := by
  rw [item.regular_toJson.contains_canonical_iff]
  constructor
  · intro h
    obtain ⟨r, hid, hitem⟩ := entry_eq_ok.1 h
    exact (Item.ofRecord_eq_ok hv ((Record.id_eq_ok (by simp)).1 hid)).1 hitem
  · intro h
    rcases h with ⟨hid, h⟩
    have hread := entry_of_contains hv h
    rwa [hid] at hread

/-- A type alias that is read in spite of a field that the format does not know. -/
theorem entry_of_alias :
    entry "0:5" (.obj [
      ("attrs", .arr []), ("crate_id", .num (.integer 0)), ("id", .str "0:5"),
      ("inner", .obj [
        ("generics", .obj [("params", .arr []), ("where_predicates", .arr [])]),
        ("tag", .str "Typedef"),
        ("type", .obj [("tag", .str "Tuple"), ("types", .arr [.obj [("tag", .str "Infer")]])])]),
      ("links", .obj [("Pair", .str "0:7")]), ("name", .str "Alias"), ("stability", .bool true),
      ("visibility", .obj [("tag", .str "Public")])]) =
    .ok {
      id := ⟨"0:5"⟩, crateId := 0, name := some "Alias", span := none, visibility := .exported
      docs := none, links := .ofEntries [("Pair", ⟨"0:7"⟩)], attrs := [], deprecation := none
      payload := .typedef { type := .tuple [.infer], generics := ⟨[], []⟩ } } := by
  refine (entry_eq_ok_iff ?_).2 ⟨rfl, ?_⟩
  · simp [Json.Canonical, Json.CanonicalItems, Json.CanonicalMembers, Table.Ascending]
    decide
  · rw [(Item.regular_toJson _).contains_canonical_iff]
    simp only [Item.toJson, Table.toList_ofEntries (List.pairwise_singleton _ _)]
    simp [Json.Contains, Json.ContainsAt, Json.ContainsItems, Json.HasField, Json.member?,
      List.lookup_cons, ItemId.toJson, Json.ofNat, Json.ofStrings, Visibility.toJson,
      Payload.toJson, Payload.tag, Payload.members, TypeExpr.toJson, Generics.toJson]

end Decode

end CrateDocs
