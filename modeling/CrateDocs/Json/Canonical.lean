import CrateDocs.Json.Basic
import CrateDocs.Table

/-!
# Canonical JSON values

The order of the members of an object carries no meaning. A value is canonical when the keys of
each of its objects ascend, and so differ; every value has a canonical form, and a canonical value
is its own.
-/

namespace CrateDocs

namespace Json

mutual

/-- Whether the keys of every object ascend. -/
def Canonical : Json → Prop
  | .null => True
  | .bool _ => True
  | .num _ => True
  | .str _ => True
  | .arr items => CanonicalItems items
  | .obj members => Table.Ascending members ∧ CanonicalMembers members

def CanonicalItems : List Json → Prop
  | [] => True
  | v :: vs => v.Canonical ∧ CanonicalItems vs

def CanonicalMembers : List (String × Json) → Prop
  | [] => True
  | (_, v) :: rest => v.Canonical ∧ CanonicalMembers rest

end

theorem canonicalMembers_iff {members : List (String × Json)} :
    CanonicalMembers members ↔ ∀ m ∈ members, m.2.Canonical := by
  induction members with
  | nil => simp [CanonicalMembers]
  | cons m rest ih => simp [CanonicalMembers, ih]

/-- The members in ascending order of their keys; of two members with one key the later counts. -/
def sortMembers (members : List (String × Json)) : List (String × Json) :=
  (Table.ofEntries members).toList

theorem ascending_sortMembers (members : List (String × Json)) :
    Table.Ascending (sortMembers members) :=
  Table.ascending_toList _

theorem sortMembers_of_ascending {members : List (String × Json)}
    (h : Table.Ascending members) : sortMembers members = members :=
  Table.toList_ofEntries h

theorem mem_of_mem_sortMembers {members : List (String × Json)} {m : String × Json}
    (h : m ∈ sortMembers members) : m ∈ members :=
  Table.mem_of_getElem?_ofEntries (Table.mem_toList_iff.1 h)

mutual

/-- The same value with the members of every object in ascending order of their keys. -/
def canonical : Json → Json
  | .null => .null
  | .bool b => .bool b
  | .num n => .num n
  | .str s => .str s
  | .arr items => .arr (canonicalItems items)
  | .obj members => .obj (sortMembers (canonicalMembers members))

def canonicalItems : List Json → List Json
  | [] => []
  | v :: vs => v.canonical :: canonicalItems vs

def canonicalMembers : List (String × Json) → List (String × Json)
  | [] => []
  | (k, v) :: rest => (k, v.canonical) :: canonicalMembers rest

end

mutual

/-- The canonical form is canonical. -/
theorem canonical_canonical : (v : Json) → v.canonical.Canonical
  | .null | .bool _ | .num _ | .str _ => trivial
  | .arr items => canonicalItems_canonical items
  | .obj members =>
    ⟨ascending_sortMembers _, canonicalMembers_iff.2 fun m h =>
      canonicalMembers_iff.1 (canonicalMembers_canonical members) m (mem_of_mem_sortMembers h)⟩

theorem canonicalItems_canonical : (items : List Json) → CanonicalItems (canonicalItems items)
  | [] => trivial
  | v :: vs => ⟨canonical_canonical v, canonicalItems_canonical vs⟩

theorem canonicalMembers_canonical :
    (members : List (String × Json)) → CanonicalMembers (canonicalMembers members)
  | [] => trivial
  | (_, v) :: rest => ⟨canonical_canonical v, canonicalMembers_canonical rest⟩

end

mutual

/-- A canonical value is its own canonical form. -/
theorem Canonical.canonical_eq : {v : Json} → v.Canonical → v.canonical = v
  | .null, _ | .bool _, _ | .num _, _ | .str _, _ => rfl
  | .arr _, h => congrArg arr (CanonicalItems.canonicalItems_eq h)
  | .obj _, ⟨ascending, h⟩ => by
    rw [canonical, CanonicalMembers.canonicalMembers_eq h, sortMembers_of_ascending ascending]

theorem CanonicalItems.canonicalItems_eq :
    {items : List Json} → CanonicalItems items → canonicalItems items = items
  | [], _ => rfl
  | _ :: _, ⟨h, hs⟩ => by
    rw [canonicalItems, h.canonical_eq, CanonicalItems.canonicalItems_eq hs]

theorem CanonicalMembers.canonicalMembers_eq :
    {members : List (String × Json)} → CanonicalMembers members →
      canonicalMembers members = members
  | [], _ => rfl
  | (_, _) :: _, ⟨h, hs⟩ => by
    rw [canonicalMembers, h.canonical_eq, CanonicalMembers.canonicalMembers_eq hs]

end

end Json

end CrateDocs
