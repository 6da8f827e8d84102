import CrateDocs.Crate.Basic
import CrateDocs.Json.Canonical

/-!
# Bare documents

The records of a bare document have the fields that are required and no others, in ascending order
of their keys. What stands in the fields is left open as far as documents differ in it.
-/

namespace CrateDocs

theorem canonical_empty : (Json.obj []).Canonical :=
  ⟨.nil, trivial⟩

/-- A record of which nothing but the tag is required. -/
theorem canonical_tag (tag : String) : (Json.obj [("tag", .str tag)]).Canonical :=
  ⟨List.pairwise_singleton _ _, trivial, trivial⟩

/-- The fields of an item that has no more of them than it needs. -/
structure BareItem where
  id : String
  inner : List (String × Json)
  attrs : List Json := []

namespace BareItem

def members (item : BareItem) : List (String × Json) :=
  [("attrs", .arr item.attrs), ("crate_id", .num (.integer 0)), ("id", .str item.id),
    ("inner", .obj item.inner), ("links", .obj []), ("visibility", .obj [("tag", .str "Public")])]

/-- The item in an index, under its own identifier. -/
def entry (item : BareItem) : String × Json :=
  (item.id, .obj item.members)

theorem canonical_members (item : BareItem) (hinner : (Json.obj item.inner).Canonical)
    (hattrs : Json.CanonicalItems item.attrs) : (Json.obj item.members).Canonical := by
  constructor
  · simp [members, Table.Ascending]
    decide
  · exact ⟨hattrs, trivial, trivial, hinner, canonical_empty, canonical_tag "Public", trivial⟩

end BareItem

/-- The content of a module with the given members. -/
def bareModule (items : List String) : List (String × Json) :=
  [("is_crate", .bool true), ("is_stripped", .bool false), ("items", .arr (items.map .str)),
    ("tag", .str "Module")]

theorem canonical_bareModule (items : List String) :
    (Json.obj (bareModule items)).Canonical := by
  have hitems : Json.CanonicalItems (items.map .str) := by
    induction items with
    | nil => trivial
    | cons id items ih => exact ⟨trivial, ih⟩
  constructor
  · simp [bareModule, Table.Ascending]
    decide
  · exact ⟨trivial, trivial, hitems, trivial, trivial⟩

/-- The summary of an identifier, under that identifier. -/
def bareSummary (id kind : String) (path : List String) : String × Json :=
  (id, .obj [
    ("crate_id", .num (.integer 0)), ("kind", .str kind), ("path", .arr (path.map .str))])

/-- The fields of a crate that has no more of them than it needs. -/
structure BareCrate where
  externalCrates : List (String × Json) := []
  version : Int := 17
  index : List (String × Json)
  paths : Json := .obj []
  root : Json := .str "0"

namespace BareCrate

def members (crate : BareCrate) : List (String × Json) :=
  [("external_crates", .obj crate.externalCrates),
    ("format_version", .num (.integer crate.version)), ("includes_private", .bool false),
    ("index", .obj crate.index), ("paths", crate.paths), ("root", crate.root)]

def document (crate : BareCrate) : Json :=
  .obj crate.members

theorem canonical_document (crate : BareCrate)
    (hexternalCrates : (Json.obj crate.externalCrates).Canonical)
    (hindex : (Json.obj crate.index).Canonical) (hpaths : crate.paths.Canonical)
    (hroot : crate.root.Canonical) : crate.document.Canonical := by
  constructor
  · simp [members, Table.Ascending]
    decide
  · exact ⟨hexternalCrates, trivial, trivial, hindex, hpaths, hroot, trivial⟩

end BareCrate

end CrateDocs
