import CrateDocs.Crate.Basic
import CrateDocs.Item.Format
import CrateDocs.Json.Canonical
import CrateDocs.Unsigned

/-!
# The written form of crates

A crate is written as a record whose three tables are objects. `Crate.encode` is the document: the
same record with the members of every object in ascending order of their keys.
-/

namespace CrateDocs

def ItemSummary.toJson (summary : ItemSummary) : Json :=
  .obj [("crate_id", .ofNat summary.crateId.toNat), ("path", .ofStrings summary.path.segments),
    ("kind", .str summary.kind.name)]

def ExternalCrate.toJson (crate : ExternalCrate) : Json :=
  .obj [("name", .str crate.name), ("html_root_url", .ofString? crate.htmlRootUrl)]

namespace Crate

/-- The record of a crate, its fields in the order of their declaration. -/
def toJson (crate : Crate) : Json :=
  .obj [("root", crate.root.toJson), ("crate_version", .ofString? crate.version),
    ("includes_private", .bool crate.includesPrivate),
    ("index", .obj (crate.index.toList.map fun (id, item) => (id.text, item.toJson))),
    ("paths", .obj (crate.paths.toList.map fun (id, summary) => (id.text, summary.toJson))),
    ("external_crates", .obj (crate.externalCrates.toList.map fun (number, external) =>
      (toString number.toNat, external.toJson))),
    ("format_version", .ofNat crate.formatVersion.toNat)]

def encode (crate : Crate) : Json :=
  crate.toJson.canonical

/-- Two crates are the same when they are written in the same way. -/
instance : BEq Crate := ⟨fun a b => a.toJson == b.toJson⟩

/-- The identifiers of the items that two crates both describe in full, but not in the same way. -/
def differingItems (a b : Crate) : List ItemId :=
  a.index.toList.filterMap fun (id, item) =>
    match b.index[id]? with
    | some other => if item == other then none else some id
    | none => none

end Crate

def ItemSummary.read (v : Json) : Reading ItemSummary := do
  let r ← v.asRecord
  return {
    crateId := ← r.uint32 "crate_id"
    path := ⟨← r.strings "path"⟩
    kind := ← r.field "kind" (Json.asVariant .itemKind ItemKind.ofName? ·) }

def ItemSummary.readEntry (key : String) (v : Json) : Reading (ItemId × ItemSummary) := do
  return (⟨key⟩, ← ItemSummary.read v)

def ExternalCrate.read (v : Json) : Reading ExternalCrate := do
  let r ← v.asRecord
  return {
    name := ← r.string "name"
    htmlRootUrl := ← r.string? "html_root_url" }

/-- One entry of a table of external crates. Its key is a number, which may be written in several
ways. -/
def ExternalCrate.readEntry (key : String) (v : Json) : Reading (UInt32 × ExternalCrate) := do
  match Unsigned.ofText? UInt32.size key with
  | some number => return (.ofNat number, ← ExternalCrate.read v)
  | none => .error ⟨[], .nonNumericKey⟩

end CrateDocs
