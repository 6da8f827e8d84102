import CrateDocs.Item.Basic
import CrateDocs.Item.Payload.Format

/-!
# The written form of items
-/

namespace CrateDocs

def Visibility.toJson : Visibility → Json
  | .exported => .obj [("tag", .str "Public")]
  | .inherited => .obj [("tag", .str "Default")]
  | .crate => .obj [("tag", .str "Crate")]
  | .restricted parent path =>
    .obj [("tag", .str "Restricted"), ("parent", parent.toJson), ("path", .str path)]

def Json.ofNat (n : Nat) : Json :=
  .num (.integer n)

/-- A position, written as its line and its column. -/
def Position.toJson (position : Position) : Json :=
  .arr [.ofNat position.line.toNat, .ofNat position.column.toNat]

def Span.toJson (span : Span) : Json :=
  .obj [("filename", .str span.filename), ("begin", span.first.toJson), ("end", span.last.toJson)]

def Deprecation.toJson (deprecation : Deprecation) : Json :=
  .obj [("since", .ofString? deprecation.since), ("note", .ofString? deprecation.note)]

def Item.toJson (item : Item) : Json :=
  .obj [("id", item.id.toJson), ("crate_id", .ofNat item.crateId.toNat),
    ("name", .ofString? item.name),
    ("span", match item.span with | none => .null | some span => span.toJson),
    ("visibility", item.visibility.toJson), ("docs", .ofString? item.docs),
    ("links", .obj (item.links.toList.map fun (text, id) => (text, id.toJson))),
    ("attrs", .ofStrings item.attrs),
    ("deprecation", match item.deprecation with | none => .null | some d => d.toJson),
    ("inner", item.payload.toJson)]

/-- Two items are the same when they are written in the same way. -/
instance : BEq Item := ⟨fun a b => a.toJson == b.toJson⟩

def Visibility.read (v : Json) : Reading Visibility := do
  let r ← v.asRecord
  match ← r.tag with
  | "Public" => return .exported
  | "Default" => return .inherited
  | "Crate" => return .crate
  | "Restricted" => return .restricted (← r.id "parent") (← r.string "path")
  | tag => r.unknownTag .visibility tag

def Position.read (v : Json) : Reading Position := do
  let (line, column) ← v.readPair (Json.asUInt64 ·) (Json.asUInt64 ·)
  return ⟨line, column⟩

def Span.read (v : Json) : Reading Span := do
  let r ← v.asRecord
  return {
    filename := ← r.string "filename"
    first := ← r.field "begin" (Position.read ·)
    last := ← r.field "end" (Position.read ·) }

def Deprecation.read (v : Json) : Reading Deprecation := do
  let r ← v.asRecord
  return {
    since := ← r.string? "since"
    note := ← r.string? "note" }

def Item.readLink (text : String) (target : Json) : Reading (String × ItemId) := do
  return (text, ← target.asId)

/-- The item of a given identifier whose other fields stand in a record. -/
def Item.ofRecord {v : Json} (id : ItemId) (r : Record v) : Reading Item := do
  return {
    id
    crateId := ← r.uint32 "crate_id"
    name := ← r.string? "name"
    span := ← r.optional "span" (Span.read ·)
    visibility := ← r.field "visibility" (Visibility.read ·)
    docs := ← r.string? "docs"
    links := .ofEntries (← r.entries "links" fun text target => Item.readLink text target)
    attrs := ← r.strings "attrs"
    deprecation := ← r.optional "deprecation" (Deprecation.read ·)
    payload := ← r.field "inner" (Payload.read ·) }

end CrateDocs
