import CrateDocs.Crate.Format

/-!
# Lookup

What an identifier or a path stands for in a crate. The index is asked first; what it does not
hold may still have a summary.
-/

namespace CrateDocs

/-- What an identifier stands for. -/
inductive Node
  | item (item : Item)
  /-- Only the place and the kind of the item are known. -/
  | summary (id : ItemId) (summary : ItemSummary)

/-- Two nodes are the same when they are of one sort and have the same content. -/
instance : BEq Node where
  beq
    | .item a, .item b => a == b
    | .summary i a, .summary j b => i == j && a == b
    | _, _ => false

namespace Crate

def item? (crate : Crate) (id : ItemId) : Option Item :=
  crate.index[id]?

/-- What an identifier stands for, in full if possible. -/
def lookup? (crate : Crate) (id : ItemId) : Option Node :=
  match crate.item? id with
  | some item => some (.item item)
  | none => crate.paths[id]?.map (.summary id)

def rootItem? (crate : Crate) : Option Item :=
  crate.item? crate.root

/-- The name of a crate is that of its top module. -/
def name? (crate : Crate) : Option String :=
  crate.rootItem?.bind Item.name

def externalCrate? (crate : Crate) (number : UInt32) : Option ExternalCrate :=
  crate.externalCrates[number]?

def pathOf? (crate : Crate) (id : ItemId) : Option ItemPath :=
  crate.paths[id]?.map ItemSummary.path

/-- The smallest identifier with exactly the given path. -/
def idAt? (crate : Crate) (path : ItemPath) : Option ItemId :=
  (crate.paths.toList.find? fun (_, summary) => summary.path == path).map Prod.fst

def lookupPath? (crate : Crate) (path : ItemPath) : Option Node :=
  (crate.idAt? path).bind crate.lookup?

/-- What a link of an item's documentation leads to. -/
def follow? (crate : Crate) (item : Item) (text : String) : Option Node :=
  (item.link? text).bind crate.lookup?

def itemsOfKind (crate : Crate) (kind : ItemKind) : List Item :=
  crate.index.values.filter fun item => item.kind == kind

end Crate

namespace Node

def id : Node → ItemId
  | .item i => i.id
  | .summary id _ => id

def kind : Node → ItemKind
  | .item i => i.kind
  | .summary _ s => s.kind

/-- The name of a node: that of its item, or the last name of its path. -/
def name? : Node → Option String
  | .item i => i.name
  | .summary _ s => s.path.name?

def path? (crate : Crate) : Node → Option ItemPath
  | .item i => crate.pathOf? i.id
  | .summary _ s => some s.path

def item? : Node → Option Item
  | .item i => some i
  | .summary _ _ => none

end Node

end CrateDocs
