import CrateDocs.Item.Basic
import CrateDocs.ItemPath

/-!
# Crates

A crate is a graph of items. `index` holds the items that are described in full, and `paths` says
for these and others where they live and what they are.
-/

namespace CrateDocs

/-- Where an item lives and what it is. -/
structure ItemSummary where
  /-- The number of the crate that the item belongs to. -/
  crateId : UInt32
  path : ItemPath
  kind : ItemKind
deriving DecidableEq

structure ExternalCrate where
  name : String
  htmlRootUrl : Option String
deriving DecidableEq

structure Crate where
  root : ItemId
  version : Option String
  includesPrivate : Bool
  index : Table ItemId Item
  paths : Table ItemId ItemSummary
  externalCrates : Table UInt32 ExternalCrate
  formatVersion : UInt32

/-- The one version of the format that is understood. -/
def Crate.supportedVersion : UInt32 := 17

/-- Whether an item is described, in full or in short. -/
def Crate.describes (crate : Crate) (id : ItemId) : Bool :=
  crate.index.contains id || crate.paths.contains id

end CrateDocs
