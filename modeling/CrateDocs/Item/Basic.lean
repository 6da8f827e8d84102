import CrateDocs.Item.Payload
import CrateDocs.Table

/-!
# Items

An item is one declared entity: its payload together with what every item has.
-/

namespace CrateDocs

/-- From where an item can be used. -/
inductive Visibility
  /-- From everywhere: `pub`. -/
  | exported
  /-- As the item that encloses it, or not at all from outside. -/
  | inherited
  /-- From its own crate: `pub(crate)`. -/
  | crate
  /-- From the module `parent`, which is written as `path`: `pub(in path)`. -/
  | restricted (parent : ItemId) (path : String)
deriving DecidableEq

/-- The module that a visibility refers to, if there is one. -/
def Visibility.parent? : Visibility → Option ItemId
  | .restricted parent _ => some parent
  | .exported | .inherited | .crate => none

structure Position where
  line : UInt64
  column : UInt64
deriving DecidableEq

/-- A stretch of a source file, from its first to its last character. -/
structure Span where
  filename : String
  first : Position
  last : Position
deriving DecidableEq

/-- Since when and why an item should not be used. -/
structure Deprecation where
  since : Option String
  note : Option String
deriving DecidableEq

/-- One declared entity. -/
structure Item where
  id : ItemId
  crateId : UInt32
  /-- Absent for implementations and other items without a name. -/
  name : Option String
  span : Option Span
  visibility : Visibility
  /-- The documentation as it is written. An empty one differs from none. -/
  docs : Option String
  /-- The items that the links of the documentation stand for, by the text of the link. -/
  links : Table String ItemId
  attrs : List String
  deprecation : Option Deprecation
  payload : Payload

namespace Item

def kind (item : Item) : ItemKind :=
  item.payload.kind

def isPublic (item : Item) : Bool :=
  item.visibility == .exported

def link? (item : Item) (text : String) : Option ItemId :=
  item.links[text]?

end Item

end CrateDocs
