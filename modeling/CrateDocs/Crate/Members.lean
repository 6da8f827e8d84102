import CrateDocs.Crate.Lookup

/-!
# Members and implementations

The members of a module are met one by one. Of those that the crate does not describe nothing can
be told, so they are passed over. Implementations are blocks of the index.
-/

namespace CrateDocs

/-- The members of a module that are still to come. -/
structure Members where
  remaining : List ItemId

namespace Members

/-- The next member that the crate describes, if any is left, and what is still to come then. -/
def next (crate : Crate) (members : Members) : Option Node × Members :=
  go members.remaining
where
  /-- The first of the identifiers that stands for something, and those after it. -/
  go : List ItemId → Option Node × Members
    | [] => (none, ⟨[]⟩)
    | id :: rest =>
      match crate.lookup? id with
      | some node => (some node, ⟨rest⟩)
      | none => go rest

def sizeHint (members : Members) : Nat × Nat :=
  (0, members.remaining.length)

def nodes (crate : Crate) (members : Members) : List Node :=
  members.remaining.filterMap crate.lookup?

end Members

namespace Item

/-- The members of a module. Other items have none. -/
def members (item : Item) : Members :=
  match item.payload with
  | .module m => ⟨m.items⟩
  | _ => ⟨[]⟩

/-- The identifiers of the blocks that implement a trait, or are written for a type. -/
def implIds (item : Item) : List ItemId :=
  match item.payload with
  | .trait t => t.implementations
  | .struct s => s.impls
  | .enum e => e.impls
  | .union u => u.impls
  | _ => []

end Item

namespace Crate

def children (crate : Crate) (item : Item) : List Node :=
  item.members.nodes crate

def implementations (crate : Crate) (item : Item) : List Item :=
  item.implIds.filterMap crate.item?

/-- The implementations whose trait satisfies a condition. -/
def implementationsWhere (crate : Crate) (item : Item) (keep : Option TypeExpr → Bool) :
    List Item :=
  (crate.implementations item).filter fun block =>
    match block.payload with
    | .impl i => keep i.trait
    | _ => false

/-- The implementations that belong to no trait. -/
def inherentImpls (crate : Crate) (item : Item) : List Item :=
  crate.implementationsWhere item Option.isNone

def traitImpls (crate : Crate) (item : Item) : List Item :=
  crate.implementationsWhere item Option.isSome

end Crate

end CrateDocs
