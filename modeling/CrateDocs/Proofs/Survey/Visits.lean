import CrateDocs.Proofs.Survey.Parts

/-!
# The tree of visits

The visits that a survey makes form an ordered tree. The tree depends on the payload alone, and
every survey of the payload is a fold over it: what a survey does not look into was met all the
same, and nothing is met that is not in the tree.
-/

namespace CrateDocs

/-- A node for which a survey calls a hook, unless it is the mention of an identifier. -/
inductive Visit
  | payload (payload : Payload)
  | typeExpr (type : TypeExpr)
  | path (path : Path)
  | args (args : GenericArgs)
  | generics (generics : Generics)
  | param (param : Param)
  | bound (bound : Bound)

/-- The visits that are made at a node and below it, in their order. Nothing lies below the mention
of an identifier. -/
inductive VisitTree
  | mention (id : ItemId)
  | node (visit : Visit) (below : List VisitTree)

variable {α : Type} (s : Survey α)

/-- What a survey gathers at a visit, with what was gathered below it. -/
def Survey.visit : Visit → List α → List α
  | .payload payload => s.payload payload
  | .typeExpr type => s.typeExpr type
  | .path path => s.path path
  | .args args => s.args args
  | .generics generics => s.generics generics
  | .param param => s.param param
  | .bound bound => s.bound bound

/-- A survey that puts together the tree of its visits. -/
def Survey.visits : Survey VisitTree where
  payload := fun payload below => [.node (.payload payload) below]
  id := fun id => [.mention id]
  typeExpr := fun type below => [.node (.typeExpr type) below]
  path := fun path below => [.node (.path path) below]
  args := fun args below => [.node (.args args) below]
  generics := fun generics below => [.node (.generics generics) below]
  param := fun param below => [.node (.param param) below]
  bound := fun bound below => [.node (.bound bound) below]

namespace VisitTree

/-- What holds of a tree whenever it holds of all trees right below its root holds of all trees. -/
@[induction_eliminator]
theorem induction {motive : VisitTree → Prop} (mention : ∀ id, motive (.mention id))
    (node : ∀ visit below, (∀ tree ∈ below, motive tree) → motive (.node visit below))
    (tree : VisitTree) : motive tree :=
  match tree with
  | .mention id => mention id
  | .node visit below => node visit below fun tree _ => induction mention node tree

mutual

/-- What a survey gathers along a tree of visits. -/
def gather (s : Survey α) : VisitTree → List α
  | .mention id => s.id id
  | .node visit below => s.visit visit (gatherList s below)

def gatherList (s : Survey α) : List VisitTree → List α
  | [] => []
  | tree :: trees => tree.gather s ++ gatherList s trees

end

@[simp] theorem gather_mention (id : ItemId) : (mention id).gather s = s.id id := by
  rw [gather]

@[simp] theorem gatherList_eq_flatMap (trees : List VisitTree) :
    gatherList s trees = trees.flatMap (gather s) := by
  induction trees with
  | nil => rfl
  | cons tree trees ih => rw [gatherList, ih, List.flatMap_cons]

@[simp] theorem gather_node (visit : Visit) (below : List VisitTree) :
    (node visit below).gather s = s.visit visit (below.flatMap (gather s)) := by
  rw [gather, gatherList_eq_flatMap]

end VisitTree

theorem Survey.hook_visits (category : Category) (a : category.Value) (below : List VisitTree) :
    (Survey.visits.hook category a below).flatMap (VisitTree.gather s) =
      s.hook category a (below.flatMap (VisitTree.gather s)) := by
  cases category <;> simp [Survey.hook, Survey.visits, Survey.visit]

theorem Survey.own_visits (category : Category) (a : category.Value) :
    (Survey.visits.own category a).flatMap (VisitTree.gather s) = s.own category a := by
  cases category <;> simp [Survey.own, Survey.visits]

/-- A survey of a value of any category is a fold over the visits made there. -/
theorem Category.flatMap_gather_visits (category : Category) (a : category.Value) :
    (category.gather Survey.visits a).flatMap (VisitTree.gather s) = category.gather s a := by
  induction category, a using Category.induction with
  | step category a ih =>
    rw [gather_eq, gather_eq s, Survey.hook_visits, List.flatMap_append, Survey.own_visits,
      List.flatMap_assoc]
    congr 2
    exact List.flatMap_congr ih

@[simp] theorem TypeExpr.flatMap_gather_visits (type : TypeExpr) :
    (type.gather Survey.visits).flatMap (VisitTree.gather s) = type.gather s :=
  Category.flatMap_gather_visits s .typeExpr type

@[simp] theorem Term.flatMap_gather_visits (term : Term) :
    (term.gather Survey.visits).flatMap (VisitTree.gather s) = term.gather s :=
  Category.flatMap_gather_visits s .term term

@[simp] theorem FnDecl.flatMap_gather_visits (decl : FnDecl) :
    (decl.gather Survey.visits).flatMap (VisitTree.gather s) = decl.gather s :=
  Category.flatMap_gather_visits s .fnDecl decl

@[simp] theorem Param.flatMap_gather_visits (param : Param) :
    (param.gather Survey.visits).flatMap (VisitTree.gather s) = param.gather s :=
  Category.flatMap_gather_visits s .param param

@[simp] theorem Bound.flatMap_gather_visits (bound : Bound) :
    (bound.gather Survey.visits).flatMap (VisitTree.gather s) = bound.gather s :=
  Category.flatMap_gather_visits s .bound bound

@[simp] theorem ItemId.flatMap_gatherList_visits (ids : List ItemId) :
    (ItemId.gatherList Survey.visits ids).flatMap (VisitTree.gather s) =
      ItemId.gatherList s ids := by
  simp [gatherList, List.flatMap_assoc, Survey.visits]

@[simp] theorem WherePredicate.flatMap_gather_visits (predicate : WherePredicate) :
    (predicate.gather Survey.visits).flatMap (VisitTree.gather s) = predicate.gather s := by
  cases predicate <;> simp [gather, List.flatMap_assoc]

@[simp] theorem Generics.flatMap_gather_visits (generics : Generics) :
    (generics.gather Survey.visits).flatMap (VisitTree.gather s) = generics.gather s := by
  have hhook (below : List VisitTree) :
      Survey.visits.generics generics below = [.node (.generics generics) below] := rfl
  simp [gather, hhook, Survey.visit, List.flatMap_assoc]

@[simp] theorem Signature.flatMap_gather_visits (signature : Signature) :
    (signature.gather Survey.visits).flatMap (VisitTree.gather s) = signature.gather s := by
  simp [gather]

namespace Payload

/-- The survey of a payload is one visit, with others below it. -/
theorem exists_gather_visits (payload : Payload) :
    ∃ below, payload.gather Survey.visits = [.node (.payload payload) below] :=
  ⟨_, rfl⟩

/-- A survey of a payload is a fold over the visits made there. -/
theorem flatMap_gather_visits (payload : Payload) :
    (payload.gather Survey.visits).flatMap (VisitTree.gather s) = payload.gather s := by
  have hhook (below : List VisitTree) :
      Survey.visits.payload payload below = [.node (.payload payload) below] := rfl
  have hid (id : ItemId) : Survey.visits.id id = [.mention id] := rfl
  unfold gather
  rw [hhook, List.flatMap_singleton, VisitTree.gather_node, Survey.visit]
  congr 1
  cases payload <;> simp [hid, List.flatMap_assoc]

end Payload

end CrateDocs
