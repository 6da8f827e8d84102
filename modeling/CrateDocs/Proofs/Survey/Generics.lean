import CrateDocs.Proofs.Survey.Pruning

/-!
# Generics are visited once

A survey of a payload calls the hook for generics once if the payload has generics, and otherwise
not at all: nothing that nests in a type expression has generics of its own. The parameters that
were written out are visited in their order, with those of nested binders between them.
-/

namespace CrateDocs

/-- A survey that lists its visits in the order in which it makes them. -/
def Survey.visited : Survey Visit where
  payload := fun payload below => .payload payload :: below
  typeExpr := fun type below => .typeExpr type :: below
  path := fun path below => .path path :: below
  args := fun args below => .args args :: below
  generics := fun generics below => .generics generics :: below
  param := fun param below => .param param :: below
  bound := fun bound below => .bound bound :: below

def Visit.generics? : Visit → Option Generics
  | .generics g => some g
  | .payload _ | .typeExpr _ | .path _ | .args _ | .param _ | .bound _ => none

def Visit.param? : Visit → Option Param
  | .param p => some p
  | .payload _ | .typeExpr _ | .path _ | .args _ | .generics _ | .bound _ => none

/-- The visits that a survey of a payload makes when it prunes nothing. -/
def Payload.visited (payload : Payload) : List Visit :=
  payload.gather Survey.visited

@[simp] theorem Survey.payload_visited (payload : Payload) (below : List Visit) :
    Survey.visited.payload payload below = .payload payload :: below :=
  rfl

@[simp] theorem Survey.id_visited (id : ItemId) : Survey.visited.id id = [] :=
  rfl

@[simp] theorem ItemId.gatherList_visited (ids : List ItemId) :
    ItemId.gatherList Survey.visited ids = [] := by
  simp [gatherList]

/-- Apart from the mentioned identifiers, what is entered is what is visited. -/
theorem VisitTree.filter_preorder_visited (tree : VisitTree) :
    tree.preorder.filter (·.kind ≠ .id) = (tree.gather Survey.visited).map Visit.entry := by
  induction tree with
  | mention id => simp [Survey.visited, TraceEntry.ofId]
  | node visit below ih =>
    have hvisit (visits : List Visit) : Survey.visited.visit visit visits = visit :: visits := by
      cases visit <;> rfl
    rw [preorder_node, List.filter_cons_of_pos (by simp [visit.kind_entry_ne_id]), gather_node,
      hvisit, List.map_cons, List.map_flatMap, List.filter_flatMap, List.flatMap_congr ih]

theorem Payload.map_entry_visited (payload : Payload) :
    payload.visited.map Visit.entry = (payload.trace fun _ => false).filter (·.kind ≠ .id) := by
  obtain ⟨below, htree⟩ := payload.exists_gather_visits
  have hvisited := payload.flatMap_gather_visits Survey.visited
  rw [htree, List.flatMap_singleton] at hvisited
  rw [trace_eq_preorder htree, VisitTree.prune_none, VisitTree.filter_preorder_visited, hvisited,
    visited]

namespace Category

theorem hook_visited (category : Category) (a : category.Value) (below : List Visit) :
    Survey.visited.hook category a below = Survey.visited.hook category a [] ++ below := by
  cases category <;> rfl

theorem own_visited (category : Category) (a : category.Value) :
    Survey.visited.own category a = [] := by
  cases category <;> rfl

/-- No visit in a value of any category is one of generics, however deeply binders are nested. -/
theorem filterMap_generics?_gather (category : Category) (a : category.Value) :
    (category.gather Survey.visited a).filterMap Visit.generics? = [] := by
  induction category, a using Category.induction with
  | step category a ih =>
    have hnone : (Survey.visited.hook category a []).filterMap Visit.generics? = [] := by
      cases category <;> rfl
    rw [gather_eq, own_visited, hook_visited, List.nil_append, List.filterMap_append, hnone,
      List.nil_append, List.filterMap_flatMap, List.flatMap_eq_nil_iff]
    exact ih

end Category

@[simp] theorem TypeExpr.filterMap_generics?_gather (type : TypeExpr) :
    (type.gather Survey.visited).filterMap Visit.generics? = [] :=
  Category.filterMap_generics?_gather .typeExpr type

@[simp] theorem Term.filterMap_generics?_gather (term : Term) :
    (term.gather Survey.visited).filterMap Visit.generics? = [] :=
  Category.filterMap_generics?_gather .term term

@[simp] theorem FnDecl.filterMap_generics?_gather (decl : FnDecl) :
    (decl.gather Survey.visited).filterMap Visit.generics? = [] :=
  Category.filterMap_generics?_gather .fnDecl decl

@[simp] theorem Param.filterMap_generics?_gather (param : Param) :
    (param.gather Survey.visited).filterMap Visit.generics? = [] :=
  Category.filterMap_generics?_gather .param param

@[simp] theorem Bound.filterMap_generics?_gather (bound : Bound) :
    (bound.gather Survey.visited).filterMap Visit.generics? = [] :=
  Category.filterMap_generics?_gather .bound bound

@[simp] theorem WherePredicate.filterMap_generics?_gather (predicate : WherePredicate) :
    (predicate.gather Survey.visited).filterMap Visit.generics? = [] := by
  cases predicate <;> simp [gather, List.filterMap_flatMap]

namespace Generics

variable (generics : Generics)

theorem gather_visited :
    generics.gather Survey.visited =
      .generics generics :: (generics.params.flatMap (Param.gather Survey.visited) ++
        generics.predicates.flatMap (WherePredicate.gather Survey.visited)) := by
  rw [gather, Param.gatherList_eq_flatMap]
  rfl

@[simp] theorem filterMap_generics?_gather :
    (generics.gather Survey.visited).filterMap Visit.generics? = [generics] := by
  rw [gather_visited]
  simp [Visit.generics?, List.filterMap_flatMap]

/-- A parameter is visited before what is nested in it. -/
theorem params_sublist_filterMap :
    generics.params.Sublist ((generics.gather Survey.visited).filterMap Visit.param?) := by
  have hparam (param : Param) :
      [param].Sublist ((param.gather Survey.visited).filterMap Visit.param?) := by
    cases param
    rw [Param.gather]
    exact (List.nil_sublist _).cons_cons _
  have hparams := List.Sublist.flatMap_right generics.params fun param _ => hparam param
  rw [List.flatMap_singleton', ← List.filterMap_flatMap] at hparams
  rw [gather_visited, List.filterMap_cons_none rfl, List.filterMap_append]
  exact hparams.trans (List.sublist_append_left _ _)

theorem explicitParams_sublist_filterMap :
    generics.explicitParams.Sublist
      ((generics.gather Survey.visited).filterMap Visit.param?) :=
  (List.filter_sublist).trans generics.params_sublist_filterMap

end Generics

namespace Payload

variable (payload : Payload)

theorem filterMap_generics?_visited :
    payload.visited.filterMap Visit.generics? = payload.generics?.toList := by
  unfold visited gather
  rw [Survey.payload_visited, List.filterMap_cons_none rfl]
  cases payload <;> simp [generics?, Signature.gather, List.filterMap_flatMap]

/-- The visits made in the generics of a payload are among those made in the payload. -/
theorem gather_sublist_visited {generics : Generics} (h : payload.generics? = some generics) :
    (generics.gather Survey.visited).Sublist payload.visited := by
  unfold visited gather
  rw [Survey.payload_visited]
  cases payload <;> cases h <;> grind [Signature.gather]

/-- A survey that prunes nothing visits the generics of a payload once, and no others. The
parameters that were written out are visited in their order. -/
theorem visited_agrees :
    payload.visited.map Visit.entry = (payload.trace fun _ => false).filter (·.kind ≠ .id) ∧
      payload.visited.filterMap Visit.generics? = payload.generics?.toList ∧
      ∀ generics, payload.generics? = some generics →
        generics.explicitParams.Sublist (payload.visited.filterMap Visit.param?) := by
  refine ⟨payload.map_entry_visited, payload.filterMap_generics?_visited, fun generics h => ?_⟩
  exact generics.explicitParams_sublist_filterMap.trans
    ((payload.gather_sublist_visited h).filterMap _)

/-- A function whose argument is a pointer to a function with a lifetime of its own. A parameter
that was not written out stands between the two that were, of which the first has a bound with one
more lifetime. -/
def callbackFunction : Payload :=
  let lifetime (name : String) : Param := ⟨name, .lifetime []⟩
  let header : Header := ⟨false, false, false, .rust⟩
  .function {
    decl := ⟨[("f", .functionPointer ⟨[], none, false⟩ [lifetime "'a"] header)], none, false⟩
    generics := ⟨[
      ⟨"T", .type [.traitBound .infer [lifetime "'b"] .none] none false⟩,
      ⟨"impl Sized", .type [] none true⟩, ⟨"N", .const .infer none⟩], []⟩
    header }

theorem visited_agrees_callbackFunction :
    ∃ generics, callbackFunction.generics? = some generics ∧
      callbackFunction.visited.filterMap Visit.generics? = [generics] ∧
      generics.explicitParams.map Param.name = ["T", "N"] ∧
      (callbackFunction.visited.filterMap Visit.param?).map Param.name =
        ["'a", "T", "'b", "impl Sized", "N"] ∧
      generics.explicitParams.Sublist (callbackFunction.visited.filterMap Visit.param?) := by
  obtain ⟨-, hgenerics, hparams⟩ := callbackFunction.visited_agrees
  exact ⟨_, rfl, hgenerics, rfl, rfl, hparams _ rfl⟩

end Payload

end CrateDocs
