import CrateDocs.Proofs.TypeExpr.Parts
import CrateDocs.Survey.Basic

/-!
# Surveys part by part

What a survey gathers from a value is settled by the hook for the value and by what it gathers from
the immediate parts, one after the other.
-/

namespace CrateDocs

variable {α : Type} (s : Survey α)

@[simp] theorem TypeExpr.gatherList_eq_flatMap (types : List TypeExpr) :
    TypeExpr.gatherList s types = types.flatMap (TypeExpr.gather s) := by
  induction types with
  | nil => rfl
  | cons type types ih => rw [TypeExpr.gatherList, ih, List.flatMap_cons]

@[simp] theorem TypeExpr.gather?_eq_flatMap (type : Option TypeExpr) :
    TypeExpr.gather? s type = type.toList.flatMap (TypeExpr.gather s) := by
  cases type <;> simp [TypeExpr.gather?]

@[simp] theorem Path.gather?_eq_flatMap (path : Option Path) :
    Path.gather? s path = path.toList.flatMap (Path.gather s) := by
  cases path <;> simp [Path.gather?]

@[simp] theorem GenericArgs.gather?_eq_flatMap (args : Option GenericArgs) :
    GenericArgs.gather? s args = args.toList.flatMap (GenericArgs.gather s) := by
  cases args <;> simp [GenericArgs.gather?]

@[simp] theorem GenericArg.gatherList_eq_flatMap (args : List GenericArg) :
    GenericArg.gatherList s args = args.flatMap (GenericArg.gather s) := by
  induction args with
  | nil => rfl
  | cons arg args ih => rw [GenericArg.gatherList, ih, List.flatMap_cons]

@[simp] theorem FnDecl.gatherInputs_eq_flatMap (inputs : List (String × TypeExpr)) :
    FnDecl.gatherInputs s inputs = inputs.flatMap fun input => input.2.gather s := by
  induction inputs with
  | nil => rfl
  | cons input inputs ih => rw [FnDecl.gatherInputs, ih, List.flatMap_cons]

@[simp] theorem Param.gatherList_eq_flatMap (params : List Param) :
    Param.gatherList s params = params.flatMap (Param.gather s) := by
  induction params with
  | nil => rfl
  | cons param params ih => rw [Param.gatherList, ih, List.flatMap_cons]

@[simp] theorem Bound.gatherList_eq_flatMap (bounds : List Bound) :
    Bound.gatherList s bounds = bounds.flatMap (Bound.gather s) := by
  induction bounds with
  | nil => rfl
  | cons bound bounds ih => rw [Bound.gatherList, ih, List.flatMap_cons]

@[simp] theorem PolyTrait.gatherList_eq_flatMap (traits : List PolyTrait) :
    PolyTrait.gatherList s traits =
      traits.flatMap fun trait => trait.trait.gather s ++ Param.gatherList s trait.params := by
  induction traits with
  | nil => rfl
  | cons trait traits ih =>
    obtain ⟨trait, params⟩ := trait
    rw [PolyTrait.gatherList, ih, List.flatMap_cons]

@[simp] theorem Binding.gatherList_eq_flatMap (bindings : List Binding) :
    Binding.gatherList s bindings =
      bindings.flatMap fun binding => binding.args.gather s ++ binding.kind.gather s := by
  induction bindings with
  | nil => rfl
  | cons binding bindings ih =>
    obtain ⟨name, args, kind⟩ := binding
    rw [Binding.gatherList, ih, List.flatMap_cons]

@[simp] theorem Constant.gather_eq (constant : Constant) :
    constant.gather s = constant.type.gather s := by
  cases constant
  rw [Constant.gather]

/-- What a survey gathers from a value of any category. -/
def Category.gather : (category : Category) → category.Value → List α
  | .typeExpr => TypeExpr.gather s
  | .path => Path.gather s
  | .polyTrait => fun x => x.trait.gather s ++ Param.gatherList s x.params
  | .genericArgs => GenericArgs.gather s
  | .genericArg => GenericArg.gather s
  | .binding => fun x => x.args.gather s ++ x.kind.gather s
  | .bindingKind => BindingKind.gather s
  | .term => Term.gather s
  | .fnDecl => FnDecl.gather s
  | .param => Param.gather s
  | .paramKind => ParamKind.gather s
  | .bound => Bound.gather s

/-- The hook that is called for a value of a category. -/
def Survey.hook : (category : Category) → category.Value → List α → List α
  | .typeExpr => s.typeExpr
  | .path => s.path
  | .genericArgs => s.args
  | .param => s.param
  | .bound => s.bound
  | .polyTrait | .genericArg | .binding | .bindingKind | .term | .fnDecl | .paramKind =>
    fun _ below => below

/-- What is gathered from a value besides its parts: a path has an identifier. -/
def Survey.own : (category : Category) → category.Value → List α
  | .path, (x : Path) => s.id x.id
  | .typeExpr, _ | .polyTrait, _ | .genericArgs, _ | .genericArg, _ | .binding, _ | .bindingKind, _
  | .term, _ | .fnDecl, _ | .param, _ | .paramKind, _ | .bound, _ => []

/-- A value is surveyed part by part. -/
theorem Category.gather_eq (category : Category) (a : category.Value) :
    category.gather s a =
      s.hook category a
        (s.own category a ++ (category.parts a).flatMap fun part => part.1.gather s part.2) := by
  cases category <;> cases a
  all_goals
    simp [gather, Survey.hook, Survey.own, parts, List.flatMap_map, TypeExpr.gather, Path.gather,
      GenericArgs.gather, GenericArg.gather, BindingKind.gather, Term.gather, FnDecl.gather,
      Param.gather, ParamKind.gather, Bound.gather]

end CrateDocs
