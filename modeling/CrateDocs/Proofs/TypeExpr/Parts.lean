import CrateDocs.TypeExpr.Reading
import Mathlib.Data.List.Basic

/-!
# Parts of type expressions

The values of the syntactic categories are trees: each of them has a list of immediate parts, which
are again values of some category. What holds of a value whenever it holds of its parts holds of
all values.
-/

namespace CrateDocs

/-- A value of any category. -/
abbrev Fragment : Type :=
  Σ category : Category, category.Value

/-- Values of one category, as fragments. -/
abbrev Fragment.ofList (category : Category) (as : List category.Value) : List Fragment :=
  as.map (Sigma.mk category)

namespace Category

/-- The immediate parts of a value, in the order of their declaration. -/
def parts : (category : Category) → category.Value → List Fragment
  | .typeExpr, (x : TypeExpr) =>
    match x with
    | .resolvedPath p => [⟨.path, p⟩]
    | .dynTrait traits _ => Fragment.ofList .polyTrait traits
    | .functionPointer decl params _ => ⟨.fnDecl, decl⟩ :: Fragment.ofList .param params
    | .tuple types => Fragment.ofList .typeExpr types
    | .implTrait bounds => Fragment.ofList .bound bounds
    | .slice type | .array type _ | .rawPointer _ type | .borrowedRef _ _ type =>
      [⟨.typeExpr, type⟩]
    | .qualifiedPath _ args selfType trait =>
      ⟨.genericArgs, args⟩ :: ⟨.typeExpr, selfType⟩ :: Fragment.ofList .path trait.toList
    | .generic _ | .primitive _ | .infer => []
  | .path, (x : Path) => Fragment.ofList .genericArgs x.args.toList
  | .polyTrait, (x : PolyTrait) => ⟨.path, x.trait⟩ :: Fragment.ofList .param x.params
  | .genericArgs, (x : GenericArgs) =>
    match x with
    | .angleBracketed args bindings =>
      Fragment.ofList .genericArg args ++ Fragment.ofList .binding bindings
    | .parenthesized inputs output =>
      Fragment.ofList .typeExpr inputs ++ Fragment.ofList .typeExpr output.toList
  | .genericArg, (x : GenericArg) =>
    match x with
    | .type type => [⟨.typeExpr, type⟩]
    | .const constant => [⟨.typeExpr, constant.type⟩]
    | .lifetime _ | .infer => []
  | .binding, (x : Binding) => [⟨.genericArgs, x.args⟩, ⟨.bindingKind, x.kind⟩]
  | .bindingKind, (x : BindingKind) =>
    match x with
    | .equality rhs => [⟨.term, rhs⟩]
    | .constraint bounds => Fragment.ofList .bound bounds
  | .term, (x : Term) =>
    match x with
    | .type type => [⟨.typeExpr, type⟩]
    | .constant constant => [⟨.typeExpr, constant.type⟩]
  | .fnDecl, (x : FnDecl) =>
    x.inputs.map (fun input => ⟨.typeExpr, input.2⟩) ++
      Fragment.ofList .typeExpr x.output.toList
  | .param, (x : Param) => [⟨.paramKind, x.kind⟩]
  | .paramKind, (x : ParamKind) =>
    match x with
    | .lifetime _ => []
    | .type bounds default _ =>
      Fragment.ofList .bound bounds ++ Fragment.ofList .typeExpr default.toList
    | .const type _ => [⟨.typeExpr, type⟩]
  | .bound, (x : Bound) =>
    match x with
    | .traitBound trait params _ => ⟨.typeExpr, trait⟩ :: Fragment.ofList .param params
    | .outlives _ => []

/-- The size of a value. -/
noncomputable def size : (category : Category) → category.Value → Nat
  | .typeExpr, (x : TypeExpr) => sizeOf x
  | .path, (x : Path) => sizeOf x
  | .polyTrait, (x : PolyTrait) => sizeOf x
  | .genericArgs, (x : GenericArgs) => sizeOf x
  | .genericArg, (x : GenericArg) => sizeOf x
  | .binding, (x : Binding) => sizeOf x
  | .bindingKind, (x : BindingKind) => sizeOf x
  | .term, (x : Term) => sizeOf x
  | .fnDecl, (x : FnDecl) => sizeOf x
  | .param, (x : Param) => sizeOf x
  | .paramKind, (x : ParamKind) => sizeOf x
  | .bound, (x : Bound) => sizeOf x

theorem sizeOf_lt_of_mem_of_le {α : Type} [SizeOf α] {as : List α} {n : Nat}
    (h : sizeOf as ≤ n) : ∀ a ∈ as, sizeOf a < n :=
  fun _ ha => Nat.lt_of_lt_of_le (List.sizeOf_lt_of_mem ha) h

theorem sizeOf_snd_lt_of_mem_of_le {α β : Type} [SizeOf α] [SizeOf β] {as : List (α × β)} {n : Nat}
    (h : sizeOf as ≤ n) : ∀ a ∈ as, sizeOf a.2 < n := by
  intro a ha
  have hlt := List.sizeOf_lt_of_mem ha
  have hpair : sizeOf a = 1 + sizeOf a.1 + sizeOf a.2 := rfl
  omega

theorem sizeOf_lt_of_eq_some_of_le {α : Type} [SizeOf α] {o : Option α} {n : Nat}
    (h : sizeOf o ≤ n) : ∀ a, o = some a → sizeOf a < n := by
  rintro a rfl
  rw [Option.some.sizeOf_spec] at h
  omega

theorem sizeOf_type_lt (constant : Constant) : sizeOf constant.type < sizeOf constant := by
  cases constant
  rw [Constant.mk.sizeOf_spec]
  dsimp only
  omega

theorem size_lt_of_mem_parts (category : Category) (a : category.Value) :
    ∀ part ∈ category.parts a, part.1.size part.2 < category.size a := by
  cases category <;> cases a
  all_goals
    simp only [parts, size, List.forall_mem_cons, List.forall_mem_append, List.forall_mem_map,
      Option.mem_toList]
    and_intros
  -- A part stands in the value itself, in a list, among the inputs, in an option or in a constant.
  all_goals
    first
      | exact List.forall_mem_nil _
      | exact sizeOf_lt_of_mem_of_le (by simp <;> omega)
      | exact sizeOf_snd_lt_of_mem_of_le (by simp <;> omega)
      | exact sizeOf_lt_of_eq_some_of_le (by simp <;> omega)
      | exact Nat.lt_trans (sizeOf_type_lt _) (by simp)
      | simp <;> omega

/-- What holds of each value of which it holds for the parts holds of all values. -/
theorem induction {motive : (category : Category) → category.Value → Prop}
    (step : ∀ (category : Category) (a : category.Value),
      (∀ part ∈ category.parts a, motive part.1 part.2) → motive category a)
    (category : Category) (a : category.Value) : motive category a :=
  step category a fun part _ => induction step part.1 part.2
termination_by category.size a
decreasing_by exact size_lt_of_mem_parts category a part ‹_›

end Category

end CrateDocs
