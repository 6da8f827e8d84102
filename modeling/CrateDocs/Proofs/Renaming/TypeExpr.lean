import CrateDocs.Proofs.Survey.Mentions

/-!
# Type expressions with other identifiers

The only identifiers in a type expression are those of its paths. What is mentioned after each of
them is replaced by another one is what was mentioned before, replaced in the same way.
-/

namespace CrateDocs

mutual

/-- The same type expression with each identifier replaced. -/
def TypeExpr.mapIds (f : ItemId → ItemId) : TypeExpr → TypeExpr
  | .resolvedPath path => .resolvedPath (path.mapIds f)
  | .dynTrait traits lifetime => .dynTrait (PolyTrait.listMapIds f traits) lifetime
  | .generic name => .generic name
  | .primitive name => .primitive name
  | .functionPointer decl params header =>
    .functionPointer (decl.mapIds f) (Param.listMapIds f params) header
  | .tuple types => .tuple (TypeExpr.listMapIds f types)
  | .slice type => .slice (type.mapIds f)
  | .array type length => .array (type.mapIds f) length
  | .implTrait bounds => .implTrait (Bound.listMapIds f bounds)
  | .infer => .infer
  | .rawPointer isMutable type => .rawPointer isMutable (type.mapIds f)
  | .borrowedRef lifetime isMutable type => .borrowedRef lifetime isMutable (type.mapIds f)
  | .qualifiedPath name args selfType trait =>
    .qualifiedPath name (args.mapIds f) (selfType.mapIds f) (Path.mapIds? f trait)

def TypeExpr.listMapIds (f : ItemId → ItemId) : List TypeExpr → List TypeExpr
  | [] => []
  | type :: types => type.mapIds f :: TypeExpr.listMapIds f types

def TypeExpr.mapIds? (f : ItemId → ItemId) : Option TypeExpr → Option TypeExpr
  | none => none
  | some type => some (type.mapIds f)

def Path.mapIds (f : ItemId → ItemId) : Path → Path
  | ⟨name, id, args⟩ => ⟨name, f id, GenericArgs.mapIds? f args⟩

def Path.mapIds? (f : ItemId → ItemId) : Option Path → Option Path
  | none => none
  | some path => some (path.mapIds f)

def PolyTrait.mapIds (f : ItemId → ItemId) : PolyTrait → PolyTrait
  | ⟨trait, params⟩ => ⟨trait.mapIds f, Param.listMapIds f params⟩

def PolyTrait.listMapIds (f : ItemId → ItemId) : List PolyTrait → List PolyTrait
  | [] => []
  | trait :: traits => trait.mapIds f :: PolyTrait.listMapIds f traits

def GenericArgs.mapIds (f : ItemId → ItemId) : GenericArgs → GenericArgs
  | .angleBracketed args bindings =>
    .angleBracketed (GenericArg.listMapIds f args) (Binding.listMapIds f bindings)
  | .parenthesized inputs output =>
    .parenthesized (TypeExpr.listMapIds f inputs) (TypeExpr.mapIds? f output)

def GenericArgs.mapIds? (f : ItemId → ItemId) : Option GenericArgs → Option GenericArgs
  | none => none
  | some args => some (args.mapIds f)

def GenericArg.mapIds (f : ItemId → ItemId) : GenericArg → GenericArg
  | .lifetime name => .lifetime name
  | .type type => .type (type.mapIds f)
  | .const constant => .const (constant.mapIds f)
  | .infer => .infer

def GenericArg.listMapIds (f : ItemId → ItemId) : List GenericArg → List GenericArg
  | [] => []
  | arg :: args => arg.mapIds f :: GenericArg.listMapIds f args

def Constant.mapIds (f : ItemId → ItemId) : Constant → Constant
  | ⟨type, expr, value, isLiteral⟩ => ⟨type.mapIds f, expr, value, isLiteral⟩

def Binding.mapIds (f : ItemId → ItemId) : Binding → Binding
  | ⟨name, args, kind⟩ => ⟨name, args.mapIds f, kind.mapIds f⟩

def Binding.listMapIds (f : ItemId → ItemId) : List Binding → List Binding
  | [] => []
  | binding :: bindings => binding.mapIds f :: Binding.listMapIds f bindings

def BindingKind.mapIds (f : ItemId → ItemId) : BindingKind → BindingKind
  | .equality term => .equality (term.mapIds f)
  | .constraint bounds => .constraint (Bound.listMapIds f bounds)

def Term.mapIds (f : ItemId → ItemId) : Term → Term
  | .type type => .type (type.mapIds f)
  | .constant constant => .constant (constant.mapIds f)

def FnDecl.mapIds (f : ItemId → ItemId) : FnDecl → FnDecl
  | ⟨inputs, output, isVariadic⟩ =>
    ⟨FnDecl.inputsMapIds f inputs, TypeExpr.mapIds? f output, isVariadic⟩

def FnDecl.inputsMapIds (f : ItemId → ItemId) :
    List (String × TypeExpr) → List (String × TypeExpr)
  | [] => []
  | (name, type) :: inputs => (name, type.mapIds f) :: FnDecl.inputsMapIds f inputs

def Param.mapIds (f : ItemId → ItemId) : Param → Param
  | ⟨name, kind⟩ => ⟨name, kind.mapIds f⟩

def Param.listMapIds (f : ItemId → ItemId) : List Param → List Param
  | [] => []
  | param :: params => param.mapIds f :: Param.listMapIds f params

def ParamKind.mapIds (f : ItemId → ItemId) : ParamKind → ParamKind
  | .lifetime outlives => .lifetime outlives
  | .type bounds default isSynthetic =>
    .type (Bound.listMapIds f bounds) (TypeExpr.mapIds? f default) isSynthetic
  | .const type default => .const (type.mapIds f) default

def Bound.mapIds (f : ItemId → ItemId) : Bound → Bound
  | .traitBound trait params modifier =>
    .traitBound (trait.mapIds f) (Param.listMapIds f params) modifier
  | .outlives lifetime => .outlives lifetime

def Bound.listMapIds (f : ItemId → ItemId) : List Bound → List Bound
  | [] => []
  | bound :: bounds => bound.mapIds f :: Bound.listMapIds f bounds

end

variable (f : ItemId → ItemId)

@[simp] theorem TypeExpr.listMapIds_eq_map (types : List TypeExpr) :
    TypeExpr.listMapIds f types = types.map (TypeExpr.mapIds f) := by
  induction types with
  | nil => rfl
  | cons type types ih => rw [TypeExpr.listMapIds, ih, List.map_cons]

@[simp] theorem TypeExpr.mapIds?_eq_map (type : Option TypeExpr) :
    TypeExpr.mapIds? f type = type.map (TypeExpr.mapIds f) := by
  cases type <;> rfl

@[simp] theorem Path.mapIds?_eq_map (path : Option Path) :
    Path.mapIds? f path = path.map (Path.mapIds f) := by
  cases path <;> rfl

@[simp] theorem PolyTrait.listMapIds_eq_map (traits : List PolyTrait) :
    PolyTrait.listMapIds f traits = traits.map (PolyTrait.mapIds f) := by
  induction traits with
  | nil => rfl
  | cons trait traits ih => rw [PolyTrait.listMapIds, ih, List.map_cons]

@[simp] theorem GenericArgs.mapIds?_eq_map (args : Option GenericArgs) :
    GenericArgs.mapIds? f args = args.map (GenericArgs.mapIds f) := by
  cases args <;> rfl

@[simp] theorem GenericArg.listMapIds_eq_map (args : List GenericArg) :
    GenericArg.listMapIds f args = args.map (GenericArg.mapIds f) := by
  induction args with
  | nil => rfl
  | cons arg args ih => rw [GenericArg.listMapIds, ih, List.map_cons]

@[simp] theorem Binding.listMapIds_eq_map (bindings : List Binding) :
    Binding.listMapIds f bindings = bindings.map (Binding.mapIds f) := by
  induction bindings with
  | nil => rfl
  | cons binding bindings ih => rw [Binding.listMapIds, ih, List.map_cons]

@[simp] theorem FnDecl.inputsMapIds_eq_map (inputs : List (String × TypeExpr)) :
    FnDecl.inputsMapIds f inputs = inputs.map fun input => (input.1, input.2.mapIds f) := by
  induction inputs with
  | nil => rfl
  | cons input inputs ih => rw [FnDecl.inputsMapIds, ih, List.map_cons]

@[simp] theorem Param.listMapIds_eq_map (params : List Param) :
    Param.listMapIds f params = params.map (Param.mapIds f) := by
  induction params with
  | nil => rfl
  | cons param params ih => rw [Param.listMapIds, ih, List.map_cons]

@[simp] theorem Bound.listMapIds_eq_map (bounds : List Bound) :
    Bound.listMapIds f bounds = bounds.map (Bound.mapIds f) := by
  induction bounds with
  | nil => rfl
  | cons bound bounds ih => rw [Bound.listMapIds, ih, List.map_cons]

/-- A value of any category with each identifier replaced. -/
def Category.mapIds : (category : Category) → category.Value → category.Value
  | .typeExpr => TypeExpr.mapIds f
  | .path => Path.mapIds f
  | .polyTrait => PolyTrait.mapIds f
  | .genericArgs => GenericArgs.mapIds f
  | .genericArg => GenericArg.mapIds f
  | .binding => Binding.mapIds f
  | .bindingKind => BindingKind.mapIds f
  | .term => Term.mapIds f
  | .fnDecl => FnDecl.mapIds f
  | .param => Param.mapIds f
  | .paramKind => ParamKind.mapIds f
  | .bound => Bound.mapIds f

theorem Constant.type_mapIds (constant : Constant) :
    (constant.mapIds f).type = constant.type.mapIds f := by
  cases constant
  rw [Constant.mapIds]

/-- The parts stay where they are. -/
theorem Category.parts_mapIds (category : Category) (a : category.Value) :
    category.parts (category.mapIds f a) =
      (category.parts a).map fun part => ⟨part.1, part.1.mapIds f part.2⟩ := by
  cases category <;> cases a
  all_goals
    simp [parts, mapIds, TypeExpr.mapIds, Path.mapIds, PolyTrait.mapIds, GenericArgs.mapIds,
      GenericArg.mapIds, Binding.mapIds, BindingKind.mapIds, Term.mapIds, FnDecl.mapIds,
      Param.mapIds, ParamKind.mapIds, Bound.mapIds, Constant.type_mapIds, Fragment.ofList,
      Option.toList_map, Function.comp_def]

theorem Category.own_mapIds (category : Category) (a : category.Value) :
    Survey.mentions.own category (category.mapIds f a) =
      (Survey.mentions.own category a).map f := by
  cases category <;> cases a <;> rfl

/-- The identifiers that are mentioned in a value of any category are replaced in their places. -/
theorem Category.mentions_mapIds (category : Category) (a : category.Value) :
    category.gather Survey.mentions (category.mapIds f a) =
      (category.gather Survey.mentions a).map f := by
  induction category, a using Category.induction with
  | step category a ih =>
    rw [gather_eq, gather_eq, Survey.hook_mentions, Survey.hook_mentions, own_mapIds,
      parts_mapIds, List.map_append, List.flatMap_map, List.map_flatMap]
    congr 1
    exact List.flatMap_congr ih

end CrateDocs
