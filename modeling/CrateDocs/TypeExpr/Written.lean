import CrateDocs.TypeExpr.Basic

/-!
# The written form of type expressions

Every value becomes a record whose fields stand in the order of their declaration; where there are
variants, the tag comes first. An absent value is written as null. A path or a constant that is the
whole content of a variant shares the record of that variant.
-/

namespace CrateDocs

def Json.ofString? : Option String → Json
  | none => .null
  | some s => .str s

def Json.ofStrings (strings : List String) : Json :=
  .arr (strings.map .str)

def ItemId.toJson (id : ItemId) : Json :=
  .str id.text

def Json.ofIds (ids : List ItemId) : Json :=
  .arr (ids.map ItemId.toJson)

def Modifier.toJson (modifier : Modifier) : Json :=
  .str modifier.name

mutual

/-- The record of a type expression. -/
def TypeExpr.toJson : TypeExpr → Json
  | .resolvedPath path => .obj (("tag", .str "ResolvedPath") :: path.members)
  | .dynTrait traits lifetime =>
    .obj [("tag", .str "DynTrait"), ("traits", .arr (PolyTrait.listToJson traits)),
      ("lifetime", .ofString? lifetime)]
  | .generic name => .obj [("tag", .str "Generic"), ("name", .str name)]
  | .primitive name => .obj [("tag", .str "Primitive"), ("name", .str name)]
  | .functionPointer decl params header =>
    .obj [("tag", .str "FunctionPointer"), ("decl", decl.toJson),
      ("generic_params", .arr (Param.listToJson params)), ("header", header.toJson)]
  | .tuple types => .obj [("tag", .str "Tuple"), ("types", .arr (TypeExpr.listToJson types))]
  | .slice type => .obj [("tag", .str "Slice"), ("type", type.toJson)]
  | .array type length =>
    .obj [("tag", .str "Array"), ("type", type.toJson), ("len", .str length)]
  | .implTrait bounds =>
    .obj [("tag", .str "ImplTrait"), ("bounds", .arr (Bound.listToJson bounds))]
  | .infer => .obj [("tag", .str "Infer")]
  | .rawPointer isMutable type =>
    .obj [("tag", .str "RawPointer"), ("is_mutable", .bool isMutable), ("type", type.toJson)]
  | .borrowedRef lifetime isMutable type =>
    .obj [("tag", .str "BorrowedRef"), ("lifetime", .ofString? lifetime),
      ("is_mutable", .bool isMutable), ("type", type.toJson)]
  | .qualifiedPath name args selfType trait =>
    .obj [("tag", .str "QualifiedPath"), ("name", .str name), ("args", args.toJson),
      ("self_type", selfType.toJson), ("trait", Path.toJson? trait)]

def TypeExpr.listToJson : List TypeExpr → List Json
  | [] => []
  | type :: types => type.toJson :: TypeExpr.listToJson types

def TypeExpr.toJson? : Option TypeExpr → Json
  | none => .null
  | some type => type.toJson

def Path.members : Path → List (String × Json)
  | ⟨name, id, args⟩ =>
    [("name", .str name), ("id", id.toJson), ("args", GenericArgs.toJson? args)]

def Path.toJson? : Option Path → Json
  | none => .null
  | some path => .obj path.members

def PolyTrait.toJson : PolyTrait → Json
  | ⟨trait, params⟩ =>
    .obj [("trait", .obj trait.members), ("generic_params", .arr (Param.listToJson params))]

def PolyTrait.listToJson : List PolyTrait → List Json
  | [] => []
  | trait :: traits => trait.toJson :: PolyTrait.listToJson traits

def GenericArgs.toJson : GenericArgs → Json
  | .angleBracketed args bindings =>
    .obj [("tag", .str "AngleBracketed"), ("args", .arr (GenericArg.listToJson args)),
      ("bindings", .arr (Binding.listToJson bindings))]
  | .parenthesized inputs output =>
    .obj [("tag", .str "Parenthesized"), ("inputs", .arr (TypeExpr.listToJson inputs)),
      ("output", TypeExpr.toJson? output)]

def GenericArgs.toJson? : Option GenericArgs → Json
  | none => .null
  | some args => args.toJson

def GenericArg.toJson : GenericArg → Json
  | .lifetime name => .obj [("tag", .str "Lifetime"), ("lifetime", .str name)]
  | .type type => .obj [("tag", .str "Type"), ("type", type.toJson)]
  | .const constant => .obj (("tag", .str "Const") :: constant.members)
  | .infer => .obj [("tag", .str "Infer")]

def GenericArg.listToJson : List GenericArg → List Json
  | [] => []
  | arg :: args => arg.toJson :: GenericArg.listToJson args

def Constant.members : Constant → List (String × Json)
  | ⟨type, expr, value, isLiteral⟩ =>
    [("type", type.toJson), ("expr", .str expr), ("value", .ofString? value),
      ("is_literal", .bool isLiteral)]

def Binding.toJson : Binding → Json
  | ⟨name, args, kind⟩ =>
    .obj [("name", .str name), ("args", args.toJson), ("binding", kind.toJson)]

def Binding.listToJson : List Binding → List Json
  | [] => []
  | binding :: bindings => binding.toJson :: Binding.listToJson bindings

def BindingKind.toJson : BindingKind → Json
  | .equality term => .obj [("tag", .str "Equality"), ("term", term.toJson)]
  | .constraint bounds =>
    .obj [("tag", .str "Constraint"), ("bounds", .arr (Bound.listToJson bounds))]

def Term.toJson : Term → Json
  | .type type => .obj [("tag", .str "Type"), ("type", type.toJson)]
  | .constant constant => .obj (("tag", .str "Constant") :: constant.members)

def FnDecl.toJson : FnDecl → Json
  | ⟨inputs, output, isVariadic⟩ =>
    .obj [("inputs", .arr (FnDecl.inputsToJson inputs)), ("output", TypeExpr.toJson? output),
      ("c_variadic", .bool isVariadic)]

/-- The inputs of a function, each a pair of its pattern and its type. -/
def FnDecl.inputsToJson : List (String × TypeExpr) → List Json
  | [] => []
  | (pattern, type) :: inputs => .arr [.str pattern, type.toJson] :: FnDecl.inputsToJson inputs

def Param.toJson : Param → Json
  | ⟨name, kind⟩ => .obj [("name", .str name), ("kind", kind.toJson)]

def Param.listToJson : List Param → List Json
  | [] => []
  | param :: params => param.toJson :: Param.listToJson params

def ParamKind.toJson : ParamKind → Json
  | .lifetime outlives => .obj [("tag", .str "Lifetime"), ("outlives", .ofStrings outlives)]
  | .type bounds default isSynthetic =>
    .obj [("tag", .str "Type"), ("bounds", .arr (Bound.listToJson bounds)),
      ("default", TypeExpr.toJson? default), ("synthetic", .bool isSynthetic)]
  | .const type default =>
    .obj [("tag", .str "Const"), ("type", type.toJson), ("default", .ofString? default)]

def Bound.toJson : Bound → Json
  | .traitBound trait params modifier =>
    .obj [("tag", .str "TraitBound"), ("trait", trait.toJson),
      ("generic_params", .arr (Param.listToJson params)), ("modifier", modifier.toJson)]
  | .outlives lifetime => .obj [("tag", .str "Outlives"), ("lifetime", .str lifetime)]

def Bound.listToJson : List Bound → List Json
  | [] => []
  | bound :: bounds => bound.toJson :: Bound.listToJson bounds

end

@[simp] theorem Json.ofString?_eq_elim (s : Option String) :
    Json.ofString? s = s.elim .null .str := by
  cases s <;> rfl

@[simp] theorem TypeExpr.toJson?_eq_elim (type : Option TypeExpr) :
    TypeExpr.toJson? type = type.elim .null TypeExpr.toJson := by
  cases type <;> rfl

@[simp] theorem Path.toJson?_eq_elim (path : Option Path) :
    Path.toJson? path = path.elim .null fun p => .obj p.members := by
  cases path <;> rfl

@[simp] theorem GenericArgs.toJson?_eq_elim (args : Option GenericArgs) :
    GenericArgs.toJson? args = args.elim .null GenericArgs.toJson := by
  cases args <;> rfl

@[simp] theorem TypeExpr.listToJson_eq_map (types : List TypeExpr) :
    TypeExpr.listToJson types = types.map TypeExpr.toJson := by
  induction types with
  | nil => rfl
  | cons type types ih => rw [TypeExpr.listToJson, ih, List.map_cons]

@[simp] theorem PolyTrait.listToJson_eq_map (traits : List PolyTrait) :
    PolyTrait.listToJson traits = traits.map PolyTrait.toJson := by
  induction traits with
  | nil => rfl
  | cons trait traits ih => rw [PolyTrait.listToJson, ih, List.map_cons]

@[simp] theorem GenericArg.listToJson_eq_map (args : List GenericArg) :
    GenericArg.listToJson args = args.map GenericArg.toJson := by
  induction args with
  | nil => rfl
  | cons arg args ih => rw [GenericArg.listToJson, ih, List.map_cons]

@[simp] theorem Binding.listToJson_eq_map (bindings : List Binding) :
    Binding.listToJson bindings = bindings.map Binding.toJson := by
  induction bindings with
  | nil => rfl
  | cons binding bindings ih => rw [Binding.listToJson, ih, List.map_cons]

@[simp] theorem FnDecl.inputsToJson_eq_map (inputs : List (String × TypeExpr)) :
    FnDecl.inputsToJson inputs =
      inputs.map fun (pattern, type) => .arr [.str pattern, type.toJson] := by
  induction inputs with
  | nil => rfl
  | cons input inputs ih => rw [FnDecl.inputsToJson, ih, List.map_cons]

@[simp] theorem Param.listToJson_eq_map (params : List Param) :
    Param.listToJson params = params.map Param.toJson := by
  induction params with
  | nil => rfl
  | cons param params ih => rw [Param.listToJson, ih, List.map_cons]

@[simp] theorem Bound.listToJson_eq_map (bounds : List Bound) :
    Bound.listToJson bounds = bounds.map Bound.toJson := by
  induction bounds with
  | nil => rfl
  | cons bound bounds ih => rw [Bound.listToJson, ih, List.map_cons]

end CrateDocs
