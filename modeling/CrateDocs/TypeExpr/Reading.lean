import CrateDocs.TypeExpr.Basic

/-!
# Reading type expressions

Each of the syntactic categories that nest in each other has a reader of its own. It is given the
record in which the value is written, together with a reader `parts` for the smaller values inside
it; `Category.read` closes the circle. A reader asks for the fields in a fixed order, which decides
the fault that is reported of a value with several.
-/

namespace CrateDocs

/-- The syntactic categories that nest in each other and are written as records of their own. -/
inductive Category
  | typeExpr
  | path
  | polyTrait
  | genericArgs
  | genericArg
  | binding
  | bindingKind
  | term
  | fnDecl
  | param
  | paramKind
  | bound
deriving DecidableEq

abbrev Category.Value : Category → Type
  | .typeExpr => TypeExpr
  | .path => Path
  | .polyTrait => PolyTrait
  | .genericArgs => GenericArgs
  | .genericArg => GenericArg
  | .binding => Binding
  | .bindingKind => BindingKind
  | .term => Term
  | .fnDecl => FnDecl
  | .param => Param
  | .paramKind => ParamKind
  | .bound => Bound

/-- Readers for the parts of a value, one for each category. -/
abbrev PartReader (v : Json) : Type :=
  (category : Category) → v.Part → Reading category.Value

variable {v : Json}

/-- The path whose fields stand in a record. -/
def Path.ofRecord (r : Record v) (parts : PartReader v) : Reading Path := do
  return {
    name := ← r.string "name"
    id := ← r.id "id"
    args := ← r.optional "args" (parts .genericArgs) }

def Constant.ofRecord (r : Record v) (parts : PartReader v) : Reading Constant := do
  return {
    type := ← r.field "type" (parts .typeExpr)
    expr := ← r.string "expr"
    value := ← r.string? "value"
    isLiteral := ← r.bool "is_literal" }

def TypeExpr.ofRecord (r : Record v) (parts : PartReader v) : Reading TypeExpr := do
  match ← r.tag with
  | "ResolvedPath" => return .resolvedPath (← Path.ofRecord r parts)
  | "DynTrait" => return .dynTrait (← r.list "traits" (parts .polyTrait)) (← r.string? "lifetime")
  | "Generic" => return .generic (← r.string "name")
  | "Primitive" => return .primitive (← r.string "name")
  | "FunctionPointer" =>
    return .functionPointer (← r.field "decl" (parts .fnDecl))
      (← r.list "generic_params" (parts .param)) (← r.field "header" (Header.read ·))
  | "Tuple" => return .tuple (← r.list "types" (parts .typeExpr))
  | "Slice" => return .slice (← r.field "type" (parts .typeExpr))
  | "Array" => return .array (← r.field "type" (parts .typeExpr)) (← r.string "len")
  | "ImplTrait" => return .implTrait (← r.list "bounds" (parts .bound))
  | "Infer" => return .infer
  | "RawPointer" =>
    return .rawPointer (← r.bool "is_mutable") (← r.field "type" (parts .typeExpr))
  | "BorrowedRef" =>
    return .borrowedRef (← r.string? "lifetime") (← r.bool "is_mutable")
      (← r.field "type" (parts .typeExpr))
  | "QualifiedPath" =>
    return .qualifiedPath (← r.string "name") (← r.field "args" (parts .genericArgs))
      (← r.field "self_type" (parts .typeExpr)) (← r.optional "trait" (parts .path))
  | tag => r.unknownTag .typeExpr tag

def PolyTrait.ofRecord (r : Record v) (parts : PartReader v) : Reading PolyTrait := do
  return {
    trait := ← r.field "trait" (parts .path)
    params := ← r.list "generic_params" (parts .param) }

def GenericArgs.ofRecord (r : Record v) (parts : PartReader v) : Reading GenericArgs := do
  match ← r.tag with
  | "AngleBracketed" =>
    return .angleBracketed (← r.list "args" (parts .genericArg))
      (← r.list "bindings" (parts .binding))
  | "Parenthesized" =>
    return .parenthesized (← r.list "inputs" (parts .typeExpr))
      (← r.optional "output" (parts .typeExpr))
  | tag => r.unknownTag .genericArgs tag

def GenericArg.ofRecord (r : Record v) (parts : PartReader v) : Reading GenericArg := do
  match ← r.tag with
  | "Lifetime" => return .lifetime (← r.string "lifetime")
  | "Type" => return .type (← r.field "type" (parts .typeExpr))
  | "Const" => return .const (← Constant.ofRecord r parts)
  | "Infer" => return .infer
  | tag => r.unknownTag .genericArg tag

def Binding.ofRecord (r : Record v) (parts : PartReader v) : Reading Binding := do
  return {
    name := ← r.string "name"
    args := ← r.field "args" (parts .genericArgs)
    kind := ← r.field "binding" (parts .bindingKind) }

def BindingKind.ofRecord (r : Record v) (parts : PartReader v) : Reading BindingKind := do
  match ← r.tag with
  | "Equality" => return .equality (← r.field "term" (parts .term))
  | "Constraint" => return .constraint (← r.list "bounds" (parts .bound))
  | tag => r.unknownTag .bindingKind tag

def Term.ofRecord (r : Record v) (parts : PartReader v) : Reading Term := do
  match ← r.tag with
  | "Type" => return .type (← r.field "type" (parts .typeExpr))
  | "Constant" => return .constant (← Constant.ofRecord r parts)
  | tag => r.unknownTag .term tag

/-- One input of a function: an array of its pattern and its type. -/
def FnDecl.readInput (parts : PartReader v) (w : v.Part) : Reading (String × TypeExpr) :=
  w.val.readPair (Json.asString ·) fun type => parts .typeExpr (w.widen type)

def FnDecl.ofRecord (r : Record v) (parts : PartReader v) : Reading FnDecl := do
  return {
    inputs := ← r.list "inputs" (FnDecl.readInput parts)
    output := ← r.optional "output" (parts .typeExpr)
    isVariadic := ← r.bool "c_variadic" }

def Param.ofRecord (r : Record v) (parts : PartReader v) : Reading Param := do
  return {
    name := ← r.string "name"
    kind := ← r.field "kind" (parts .paramKind) }

def ParamKind.ofRecord (r : Record v) (parts : PartReader v) : Reading ParamKind := do
  match ← r.tag with
  | "Lifetime" => return .lifetime (← r.strings "outlives")
  | "Type" =>
    return .type (← r.list "bounds" (parts .bound)) (← r.optional "default" (parts .typeExpr))
      (← r.bool "synthetic")
  | "Const" => return .const (← r.field "type" (parts .typeExpr)) (← r.string? "default")
  | tag => r.unknownTag .paramKind tag

def Bound.ofRecord (r : Record v) (parts : PartReader v) : Reading Bound := do
  match ← r.tag with
  | "TraitBound" =>
    return .traitBound (← r.field "trait" (parts .typeExpr))
      (← r.list "generic_params" (parts .param))
      (← r.field "modifier" (Json.asVariant .modifier Modifier.ofName? ·))
  | "Outlives" => return .outlives (← r.string "lifetime")
  | tag => r.unknownTag .bound tag

/-- The value of a category that a record describes. -/
def Category.ofRecord (r : Record v) (parts : PartReader v) :
    (category : Category) → Reading category.Value
  | .typeExpr => TypeExpr.ofRecord r parts
  | .path => Path.ofRecord r parts
  | .polyTrait => PolyTrait.ofRecord r parts
  | .genericArgs => GenericArgs.ofRecord r parts
  | .genericArg => GenericArg.ofRecord r parts
  | .binding => Binding.ofRecord r parts
  | .bindingKind => BindingKind.ofRecord r parts
  | .term => Term.ofRecord r parts
  | .fnDecl => FnDecl.ofRecord r parts
  | .param => Param.ofRecord r parts
  | .paramKind => ParamKind.ofRecord r parts
  | .bound => Bound.ofRecord r parts

/-- The value of a category that a JSON value describes. -/
def Category.read (category : Category) (v : Json) : Reading category.Value := do
  let r ← v.asRecord
  Category.ofRecord r (fun inner part => inner.read part.val) category
termination_by sizeOf v
decreasing_by exact part.property

def TypeExpr.read (v : Json) : Reading TypeExpr := Category.read .typeExpr v

def Term.read (v : Json) : Reading Term := Category.read .term v

def FnDecl.read (v : Json) : Reading FnDecl := Category.read .fnDecl v

def Param.read (v : Json) : Reading Param := Category.read .param v

def Bound.read (v : Json) : Reading Bound := Category.read .bound v

end CrateDocs
