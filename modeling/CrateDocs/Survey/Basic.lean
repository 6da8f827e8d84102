import CrateDocs.Item.Payload

/-!
# Surveys

A survey reads a payload depth first and gathers findings. It has a hook for each kind of node.
The hook sees the node together with what was gathered below it, and settles what the node
contributes: by default exactly what lies below. Children are met in the order of their
declaration. The parts of a node that have no hook, such as a function declaration or the right
side of an equation, contribute what lies in them.
-/

namespace CrateDocs

/-- What to gather at each kind of node; the list is what was gathered below it. -/
structure Survey (α : Type) where
  payload : Payload → List α → List α := fun _ below => below
  id : ItemId → List α := fun _ => []
  typeExpr : TypeExpr → List α → List α := fun _ below => below
  path : Path → List α → List α := fun _ below => below
  args : GenericArgs → List α → List α := fun _ below => below
  generics : Generics → List α → List α := fun _ below => below
  param : Param → List α → List α := fun _ below => below
  bound : Bound → List α → List α := fun _ below => below

variable {α : Type}

mutual

/-- What a survey gathers from a type expression. -/
def TypeExpr.gather (s : Survey α) (type : TypeExpr) : List α :=
  s.typeExpr type <| match type with
    | .resolvedPath path => path.gather s
    | .dynTrait traits _ => PolyTrait.gatherList s traits
    | .generic _ => []
    | .primitive _ => []
    | .functionPointer decl params _ => decl.gather s ++ Param.gatherList s params
    | .tuple types => TypeExpr.gatherList s types
    | .slice type => type.gather s
    | .array type _ => type.gather s
    | .implTrait bounds => Bound.gatherList s bounds
    | .infer => []
    | .rawPointer _ type => type.gather s
    | .borrowedRef _ _ type => type.gather s
    | .qualifiedPath _ args selfType trait =>
      args.gather s ++ selfType.gather s ++ Path.gather? s trait

def TypeExpr.gatherList (s : Survey α) : List TypeExpr → List α
  | [] => []
  | type :: types => type.gather s ++ TypeExpr.gatherList s types

def TypeExpr.gather? (s : Survey α) : Option TypeExpr → List α
  | none => []
  | some type => type.gather s

def Path.gather (s : Survey α) (path : Path) : List α :=
  s.path path <| match path with
    | ⟨_, id, args⟩ => s.id id ++ GenericArgs.gather? s args

def Path.gather? (s : Survey α) : Option Path → List α
  | none => []
  | some path => path.gather s

def PolyTrait.gatherList (s : Survey α) : List PolyTrait → List α
  | [] => []
  | ⟨trait, params⟩ :: traits =>
    trait.gather s ++ Param.gatherList s params ++ PolyTrait.gatherList s traits

def GenericArgs.gather (s : Survey α) (args : GenericArgs) : List α :=
  s.args args <| match args with
    | .angleBracketed args bindings =>
      GenericArg.gatherList s args ++ Binding.gatherList s bindings
    | .parenthesized inputs output => TypeExpr.gatherList s inputs ++ TypeExpr.gather? s output

def GenericArgs.gather? (s : Survey α) : Option GenericArgs → List α
  | none => []
  | some args => args.gather s

def GenericArg.gather (s : Survey α) : GenericArg → List α
  | .lifetime _ => []
  | .type type => type.gather s
  | .const constant => constant.gather s
  | .infer => []

def GenericArg.gatherList (s : Survey α) : List GenericArg → List α
  | [] => []
  | arg :: args => arg.gather s ++ GenericArg.gatherList s args

/-- What a survey gathers from a constant: its type is all that can hold anything. -/
def Constant.gather (s : Survey α) : Constant → List α
  | ⟨type, _, _, _⟩ => type.gather s

def Binding.gatherList (s : Survey α) : List Binding → List α
  | [] => []
  | ⟨_, args, kind⟩ :: bindings => args.gather s ++ kind.gather s ++ Binding.gatherList s bindings

def BindingKind.gather (s : Survey α) : BindingKind → List α
  | .equality term => term.gather s
  | .constraint bounds => Bound.gatherList s bounds

def Term.gather (s : Survey α) : Term → List α
  | .type type => type.gather s
  | .constant constant => constant.gather s

def FnDecl.gather (s : Survey α) : FnDecl → List α
  | ⟨inputs, output, _⟩ => FnDecl.gatherInputs s inputs ++ TypeExpr.gather? s output

def FnDecl.gatherInputs (s : Survey α) : List (String × TypeExpr) → List α
  | [] => []
  | (_, type) :: inputs => type.gather s ++ FnDecl.gatherInputs s inputs

def Param.gather (s : Survey α) (param : Param) : List α :=
  s.param param <| match param with
    | ⟨_, kind⟩ => kind.gather s

def Param.gatherList (s : Survey α) : List Param → List α
  | [] => []
  | param :: params => param.gather s ++ Param.gatherList s params

def ParamKind.gather (s : Survey α) : ParamKind → List α
  | .lifetime _ => []
  | .type bounds default _ => Bound.gatherList s bounds ++ TypeExpr.gather? s default
  | .const type _ => type.gather s

def Bound.gather (s : Survey α) (bound : Bound) : List α :=
  s.bound bound <| match bound with
    | .traitBound trait params _ => trait.gather s ++ Param.gatherList s params
    | .outlives _ => []

def Bound.gatherList (s : Survey α) : List Bound → List α
  | [] => []
  | bound :: bounds => bound.gather s ++ Bound.gatherList s bounds

end

def WherePredicate.gather (s : Survey α) : WherePredicate → List α
  | .bound type bounds params =>
    type.gather s ++ Bound.gatherList s bounds ++ Param.gatherList s params
  | .region _ bounds => Bound.gatherList s bounds
  | .equation lhs rhs => lhs.gather s ++ rhs.gather s

def Generics.gather (s : Survey α) (generics : Generics) : List α :=
  s.generics generics <|
    Param.gatherList s generics.params ++ generics.predicates.flatMap (WherePredicate.gather s)

def ItemId.gatherList (s : Survey α) (ids : List ItemId) : List α :=
  ids.flatMap s.id

def Signature.gather (s : Survey α) (signature : Signature) : List α :=
  signature.decl.gather s ++ signature.generics.gather s

def Payload.gather (s : Survey α) (payload : Payload) : List α :=
  s.payload payload <| match payload with
    | .module m => ItemId.gatherList s m.items
    | .externCrate _ _ => []
    | .importDecl i => i.id.toList.flatMap s.id
    | .union u =>
      u.generics.gather s ++ ItemId.gatherList s u.fields ++ ItemId.gatherList s u.impls
    | .struct c =>
      c.generics.gather s ++ ItemId.gatherList s c.fields ++ ItemId.gatherList s c.impls
    | .structField type => type.gather s
    | .enum e =>
      e.generics.gather s ++ ItemId.gatherList s e.variants ++ ItemId.gatherList s e.impls
    | .variant v => ItemId.gatherList s v.fields
    | .function signature => signature.gather s
    | .trait t =>
      ItemId.gatherList s t.items ++ t.generics.gather s ++ Bound.gatherList s t.bounds ++
        ItemId.gatherList s t.implementations
    | .traitAlias a => a.generics.gather s ++ Bound.gatherList s a.params
    | .method signature _ => signature.gather s
    | .impl i =>
      i.generics.gather s ++ TypeExpr.gather? s i.trait ++ i.type.gather s ++
        ItemId.gatherList s i.items ++ TypeExpr.gather? s i.blanket
    | .typedef t => t.type.gather s ++ t.generics.gather s
    | .opaqueType t => Bound.gatherList s t.bounds ++ t.generics.gather s
    | .constant c => c.gather s
    | .static c => c.type.gather s
    | .foreignType => []
    | .macroRules _ => []
    | .procMacro _ => []
    | .primitiveType _ => []
    | .assocConst type _ => type.gather s
    | .assocType generics bounds default =>
      generics.gather s ++ Bound.gatherList s bounds ++ TypeExpr.gather? s default

end CrateDocs
