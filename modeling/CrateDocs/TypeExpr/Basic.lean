import CrateDocs.Header

/-!
# Type expressions

A type expression is a finite tree. Its only ties to the rest of a document are the identifiers on
its paths. Paths, generic arguments, bounds, parameters and function declarations nest in each
other, so all of them are declared together.
-/

namespace CrateDocs

/-- What stands before the trait of a bound. -/
inductive Modifier
  | none
  /-- The bound is relaxed: `?Sized`. -/
  | maybe
  /-- The bound is constant where the context is: `~const Trait`. -/
  | maybeConst
deriving DecidableEq

namespace Modifier

def all : List Modifier := [.none, .maybe, .maybeConst]

def name : Modifier → String
  | none => "None"
  | maybe => "Maybe"
  | maybeConst => "MaybeConst"

def ofName? (name : String) : Option Modifier :=
  all.find? fun modifier => modifier.name == name

theorem ofName?_name (modifier : Modifier) : ofName? modifier.name = some modifier := by
  cases modifier <;> decide

end Modifier

mutual

/-- A type as it is written in a declaration. -/
inductive TypeExpr
  /-- A named type that stands for an item: `Vec<u8>`. -/
  | resolvedPath (path : Path)
  /-- A trait object: `dyn Trait + Send + 'a`. -/
  | dynTrait (traits : List PolyTrait) (lifetime : Option String)
  /-- A type parameter in scope: `T`. -/
  | generic (name : String)
  /-- A built-in type: `u8`. -/
  | primitive (name : String)
  /-- A pointer to a function, with the parameters of its binder. -/
  | functionPointer (decl : FnDecl) (params : List Param) (header : Header)
  /-- A tuple; the unit type is the empty one. -/
  | tuple (types : List TypeExpr)
  /-- A slice: `[T]`. -/
  | slice (type : TypeExpr)
  /-- An array whose length is kept as it is written. -/
  | array (type : TypeExpr) (length : String)
  /-- An unnamed type with bounds: `impl Trait`. -/
  | implTrait (bounds : List Bound)
  /-- A type that is left open: `_`. -/
  | infer
  /-- A raw pointer: `*const T` or `*mut T`. -/
  | rawPointer (isMutable : Bool) (type : TypeExpr)
  /-- A reference: `&'a T` or `&mut T`. -/
  | borrowedRef (lifetime : Option String) (isMutable : Bool) (type : TypeExpr)
  /-- An associated type: `<Self as Trait>::Name`. -/
  | qualifiedPath (name : String) (args : GenericArgs) (selfType : TypeExpr) (trait : Option Path)

/-- A path to an item, with the generic arguments that are applied to it. -/
structure Path where
  /-- The path as it is written, which need not be the item's own. -/
  name : String
  id : ItemId
  /-- Absent when the path has neither angle brackets nor parentheses. -/
  args : Option GenericArgs

/-- A trait of a trait object, with the parameters of its binder. -/
structure PolyTrait where
  trait : Path
  params : List Param

/-- What a path is applied to. -/
inductive GenericArgs
  /-- Arguments in angle brackets: `<'a, T, Item = u8>`. -/
  | angleBracketed (args : List GenericArg) (bindings : List Binding)
  /-- Arguments of a function trait: `Fn(A, B) -> C`. -/
  | parenthesized (inputs : List TypeExpr) (output : Option TypeExpr)

inductive GenericArg
  | lifetime (name : String)
  | type (type : TypeExpr)
  | const (constant : Constant)
  | infer

structure Constant where
  type : TypeExpr
  expr : String
  /-- Its value, where that is known. -/
  value : Option String
  isLiteral : Bool

/-- A condition on an associated item: `Item = u8` or `Item: Clone`. -/
structure Binding where
  name : String
  args : GenericArgs
  kind : BindingKind

inductive BindingKind
  | equality (term : Term)
  | constraint (bounds : List Bound)

/-- The right side of an equation. -/
inductive Term
  | type (type : TypeExpr)
  | constant (constant : Constant)

structure FnDecl where
  inputs : List (String × TypeExpr)
  output : Option TypeExpr
  isVariadic : Bool

structure Param where
  name : String
  kind : ParamKind

/-- What a generic parameter ranges over. -/
inductive ParamKind
  | lifetime (outlives : List String)
  /-- A type; it is synthetic if it stands for an `impl Trait` argument. -/
  | type (bounds : List Bound) (default : Option TypeExpr) (isSynthetic : Bool)
  | const (type : TypeExpr) (default : Option String)

/-- A demand on a type or a lifetime. -/
inductive Bound
  /-- The trait to be implemented, with the parameters of its binder. -/
  | traitBound (trait : TypeExpr) (params : List Param) (modifier : Modifier)
  | outlives (lifetime : String)

end

/-- The item that a type names directly, if it is a resolved path. -/
def TypeExpr.resolvedId? : TypeExpr → Option ItemId
  | .resolvedPath path => some path.id
  | _ => none

def TypeExpr.tag : TypeExpr → String
  | .resolvedPath _ => "ResolvedPath"
  | .dynTrait _ _ => "DynTrait"
  | .generic _ => "Generic"
  | .primitive _ => "Primitive"
  | .functionPointer _ _ _ => "FunctionPointer"
  | .tuple _ => "Tuple"
  | .slice _ => "Slice"
  | .array _ _ => "Array"
  | .implTrait _ => "ImplTrait"
  | .infer => "Infer"
  | .rawPointer _ _ => "RawPointer"
  | .borrowedRef _ _ _ => "BorrowedRef"
  | .qualifiedPath _ _ _ _ => "QualifiedPath"

end CrateDocs
