import CrateDocs.Generics
import Std.Data.ExtTreeSet

/-!
# Payloads

The payload of an item is what depends on its kind: the members of a module, the fields of a
struct, the signature of a function. Members are given by their identifiers.
-/

namespace CrateDocs

/-- The form in which fields are declared. -/
inductive StructStyle
  /-- Named fields: `struct A { x: u8 }`. -/
  | plain
  /-- Numbered fields: `struct A(u8);`. -/
  | tuple
  /-- No fields: `struct A;`. -/
  | unit
deriving DecidableEq

namespace StructStyle

def all : List StructStyle := [.plain, .tuple, .unit]

def name : StructStyle → String
  | plain => "Plain"
  | tuple => "Tuple"
  | unit => "Unit"

def ofName? (name : String) : Option StructStyle :=
  all.find? fun style => style.name == name

theorem ofName?_name (style : StructStyle) : ofName? style.name = some style := by
  cases style <;> decide

end StructStyle

/-- The form in which a procedural macro is called. -/
inductive MacroStyle
  /-- `foo!()` -/
  | bang
  /-- `#[foo]` -/
  | attr
  /-- `#[derive(Foo)]` -/
  | derive
deriving DecidableEq

namespace MacroStyle

def all : List MacroStyle := [.bang, .attr, .derive]

def name : MacroStyle → String
  | bang => "Bang"
  | attr => "Attr"
  | derive => "Derive"

def ofName? (name : String) : Option MacroStyle :=
  all.find? fun style => style.name == name

theorem ofName?_name (style : MacroStyle) : ofName? style.name = some style := by
  cases style <;> decide

end MacroStyle

structure Module where
  isCrate : Bool
  items : List ItemId
  /-- Whether members may be missing because the module itself is private. -/
  isStripped : Bool

/-- A `use` declaration. -/
structure Import where
  /-- The path that is imported, as it is written. -/
  source : String
  name : String
  /-- What is imported, where that is known. -/
  id : Option ItemId
  /-- Whether everything below the path is imported. -/
  isGlob : Bool

structure Union where
  generics : Generics
  fieldsStripped : Bool
  fields : List ItemId
  impls : List ItemId

structure Struct where
  style : StructStyle
  generics : Generics
  /-- Whether there are private fields that are not listed. -/
  fieldsStripped : Bool
  fields : List ItemId
  impls : List ItemId

structure Enum where
  generics : Generics
  variantsStripped : Bool
  variants : List ItemId
  impls : List ItemId

/-- The number that stands for a variant. -/
structure Discriminant where
  expr : String
  value : String

structure Variant where
  style : StructStyle
  fields : List ItemId
  fieldsStripped : Bool
  discriminant : Option Discriminant

/-- What a function and a method have in common. -/
structure Signature where
  decl : FnDecl
  generics : Generics
  header : Header

structure Trait where
  isAuto : Bool
  isUnsafe : Bool
  items : List ItemId
  generics : Generics
  /-- The traits that this one demands. -/
  bounds : List Bound
  /-- The blocks that implement it. -/
  implementations : List ItemId

/-- A name for several traits. -/
structure TraitAlias where
  generics : Generics
  params : List Bound

/-- A set of names that ascend, each of them once. -/
abbrev NameSet : Type := Std.ExtTreeSet String compare

structure Impl where
  isUnsafe : Bool
  generics : Generics
  /-- The methods with a default body that the block leaves as they are. -/
  providedMethods : NameSet
  /-- The trait that is implemented; absent when the block belongs to the type alone. -/
  trait : Option TypeExpr
  type : TypeExpr
  items : List ItemId
  /-- Whether the block says that the trait is not implemented. -/
  isNegative : Bool
  /-- Whether the block was derived rather than written. -/
  isSynthetic : Bool
  /-- For an implementation over all types, the type variable it ranges over. -/
  blanket : Option TypeExpr

structure Typedef where
  type : TypeExpr
  generics : Generics

/-- A type of which only the bounds are known. -/
structure OpaqueType where
  bounds : List Bound
  generics : Generics

structure Static where
  type : TypeExpr
  isMutable : Bool
  expr : String

structure ProcMacro where
  style : MacroStyle
  /-- The attributes that it brings with it. -/
  helpers : List String

/-- What an item is, beyond what all items have. -/
inductive Payload
  | module (content : Module)
  | externCrate (name : String) (rename : Option String)
  | importDecl (content : Import)
  | union (content : Union)
  | struct (content : Struct)
  | structField (type : TypeExpr)
  | enum (content : Enum)
  | variant (content : Variant)
  | function (signature : Signature)
  | trait (content : Trait)
  | traitAlias (content : TraitAlias)
  | method (signature : Signature) (hasBody : Bool)
  | impl (content : Impl)
  | typedef (content : Typedef)
  | opaqueType (content : OpaqueType)
  | constant (content : Constant)
  | static (content : Static)
  | foreignType
  | macroRules (definition : String)
  | procMacro (content : ProcMacro)
  | primitiveType (name : String)
  | assocConst (type : TypeExpr) (default : Option String)
  | assocType (generics : Generics) (bounds : List Bound) (default : Option TypeExpr)

namespace Payload

/-- The kind of the items that have a payload. A procedural macro is classed by its style. -/
def kind : Payload → ItemKind
  | .module _ => .module
  | .externCrate _ _ => .externCrate
  | .importDecl _ => .importDecl
  | .union _ => .union
  | .struct _ => .struct
  | .structField _ => .structField
  | .enum _ => .enum
  | .variant _ => .variant
  | .function _ => .function
  | .trait _ => .trait
  | .traitAlias _ => .traitAlias
  | .method _ _ => .method
  | .impl _ => .impl
  | .typedef _ => .typedef
  | .opaqueType _ => .opaqueType
  | .constant _ => .constant
  | .static _ => .static
  | .foreignType => .foreignType
  | .macroRules _ => .macroDef
  | .procMacro definition =>
    match definition.style with
    | .bang => .macroDef
    | .attr => .procAttribute
    | .derive => .procDerive
  | .primitiveType _ => .primitive
  | .assocConst _ _ => .assocConst
  | .assocType _ _ _ => .assocType

def generics? : Payload → Option Generics
  | .union u => some u.generics
  | .struct s => some s.generics
  | .enum e => some e.generics
  | .function signature => some signature.generics
  | .method signature _ => some signature.generics
  | .trait t => some t.generics
  | .traitAlias a => some a.generics
  | .impl block => some block.generics
  | .typedef t => some t.generics
  | .opaqueType t => some t.generics
  | .assocType generics _ _ => some generics
  | .module _ | .externCrate _ _ | .importDecl _ | .structField _ | .variant _ | .constant _
  | .static _ | .foreignType | .macroRules _ | .procMacro _ | .primitiveType _
  | .assocConst _ _ => none

/-- Whether the list of members is known to be incomplete. -/
def isStripped : Payload → Bool
  | .module m => m.isStripped
  | .struct s => s.fieldsStripped
  | .union u => u.fieldsStripped
  | .enum e => e.variantsStripped
  | .variant v => v.fieldsStripped
  | _ => false

end Payload

end CrateDocs
