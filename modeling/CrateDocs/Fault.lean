import CrateDocs.Item.Kind
import CrateDocs.Json.Basic

/-!
# Faults

A fault says where a value departs from the format, and how. Readers know nothing of what encloses
their value: a fault starts out at the value itself, and each reader further out puts its own step
in front of the location.
-/

namespace CrateDocs

inductive Segment
  | key (name : String)
  | index (position : Nat)
deriving DecidableEq

/-- A position inside a value: the steps that lead to it, outermost first. -/
abbrev Location : Type := List Segment

def Segment.render : Segment → String
  | .key name => "." ++ name
  | .index position => "[" ++ toString position ++ "]"

def Location.render (location : Location) : String :=
  "$" ++ String.join (location.map Segment.render)

inductive Shape
  | object
  | array
  | pair
  | string
  | boolean
  | integer
  | unsigned
  | unsigned32
deriving DecidableEq

def Shape.describe : Shape → String
  | .object => "an object"
  | .array => "an array"
  | .pair => "a two-element array"
  | .string => "a string"
  | .boolean => "a boolean"
  | .integer => "an integer"
  | .unsigned => "an unsigned integer"
  | .unsigned32 => "a 32-bit unsigned integer"

/-- The closed choices of the format: each is settled by the name of one of its variants. -/
inductive Choice
  | typeExpr
  | genericArgs
  | genericArg
  | bindingKind
  | term
  | paramKind
  | wherePredicate
  | bound
  | modifier
  | abi
  | visibility
  | payload
  | structStyle
  | macroStyle
  | itemKind
deriving DecidableEq

namespace Choice

def name : Choice → String
  | typeExpr => "Type"
  | genericArgs => "GenericArgs"
  | genericArg => "GenericArg"
  | bindingKind => "TypeBindingKind"
  | term => "Term"
  | paramKind => "GenericParamDefKind"
  | wherePredicate => "WherePredicate"
  | bound => "GenericBound"
  | modifier => "TraitBoundModifier"
  | abi => "Abi"
  | visibility => "Visibility"
  | payload => "ItemEnum"
  | structStyle => "StructType"
  | macroStyle => "MacroKind"
  | itemKind => "ItemKind"

def variants : Choice → List String
  | typeExpr => ["ResolvedPath", "DynTrait", "Generic", "Primitive", "FunctionPointer", "Tuple",
      "Slice", "Array", "ImplTrait", "Infer", "RawPointer", "BorrowedRef", "QualifiedPath"]
  | genericArgs => ["AngleBracketed", "Parenthesized"]
  | genericArg => ["Lifetime", "Type", "Const", "Infer"]
  | bindingKind => ["Equality", "Constraint"]
  | term => ["Type", "Constant"]
  | paramKind => ["Lifetime", "Type", "Const"]
  | wherePredicate => ["BoundPredicate", "RegionPredicate", "EqPredicate"]
  | bound => ["TraitBound", "Outlives"]
  | modifier => ["None", "Maybe", "MaybeConst"]
  | abi => ["Rust", "C", "Cdecl", "Stdcall", "Fastcall", "Aapcs", "Win64", "SysV64", "System",
      "Other"]
  | visibility => ["Public", "Default", "Crate", "Restricted"]
  | payload => ["Module", "ExternCrate", "Import", "Union", "Struct", "StructField", "Enum",
      "Variant", "Function", "Trait", "TraitAlias", "Method", "Impl", "Typedef", "OpaqueTy",
      "Constant", "Static", "ForeignType", "Macro", "ProcMacro", "PrimitiveType", "AssocConst",
      "AssocType"]
  | structStyle => ["Plain", "Tuple", "Unit"]
  | macroStyle => ["Bang", "Attr", "Derive"]
  | itemKind => ItemKind.all.map ItemKind.name

end Choice

/-- What is wrong with a value. -/
inductive Cause
  /-- A record lacks a field, or the field is null. -/
  | missingField (field : String)
  | mismatch (expected : Shape) (found : Json.Kind)
  | unknownVariant (choice : Choice) (tag : String)
  /-- The key of a numbered entry does not denote a 32-bit number. -/
  | nonNumericKey
deriving DecidableEq

def Cause.describe : Cause → String
  | .missingField field => "missing required field `" ++ field ++ "`"
  | .mismatch expected found => "expected " ++ expected.describe ++ ", found " ++ found.describe
  | .unknownVariant choice tag => "unknown " ++ choice.name ++ " variant `" ++ tag ++ "`"
  | .nonNumericKey => "expected a 32-bit unsigned integer key, found a non-numeric key"

structure Fault where
  location : Location
  cause : Cause
deriving DecidableEq

namespace Fault

/-- The same fault, seen from one step further out. -/
def within (segment : Segment) (fault : Fault) : Fault :=
  { fault with location := segment :: fault.location }

def mismatch (expected : Shape) (found : Json) : Fault :=
  ⟨[], .mismatch expected found.kind⟩

/-- The text that shows where the fault is. -/
def path (fault : Fault) : String :=
  fault.location.render

def message (fault : Fault) : String :=
  fault.path ++ ": " ++ fault.cause.describe

end Fault

end CrateDocs
