import CrateDocs.Crate.Format
import CrateDocs.Proofs.Exactness.TypeExpr

/-!
# What a decoding looks at

A record is read by the names of its fields, and in a tagged record the tag settles which fields
these are. A layout says of a value which parts of it are read in this way. Everything else in it
is of no concern.
-/

namespace CrateDocs

/-- The types of records. -/
inductive RecordType
  | crate
  | externalCrate
  | summary
  | item
  | span
  | deprecation
  | visibility
  | payload
  | discriminant
  | header
  | abi
  | generics
  | wherePredicate
  | fragment (category : Category)
deriving DecidableEq

/-- What is looked at in a value. -/
inductive Layout
  /-- All of it. -/
  | whole
  /-- The fields of a record. -/
  | record (type : RecordType)
  /-- The items of an array. -/
  | list (layout : Layout)
  /-- The two items of an array. -/
  | pair (first second : Layout)
  /-- The entries of an object, whatever their keys. -/
  | table (layout : Layout)
deriving DecidableEq

namespace Layout

def typeExpr : Layout := .record (.fragment .typeExpr)
def path : Layout := .record (.fragment .path)
def genericArgs : Layout := .record (.fragment .genericArgs)
def bounds : Layout := .list (.record (.fragment .bound))
def params : Layout := .list (.record (.fragment .param))

end Layout

/-- The fields of a record that are read, each with what is looked at in its value. -/
abbrev Fields : Type := List (String × Layout)

def Path.fields : Fields :=
  [("name", .whole), ("id", .whole), ("args", .genericArgs)]

def Constant.fields : Fields :=
  [("type", .typeExpr), ("expr", .whole), ("value", .whole), ("is_literal", .whole)]

/-- The fields beside the tag. -/
def TypeExpr.fields : String → Fields
  | "ResolvedPath" => Path.fields
  | "DynTrait" => [("traits", .list (.record (.fragment .polyTrait))), ("lifetime", .whole)]
  | "Generic" => [("name", .whole)]
  | "Primitive" => [("name", .whole)]
  | "FunctionPointer" =>
    [("decl", .record (.fragment .fnDecl)), ("generic_params", .params),
      ("header", .record .header)]
  | "Tuple" => [("types", .list .typeExpr)]
  | "Slice" => [("type", .typeExpr)]
  | "Array" => [("type", .typeExpr), ("len", .whole)]
  | "ImplTrait" => [("bounds", .bounds)]
  | "RawPointer" => [("is_mutable", .whole), ("type", .typeExpr)]
  | "BorrowedRef" => [("lifetime", .whole), ("is_mutable", .whole), ("type", .typeExpr)]
  | "QualifiedPath" =>
    [("name", .whole), ("args", .genericArgs), ("self_type", .typeExpr), ("trait", .path)]
  | _ => []

def GenericArgs.fields : String → Fields
  | "AngleBracketed" =>
    [("args", .list (.record (.fragment .genericArg))),
      ("bindings", .list (.record (.fragment .binding)))]
  | "Parenthesized" => [("inputs", .list .typeExpr), ("output", .typeExpr)]
  | _ => []

def GenericArg.fields : String → Fields
  | "Lifetime" => [("lifetime", .whole)]
  | "Type" => [("type", .typeExpr)]
  | "Const" => Constant.fields
  | _ => []

def BindingKind.fields : String → Fields
  | "Equality" => [("term", .record (.fragment .term))]
  | "Constraint" => [("bounds", .bounds)]
  | _ => []

def Term.fields : String → Fields
  | "Type" => [("type", .typeExpr)]
  | "Constant" => Constant.fields
  | _ => []

def ParamKind.fields : String → Fields
  | "Lifetime" => [("outlives", .whole)]
  | "Type" => [("bounds", .bounds), ("default", .typeExpr), ("synthetic", .whole)]
  | "Const" => [("type", .typeExpr), ("default", .whole)]
  | _ => []

def Bound.fields : String → Fields
  | "TraitBound" => [("trait", .typeExpr), ("generic_params", .params), ("modifier", .whole)]
  | "Outlives" => [("lifetime", .whole)]
  | _ => []

/-- The fields of a record whose tag is given, beside the tag itself. -/
def Fields.tagged (tag : Option String) (fields : String → Fields) : Fields :=
  ("tag", .whole) :: tag.elim [] fields

def Category.fields (tag : Option String) : Category → Fields
  | .typeExpr => .tagged tag TypeExpr.fields
  | .path => Path.fields
  | .polyTrait => [("trait", .path), ("generic_params", .params)]
  | .genericArgs => .tagged tag GenericArgs.fields
  | .genericArg => .tagged tag GenericArg.fields
  | .binding =>
    [("name", .whole), ("args", .genericArgs), ("binding", .record (.fragment .bindingKind))]
  | .bindingKind => .tagged tag BindingKind.fields
  | .term => .tagged tag Term.fields
  | .fnDecl =>
    [("inputs", .list (.pair .whole .typeExpr)), ("output", .typeExpr), ("c_variadic", .whole)]
  | .param => [("name", .whole), ("kind", .record (.fragment .paramKind))]
  | .paramKind => .tagged tag ParamKind.fields
  | .bound => .tagged tag Bound.fields

def Abi.fields : String → Fields
  | "Rust" => []
  | "Other" => [("name", .whole)]
  | tag => if (Convention.ofName? tag).isSome then [("unwind", .whole)] else []

def WherePredicate.fields : String → Fields
  | "BoundPredicate" => [("type", .typeExpr), ("bounds", .bounds), ("generic_params", .params)]
  | "RegionPredicate" => [("lifetime", .whole), ("bounds", .bounds)]
  | "EqPredicate" => [("lhs", .typeExpr), ("rhs", .record (.fragment .term))]
  | _ => []

def Visibility.fields : String → Fields
  | "Restricted" => [("parent", .whole), ("path", .whole)]
  | _ => []

def Signature.fields : Fields :=
  [("decl", .record (.fragment .fnDecl)), ("generics", .record .generics),
    ("header", .record .header)]

def Payload.fields : String → Fields
  | "Module" => [("is_crate", .whole), ("items", .whole), ("is_stripped", .whole)]
  | "ExternCrate" => [("name", .whole), ("rename", .whole)]
  | "Import" => [("source", .whole), ("name", .whole), ("id", .whole), ("glob", .whole)]
  | "Union" =>
    [("generics", .record .generics), ("fields_stripped", .whole), ("fields", .whole),
      ("impls", .whole)]
  | "Struct" =>
    [("struct_type", .whole), ("generics", .record .generics), ("fields_stripped", .whole),
      ("fields", .whole), ("impls", .whole)]
  | "StructField" => [("type", .typeExpr)]
  | "Enum" =>
    [("generics", .record .generics), ("variants_stripped", .whole), ("variants", .whole),
      ("impls", .whole)]
  | "Variant" =>
    [("variant_kind", .whole), ("fields", .whole), ("fields_stripped", .whole),
      ("discriminant", .record .discriminant)]
  | "Function" => Signature.fields
  | "Trait" =>
    [("is_auto", .whole), ("is_unsafe", .whole), ("items", .whole),
      ("generics", .record .generics), ("bounds", .bounds), ("implementations", .whole)]
  | "TraitAlias" => [("generics", .record .generics), ("params", .bounds)]
  | "Method" => Signature.fields ++ [("has_body", .whole)]
  | "Impl" =>
    [("is_unsafe", .whole), ("generics", .record .generics), ("provided_trait_methods", .whole),
      ("trait", .typeExpr), ("for", .typeExpr), ("items", .whole), ("negative", .whole),
      ("synthetic", .whole), ("blanket_impl", .typeExpr)]
  | "Typedef" => [("type", .typeExpr), ("generics", .record .generics)]
  | "OpaqueTy" => [("bounds", .bounds), ("generics", .record .generics)]
  | "Constant" => Constant.fields
  | "Static" => [("type", .typeExpr), ("is_mutable", .whole), ("expr", .whole)]
  | "Macro" => [("macro", .whole)]
  | "ProcMacro" => [("kind", .whole), ("helpers", .whole)]
  | "PrimitiveType" => [("name", .whole)]
  | "AssocConst" => [("type", .typeExpr), ("default", .whole)]
  | "AssocType" => [("generics", .record .generics), ("bounds", .bounds), ("default", .typeExpr)]
  | _ => []

/-- The fields that are read of a record. They depend on its tag if it is a tagged one; a tag that
names no variant leaves nothing to be read but the tag itself. -/
def RecordType.fields (tag : Option String) : RecordType → Fields
  | .crate =>
    [("root", .whole), ("crate_version", .whole), ("includes_private", .whole),
      ("index", .table (.record .item)), ("paths", .table (.record .summary)),
      ("external_crates", .table (.record .externalCrate)), ("format_version", .whole)]
  | .externalCrate => [("name", .whole), ("html_root_url", .whole)]
  | .summary => [("crate_id", .whole), ("path", .whole), ("kind", .whole)]
  | .item =>
    [("id", .whole), ("crate_id", .whole), ("name", .whole), ("span", .record .span),
      ("visibility", .record .visibility), ("docs", .whole), ("links", .whole), ("attrs", .whole),
      ("deprecation", .record .deprecation), ("inner", .record .payload)]
  | .span => [("filename", .whole), ("begin", .whole), ("end", .whole)]
  | .deprecation => [("since", .whole), ("note", .whole)]
  | .visibility => .tagged tag Visibility.fields
  | .payload => .tagged tag Payload.fields
  | .discriminant => [("expr", .whole), ("value", .whole)]
  | .header => [("is_const", .whole), ("is_unsafe", .whole), ("is_async", .whole),
      ("abi", .record .abi)]
  | .abi => .tagged tag Abi.fields
  | .generics =>
    [("params", .params), ("where_predicates", .list (.record .wherePredicate))]
  | .wherePredicate => .tagged tag WherePredicate.fields
  | .fragment category => category.fields tag

namespace Json

/-- The tag of a record, if it has one. -/
def tag? (members : List (String × Json)) : Option String :=
  match member? members "tag" with
  | some (.str tag) => some tag
  | _ => none

end Json

/-- The values that are written as records of a type. -/
inductive RecordType.Writes : RecordType → Json → Prop
  | crate (crate : Crate) : Writes .crate crate.toJson
  | externalCrate (crate : ExternalCrate) : Writes .externalCrate crate.toJson
  | summary (summary : ItemSummary) : Writes .summary summary.toJson
  | item (item : Item) : Writes .item item.toJson
  | span (span : Span) : Writes .span span.toJson
  | deprecation (deprecation : Deprecation) : Writes .deprecation deprecation.toJson
  | visibility (visibility : Visibility) : Writes .visibility visibility.toJson
  | payload (payload : Payload) : Writes .payload payload.toJson
  | discriminant (discriminant : Discriminant) : Writes .discriminant discriminant.toJson
  | header (header : Header) : Writes .header header.toJson
  | abi (abi : Abi) : Writes .abi abi.toJson
  | generics (generics : Generics) : Writes .generics generics.toJson
  | wherePredicate (predicate : WherePredicate) : Writes .wherePredicate predicate.toJson
  | fragment (category : Category) (a : category.Value) :
      Writes (.fragment category) (category.toJson a)

/-- Every field that is read of a record is one that is written, in this order. Hence none of the
lists above is too long. -/
theorem RecordType.Writes.keys_eq {type : RecordType} {v : Json} (h : type.Writes v) :
    ∃ members, v = .obj members ∧
      members.map Prod.fst = (type.fields (Json.tag? members)).map Prod.fst := by
  cases h with
  | visibility visibility => cases visibility <;> exact ⟨_, rfl, rfl⟩
  | payload payload =>
    cases payload with
    | constant constant =>
      cases constant
      exact ⟨_, rfl, rfl⟩
    | _ => exact ⟨_, rfl, rfl⟩
  | abi abi =>
    cases abi with
    | standard convention unwind => cases convention <;> exact ⟨_, rfl, rfl⟩
    | _ => exact ⟨_, rfl, rfl⟩
  | wherePredicate predicate => cases predicate <;> exact ⟨_, rfl, rfl⟩
  | fragment category a =>
    cases category <;> cases a
    case typeExpr.resolvedPath path =>
      cases path
      exact ⟨_, rfl, rfl⟩
    case genericArg.const constant =>
      cases constant
      exact ⟨_, rfl, rfl⟩
    case term.constant constant =>
      cases constant
      exact ⟨_, rfl, rfl⟩
    all_goals exact ⟨_, rfl, rfl⟩
  | _ => exact ⟨_, rfl, rfl⟩

end CrateDocs
