import CrateDocs.Item.Payload

/-!
# The written form of payloads

A payload is a tagged record in which the fields of its content stand beside the tag, in the order
of their declaration.
-/

namespace CrateDocs

def StructStyle.toJson (style : StructStyle) : Json :=
  .str style.name

def MacroStyle.toJson (style : MacroStyle) : Json :=
  .str style.name

def Discriminant.toJson (discriminant : Discriminant) : Json :=
  .obj [("expr", .str discriminant.expr), ("value", .str discriminant.value)]

def Signature.members (signature : Signature) : List (String × Json) :=
  [("decl", signature.decl.toJson), ("generics", signature.generics.toJson),
    ("header", signature.header.toJson)]

namespace Payload

def tag : Payload → String
  | .module _ => "Module"
  | .externCrate _ _ => "ExternCrate"
  | .importDecl _ => "Import"
  | .union _ => "Union"
  | .struct _ => "Struct"
  | .structField _ => "StructField"
  | .enum _ => "Enum"
  | .variant _ => "Variant"
  | .function _ => "Function"
  | .trait _ => "Trait"
  | .traitAlias _ => "TraitAlias"
  | .method _ _ => "Method"
  | .impl _ => "Impl"
  | .typedef _ => "Typedef"
  | .opaqueType _ => "OpaqueTy"
  | .constant _ => "Constant"
  | .static _ => "Static"
  | .foreignType => "ForeignType"
  | .macroRules _ => "Macro"
  | .procMacro _ => "ProcMacro"
  | .primitiveType _ => "PrimitiveType"
  | .assocConst _ _ => "AssocConst"
  | .assocType _ _ _ => "AssocType"

/-- The fields of a payload beside its tag. -/
def members : Payload → List (String × Json)
  | .module m =>
    [("is_crate", .bool m.isCrate), ("items", .ofIds m.items),
      ("is_stripped", .bool m.isStripped)]
  | .externCrate name rename => [("name", .str name), ("rename", .ofString? rename)]
  | .importDecl i =>
    [("source", .str i.source), ("name", .str i.name),
      ("id", match i.id with | none => .null | some id => id.toJson), ("glob", .bool i.isGlob)]
  | .union u =>
    [("generics", u.generics.toJson), ("fields_stripped", .bool u.fieldsStripped),
      ("fields", .ofIds u.fields), ("impls", .ofIds u.impls)]
  | .struct s =>
    [("struct_type", s.style.toJson), ("generics", s.generics.toJson),
      ("fields_stripped", .bool s.fieldsStripped), ("fields", .ofIds s.fields),
      ("impls", .ofIds s.impls)]
  | .structField type => [("type", type.toJson)]
  | .enum e =>
    [("generics", e.generics.toJson), ("variants_stripped", .bool e.variantsStripped),
      ("variants", .ofIds e.variants), ("impls", .ofIds e.impls)]
  | .variant v =>
    [("variant_kind", v.style.toJson), ("fields", .ofIds v.fields),
      ("fields_stripped", .bool v.fieldsStripped),
      ("discriminant", match v.discriminant with | none => .null | some d => d.toJson)]
  | .function signature => signature.members
  | .trait t =>
    [("is_auto", .bool t.isAuto), ("is_unsafe", .bool t.isUnsafe), ("items", .ofIds t.items),
      ("generics", t.generics.toJson), ("bounds", .arr (t.bounds.map Bound.toJson)),
      ("implementations", .ofIds t.implementations)]
  | .traitAlias a =>
    [("generics", a.generics.toJson), ("params", .arr (a.params.map Bound.toJson))]
  | .method signature hasBody => signature.members ++ [("has_body", .bool hasBody)]
  | .impl i =>
    [("is_unsafe", .bool i.isUnsafe), ("generics", i.generics.toJson),
      ("provided_trait_methods", .ofStrings i.providedMethods.toList),
      ("trait", TypeExpr.toJson? i.trait), ("for", i.type.toJson), ("items", .ofIds i.items),
      ("negative", .bool i.isNegative), ("synthetic", .bool i.isSynthetic),
      ("blanket_impl", TypeExpr.toJson? i.blanket)]
  | .typedef t => [("type", t.type.toJson), ("generics", t.generics.toJson)]
  | .opaqueType t =>
    [("bounds", .arr (t.bounds.map Bound.toJson)), ("generics", t.generics.toJson)]
  | .constant c => c.members
  | .static s =>
    [("type", s.type.toJson), ("is_mutable", .bool s.isMutable), ("expr", .str s.expr)]
  | .foreignType => []
  | .macroRules definition => [("macro", .str definition)]
  | .procMacro m => [("kind", m.style.toJson), ("helpers", .ofStrings m.helpers)]
  | .primitiveType name => [("name", .str name)]
  | .assocConst type default => [("type", type.toJson), ("default", .ofString? default)]
  | .assocType generics bounds default =>
    [("generics", generics.toJson), ("bounds", .arr (bounds.map Bound.toJson)),
      ("default", TypeExpr.toJson? default)]

def toJson (payload : Payload) : Json :=
  .obj (("tag", .str payload.tag) :: payload.members)

end Payload

def Discriminant.read (v : Json) : Reading Discriminant := do
  let r ← v.asRecord
  return {
    expr := ← r.string "expr"
    value := ← r.string "value" }

variable {v : Json}

def Signature.ofRecord (r : Record v) : Reading Signature := do
  return {
    decl := ← r.field "decl" (FnDecl.read ·)
    generics := ← r.field "generics" (Generics.read ·)
    header := ← r.field "header" (Header.read ·) }

/-- The payload of a given tag whose fields stand in a record. -/
def Payload.ofRecord (r : Record v) : String → Reading Payload
  | "Module" =>
    return .module {
      isCrate := ← r.bool "is_crate"
      items := ← r.ids "items"
      isStripped := ← r.bool "is_stripped" }
  | "ExternCrate" => return .externCrate (← r.string "name") (← r.string? "rename")
  | "Import" =>
    return .importDecl {
      source := ← r.string "source"
      name := ← r.string "name"
      id := ← r.id? "id"
      isGlob := ← r.bool "glob" }
  | "Union" =>
    return .union {
      generics := ← r.field "generics" (Generics.read ·)
      fieldsStripped := ← r.bool "fields_stripped"
      fields := ← r.ids "fields"
      impls := ← r.ids "impls" }
  | "Struct" =>
    return .struct {
      style := ← r.field "struct_type" (Json.asVariant .structStyle StructStyle.ofName? ·)
      generics := ← r.field "generics" (Generics.read ·)
      fieldsStripped := ← r.bool "fields_stripped"
      fields := ← r.ids "fields"
      impls := ← r.ids "impls" }
  | "StructField" => return .structField (← r.field "type" (TypeExpr.read ·))
  | "Enum" =>
    return .enum {
      generics := ← r.field "generics" (Generics.read ·)
      variantsStripped := ← r.bool "variants_stripped"
      variants := ← r.ids "variants"
      impls := ← r.ids "impls" }
  | "Variant" =>
    return .variant {
      style := ← r.field "variant_kind" (Json.asVariant .structStyle StructStyle.ofName? ·)
      fields := ← r.ids "fields"
      fieldsStripped := ← r.bool "fields_stripped"
      discriminant := ← r.optional "discriminant" (Discriminant.read ·) }
  | "Function" => return .function (← Signature.ofRecord r)
  | "Method" => return .method (← Signature.ofRecord r) (← r.bool "has_body")
  | "Trait" =>
    return .trait {
      isAuto := ← r.bool "is_auto"
      isUnsafe := ← r.bool "is_unsafe"
      items := ← r.ids "items"
      generics := ← r.field "generics" (Generics.read ·)
      bounds := ← r.list "bounds" (Bound.read ·)
      implementations := ← r.ids "implementations" }
  | "TraitAlias" =>
    return .traitAlias {
      generics := ← r.field "generics" (Generics.read ·)
      params := ← r.list "params" (Bound.read ·) }
  | "Impl" =>
    return .impl {
      isUnsafe := ← r.bool "is_unsafe"
      generics := ← r.field "generics" (Generics.read ·)
      providedMethods := .ofList (← r.strings "provided_trait_methods") compare
      trait := ← r.optional "trait" (TypeExpr.read ·)
      type := ← r.field "for" (TypeExpr.read ·)
      items := ← r.ids "items"
      isNegative := ← r.bool "negative"
      isSynthetic := ← r.bool "synthetic"
      blanket := ← r.optional "blanket_impl" (TypeExpr.read ·) }
  | "Typedef" =>
    return .typedef {
      type := ← r.field "type" (TypeExpr.read ·)
      generics := ← r.field "generics" (Generics.read ·) }
  | "OpaqueTy" =>
    return .opaqueType {
      bounds := ← r.list "bounds" (Bound.read ·)
      generics := ← r.field "generics" (Generics.read ·) }
  | "Constant" =>
    return .constant (← Constant.ofRecord r fun category part => category.read part.val)
  | "Static" =>
    return .static {
      type := ← r.field "type" (TypeExpr.read ·)
      isMutable := ← r.bool "is_mutable"
      expr := ← r.string "expr" }
  | "ForeignType" => return .foreignType
  | "Macro" => return .macroRules (← r.string "macro")
  | "ProcMacro" =>
    return .procMacro {
      style := ← r.field "kind" (Json.asVariant .macroStyle MacroStyle.ofName? ·)
      helpers := ← r.strings "helpers" }
  | "PrimitiveType" => return .primitiveType (← r.string "name")
  | "AssocConst" =>
    return .assocConst (← r.field "type" (TypeExpr.read ·)) (← r.string? "default")
  | "AssocType" =>
    return .assocType (← r.field "generics" (Generics.read ·)) (← r.list "bounds" (Bound.read ·))
      (← r.optional "default" (TypeExpr.read ·))
  | tag => r.unknownTag .payload tag

def Payload.read (v : Json) : Reading Payload := do
  let r ← v.asRecord
  Payload.ofRecord r (← r.tag)

end CrateDocs
