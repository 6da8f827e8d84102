/-!
# Item kinds

The closed set of kinds that an item can have, with the names that documents give them.
-/

namespace CrateDocs

inductive ItemKind
  | module
  | externCrate
  | importDecl
  | struct
  | structField
  | union
  | enum
  | variant
  | function
  | typedef
  | opaqueType
  | constant
  | trait
  | traitAlias
  | method
  | impl
  | static
  | foreignType
  | macroDef
  | procAttribute
  | procDerive
  | assocConst
  | assocType
  | primitive
  | keyword
deriving DecidableEq

namespace ItemKind

/-- Every kind, in the order in which documents number them. -/
def all : List ItemKind :=
  [.module, .externCrate, .importDecl, .struct, .structField, .union, .enum, .variant, .function,
    .typedef, .opaqueType, .constant, .trait, .traitAlias, .method, .impl, .static, .foreignType,
    .macroDef, .procAttribute, .procDerive, .assocConst, .assocType, .primitive, .keyword]

theorem mem_all (kind : ItemKind) : kind ∈ all := by
  cases kind <;> decide

theorem nodup_all : all.Nodup := by
  decide

def name : ItemKind → String
  | module => "Module"
  | externCrate => "ExternCrate"
  | importDecl => "Import"
  | struct => "Struct"
  | structField => "StructField"
  | union => "Union"
  | enum => "Enum"
  | variant => "Variant"
  | function => "Function"
  | typedef => "Typedef"
  | opaqueType => "OpaqueTy"
  | constant => "Constant"
  | trait => "Trait"
  | traitAlias => "TraitAlias"
  | method => "Method"
  | impl => "Impl"
  | static => "Static"
  | foreignType => "ForeignType"
  | macroDef => "Macro"
  | procAttribute => "ProcAttribute"
  | procDerive => "ProcDerive"
  | assocConst => "AssocConst"
  | assocType => "AssocType"
  | primitive => "Primitive"
  | keyword => "Keyword"

def ofName? (name : String) : Option ItemKind :=
  all.find? fun kind => kind.name == name

theorem ofName?_name (kind : ItemKind) : ofName? kind.name = some kind := by
  cases kind <;> decide

end ItemKind

end CrateDocs
