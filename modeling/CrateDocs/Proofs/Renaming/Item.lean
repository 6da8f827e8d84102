import CrateDocs.Crate.Dangling
import CrateDocs.Proofs.Renaming.TypeExpr

/-!
# Items with other identifiers

The identifiers in an item are its own, those of its payload, the module that its visibility names
and the targets of its links. Whatever an item is asked for comes out the same after they are
replaced, up to this replacement.
-/

namespace CrateDocs

variable (f : ItemId → ItemId)

def WherePredicate.mapIds : WherePredicate → WherePredicate
  | .bound type bounds params =>
    .bound (type.mapIds f) (bounds.map (Bound.mapIds f)) (params.map (Param.mapIds f))
  | .region lifetime bounds => .region lifetime (bounds.map (Bound.mapIds f))
  | .equation lhs rhs => .equation (lhs.mapIds f) (rhs.mapIds f)

def Generics.mapIds (generics : Generics) : Generics where
  params := generics.params.map (Param.mapIds f)
  predicates := generics.predicates.map (WherePredicate.mapIds f)

def Signature.mapIds (signature : Signature) : Signature :=
  { signature with
    decl := signature.decl.mapIds f
    generics := signature.generics.mapIds f }

def Payload.mapIds : Payload → Payload
  | .module m => .module { m with items := m.items.map f }
  | .externCrate name rename => .externCrate name rename
  | .importDecl i => .importDecl { i with id := i.id.map f }
  | .union u =>
    .union { u with
      generics := u.generics.mapIds f
      fields := u.fields.map f
      impls := u.impls.map f }
  | .struct s =>
    .struct { s with
      generics := s.generics.mapIds f
      fields := s.fields.map f
      impls := s.impls.map f }
  | .structField type => .structField (type.mapIds f)
  | .enum e =>
    .enum { e with
      generics := e.generics.mapIds f
      variants := e.variants.map f
      impls := e.impls.map f }
  | .variant v => .variant { v with fields := v.fields.map f }
  | .function signature => .function (signature.mapIds f)
  | .trait t =>
    .trait { t with
      items := t.items.map f
      generics := t.generics.mapIds f
      bounds := t.bounds.map (Bound.mapIds f)
      implementations := t.implementations.map f }
  | .traitAlias a =>
    .traitAlias { generics := a.generics.mapIds f, params := a.params.map (Bound.mapIds f) }
  | .method signature hasBody => .method (signature.mapIds f) hasBody
  | .impl i =>
    .impl { i with
      generics := i.generics.mapIds f
      trait := i.trait.map (TypeExpr.mapIds f)
      type := i.type.mapIds f
      items := i.items.map f
      blanket := i.blanket.map (TypeExpr.mapIds f) }
  | .typedef t => .typedef { type := t.type.mapIds f, generics := t.generics.mapIds f }
  | .opaqueType t =>
    .opaqueType { bounds := t.bounds.map (Bound.mapIds f), generics := t.generics.mapIds f }
  | .constant c => .constant (c.mapIds f)
  | .static c => .static { c with type := c.type.mapIds f }
  | .foreignType => .foreignType
  | .macroRules definition => .macroRules definition
  | .procMacro definition => .procMacro definition
  | .primitiveType name => .primitiveType name
  | .assocConst type default => .assocConst (type.mapIds f) default
  | .assocType generics bounds default =>
    .assocType (generics.mapIds f) (bounds.map (Bound.mapIds f))
      (default.map (TypeExpr.mapIds f))

def Visibility.mapIds : Visibility → Visibility
  | .restricted parent path => .restricted (f parent) path
  | .exported => .exported
  | .inherited => .inherited
  | .crate => .crate

def Item.mapIds (item : Item) : Item :=
  { item with
    id := f item.id
    visibility := item.visibility.mapIds f
    links := item.links.map fun _ target => f target
    payload := item.payload.mapIds f }

@[simp] theorem Item.id_mapIds (item : Item) : (item.mapIds f).id = f item.id := rfl

@[simp] theorem Item.payload_mapIds (item : Item) :
    (item.mapIds f).payload = item.payload.mapIds f := rfl

@[simp] theorem TypeExpr.mentions_mapIds (type : TypeExpr) :
    (type.mapIds f).gather Survey.mentions = (type.gather Survey.mentions).map f :=
  Category.mentions_mapIds f .typeExpr type

@[simp] theorem Term.mentions_mapIds (term : Term) :
    (term.mapIds f).gather Survey.mentions = (term.gather Survey.mentions).map f :=
  Category.mentions_mapIds f .term term

@[simp] theorem FnDecl.mentions_mapIds (decl : FnDecl) :
    (decl.mapIds f).gather Survey.mentions = (decl.gather Survey.mentions).map f :=
  Category.mentions_mapIds f .fnDecl decl

@[simp] theorem Param.mentions_mapIds (param : Param) :
    (param.mapIds f).gather Survey.mentions = (param.gather Survey.mentions).map f :=
  Category.mentions_mapIds f .param param

@[simp] theorem Bound.mentions_mapIds (bound : Bound) :
    (bound.mapIds f).gather Survey.mentions = (bound.gather Survey.mentions).map f :=
  Category.mentions_mapIds f .bound bound

@[simp] theorem WherePredicate.mentions_mapIds (predicate : WherePredicate) :
    (predicate.mapIds f).gather Survey.mentions = (predicate.gather Survey.mentions).map f := by
  cases predicate <;> simp [mapIds, gather, List.flatMap_map, List.map_flatMap]

@[simp] theorem Generics.mentions_mapIds (generics : Generics) :
    (generics.mapIds f).gather Survey.mentions = (generics.gather Survey.mentions).map f := by
  simp [mapIds, gather, List.flatMap_map, List.map_flatMap]

@[simp] theorem Signature.mentions_mapIds (signature : Signature) :
    (signature.mapIds f).gather Survey.mentions = (signature.gather Survey.mentions).map f := by
  simp [mapIds, gather]

/-- The identifiers that a payload mentions are replaced in their places. -/
theorem Payload.mentions_mapIds (payload : Payload) :
    (payload.mapIds f).mentions = payload.mentions.map f := by
  cases payload
  all_goals
    simp [mentions, mapIds, gather, Constant.type_mapIds, Option.toList_map, List.flatMap_map,
      List.map_flatMap, ← List.map_eq_flatMap]

theorem Item.mentions_mapIds (item : Item) :
    (item.mapIds f).mentions = item.mentions.map f := by
  have hparent : (item.visibility.mapIds f).parent? = item.visibility.parent?.map f := by
    cases item.visibility <;> rfl
  rw [mentions, mentions, payload_mapIds, Payload.mentions_mapIds, List.map_append]
  rw [mapIds, hparent, Option.toList_map]

@[simp] theorem Payload.kind_mapIds (payload : Payload) :
    (payload.mapIds f).kind = payload.kind := by
  cases payload <;> rfl

@[simp] theorem Item.kind_mapIds (item : Item) : (item.mapIds f).kind = item.kind :=
  Payload.kind_mapIds f item.payload

theorem Item.link?_mapIds (item : Item) (text : String) :
    (item.mapIds f).link? text = (item.link? text).map f :=
  Std.ExtTreeMap.getElem?_map

end CrateDocs
