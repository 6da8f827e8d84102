import CrateDocs.Item.Format
import CrateDocs.Proofs.Exactness.TypeExpr
import CrateDocs.Proofs.Survey.Parts
import CrateDocs.Survey.Mentions

/-!
# Every identifier is mentioned

The written form of a payload holds identifiers in the fields of a few names only. A survey of the
payload meets them all, in the order in which they are written.
-/

namespace CrateDocs

namespace Json

/-- A string as an identifier. -/
def id? : Json → Option ItemId
  | .str s => some ⟨s⟩
  | _ => none

/-- The items of an array. -/
def items : Json → List Json
  | .arr items => items
  | _ => []

/-- The fields whose value is a list of identifiers. -/
def idLists : List String := ["items", "fields", "impls", "variants", "implementations"]

/-- The identifiers that a field holds itself. -/
def idsOfField (key : String) (v : Json) : List ItemId :=
  if key = "id" then v.id?.toList
  else if key ∈ idLists then v.items.filterMap id?
  else []

mutual

/-- The identifiers in a value, from left to right and at any depth. -/
def ids : Json → List ItemId
  | .null | .bool _ | .num _ | .str _ => []
  | .arr items => idsOfItems items
  | .obj members => idsOfMembers members

/-- The identifiers in the items of an array. -/
def idsOfItems : List Json → List ItemId
  | [] => []
  | v :: vs => v.ids ++ idsOfItems vs

/-- The identifiers in the members of an object. -/
def idsOfMembers : List (String × Json) → List ItemId
  | [] => []
  | (key, v) :: rest => idsOfField key v ++ v.ids ++ idsOfMembers rest

end

variable {α : Type}

theorem idsOfItems_map (write : α → Json) (as : List α) :
    idsOfItems (as.map write) = as.flatMap fun a => (write a).ids := by
  induction as with
  | nil => rfl
  | cons a as ih => rw [List.map_cons, idsOfItems, ih, List.flatMap_cons]

theorem ids_elim (write : α → Json) (a : Option α) :
    (a.elim .null write).ids = a.toList.flatMap fun a => (write a).ids := by
  cases a <;> simp [ids]

theorem idsOfMembers_append (members rest : List (String × Json)) :
    idsOfMembers (members ++ rest) = idsOfMembers members ++ idsOfMembers rest := by
  induction members with
  | nil => rfl
  | cons m members ih =>
    rw [List.cons_append, idsOfMembers, idsOfMembers, ih, List.append_assoc _ (idsOfMembers _)]

end Json

open Json

/-- Nothing is added to what is mentioned below a node. -/
@[simp] theorem Survey.hook_mentions (category : Category) (a : category.Value)
    (below : List ItemId) : Survey.mentions.hook category a below = below := by
  cases category <;> rfl

@[simp] theorem Survey.generics_mentions (generics : Generics) (below : List ItemId) :
    Survey.mentions.generics generics below = below :=
  rfl

@[simp] theorem Survey.payload_mentions (payload : Payload) (below : List ItemId) :
    Survey.mentions.payload payload below = below :=
  rfl

@[simp] theorem Survey.id_mentions : Survey.mentions.id = fun id => [id] :=
  rfl

@[simp] theorem ItemId.gatherList_mentions (ids : List ItemId) :
    ItemId.gatherList Survey.mentions ids = ids := by
  simp [ItemId.gatherList]

@[simp] theorem Header.ids_toJson (header : Header) : header.toJson.ids = [] := by
  obtain ⟨isConst, isUnsafe, isAsync, abi⟩ := header
  cases abi <;> simp [Header.toJson, Abi.toJson, ids, idsOfMembers, idsOfField, idLists]

@[simp] theorem ItemId.ids_toJson (id : ItemId) : id.toJson.ids = [] := by
  rw [ItemId.toJson, ids]

@[simp] theorem ItemId.id?_toJson (id : ItemId) : id.toJson.id? = some id :=
  rfl

@[simp] theorem Json.id?_null : null.id? = none :=
  rfl

@[simp] theorem Json.ids_ofStrings (strings : List String) : (ofStrings strings).ids = [] := by
  rw [ofStrings, ids, idsOfItems_map]
  simp [ids]

@[simp] theorem Constant.ids_members (constant : Constant) :
    idsOfMembers constant.members = constant.type.toJson.ids := by
  obtain ⟨type, expr, value, isLiteral⟩ := constant
  simp [Constant.members, idsOfMembers, idsOfField, idLists, ids, ids_elim]

theorem Category.ids_toJson (category : Category) (a : category.Value) :
    (category.toJson a).ids =
      Survey.mentions.own category a ++
        (category.parts a).flatMap fun part => (part.1.toJson part.2).ids := by
  cases category <;> cases a
  all_goals
    simp [Survey.own, Survey.mentions, parts, List.flatMap_map, ids, idsOfMembers, idsOfItems,
      idsOfField, idLists, ids_elim, idsOfItems_map, TypeExpr.toJson, Path.members,
      PolyTrait.toJson, GenericArgs.toJson, GenericArg.toJson, Binding.toJson, BindingKind.toJson,
      Term.toJson, FnDecl.toJson, Param.toJson, ParamKind.toJson, Bound.toJson, Modifier.toJson]

/-- A survey of a value of any category meets what is written in it. -/
theorem Category.gather_mentions (category : Category) (a : category.Value) :
    category.gather Survey.mentions a = (category.toJson a).ids := by
  induction category, a using Category.induction with
  | step category a ih =>
    rw [gather_eq, Survey.hook_mentions, ids_toJson]
    congr 1
    exact List.flatMap_congr ih

theorem TypeExpr.gather_mentions :
    TypeExpr.gather Survey.mentions = fun type => type.toJson.ids :=
  funext (Category.gather_mentions .typeExpr)

theorem Term.gather_mentions : Term.gather Survey.mentions = fun term => term.toJson.ids :=
  funext (Category.gather_mentions .term)

theorem FnDecl.gather_mentions : FnDecl.gather Survey.mentions = fun decl => decl.toJson.ids :=
  funext (Category.gather_mentions .fnDecl)

theorem Param.gather_mentions : Param.gather Survey.mentions = fun param => param.toJson.ids :=
  funext (Category.gather_mentions .param)

theorem Bound.gather_mentions : Bound.gather Survey.mentions = fun bound => bound.toJson.ids :=
  funext (Category.gather_mentions .bound)

theorem WherePredicate.gather_mentions :
    WherePredicate.gather Survey.mentions = fun predicate => predicate.toJson.ids := by
  funext predicate
  cases predicate <;>
    simp [gather, toJson, ids, idsOfMembers, idsOfField, idLists, idsOfItems_map,
      TypeExpr.gather_mentions, Term.gather_mentions, Param.gather_mentions, Bound.gather_mentions]

theorem Generics.gather_mentions :
    Generics.gather Survey.mentions = fun generics => generics.toJson.ids := by
  funext generics
  simp [gather, toJson, ids, idsOfMembers, idsOfField, idLists, idsOfItems_map,
    Param.gather_mentions, WherePredicate.gather_mentions]

theorem Signature.gather_mentions :
    Signature.gather Survey.mentions = fun signature => idsOfMembers signature.members := by
  funext signature
  simp [gather, members, idsOfMembers, idsOfField, idLists, FnDecl.gather_mentions,
    Generics.gather_mentions]

@[simp] theorem Json.ids_ofIds (ids : List ItemId) : (ofIds ids).ids = [] := by
  rw [ofIds, Json.ids, idsOfItems_map]
  simp

@[simp] theorem Json.filterMap_items_ofIds (ids : List ItemId) :
    (ofIds ids).items.filterMap id? = ids := by
  rw [ofIds, items, List.filterMap_map]
  exact List.filterMap_some

/-- A survey of a payload meets the identifiers that are written in it, from left to right. -/
theorem Payload.mentions_eq_ids (payload : Payload) : payload.mentions = payload.toJson.ids := by
  rcases payload with _ | _ | ⟨⟨_, _, _ | _, _⟩⟩ | _ | _ | _ | _ | ⟨⟨_, _, _, _ | _⟩⟩
  all_goals
    simp [mentions, gather, toJson, members, tag, ids, idsOfMembers, idsOfField,
      idLists, ids_elim, idsOfItems_map, idsOfMembers_append, StructStyle.toJson,
      Discriminant.toJson, MacroStyle.toJson, TypeExpr.gather_mentions, Bound.gather_mentions,
      Generics.gather_mentions, Signature.gather_mentions]

end CrateDocs
