import CrateDocs.Proofs.Survey.Mentions

/-!
# Every type expression is entered once

In the written form of a payload a type expression is a tagged record in the place of a type. A
survey of the payload enters the type expressions in the order in which they are written, each of
them before those inside it and as often as it is written.
-/

namespace CrateDocs

/-- A survey that lists the type expressions it enters. -/
def Survey.types : Survey TypeExpr where
  typeExpr := fun type below => type :: below

namespace Json

/-- The fields that hold a type, a list of types, or pairs of which the second is a type. -/
def typeFields : List String :=
  ["type", "types", "self_type", "trait", "for", "blanket_impl", "lhs", "default", "inputs",
    "output"]

def isTagged (members : List (String × Json)) : Bool :=
  (members.lookup "tag").isSome

mutual

/-- The type expressions written in a value, from left to right and each before those inside it,
where `inPlace` says whether the value itself stands in the place of a type. A path may stand there
too, but has no tag. -/
def types (inPlace : Bool) : Json → List Json
  | .null | .bool _ | .num _ | .str _ => []
  | .arr items => typesOfItems inPlace items
  | .obj members =>
    (if inPlace && isTagged members then [.obj members] else []) ++ typesOfMembers members

/-- The type expressions written in the items of an array. -/
def typesOfItems (inPlace : Bool) : List Json → List Json
  | [] => []
  | v :: vs => v.types inPlace ++ typesOfItems inPlace vs

/-- The type expressions written in the members of an object. -/
def typesOfMembers : List (String × Json) → List Json
  | [] => []
  | (key, v) :: rest => v.types (typeFields.contains key) ++ typesOfMembers rest

end

variable {α : Type} {inPlace : Bool}

theorem typesOfItems_map (write : α → Json) (as : List α) :
    typesOfItems inPlace (as.map write) = as.flatMap fun a => (write a).types inPlace := by
  induction as with
  | nil => rfl
  | cons a as ih => rw [List.map_cons, typesOfItems, ih, List.flatMap_cons]

theorem types_elim (write : α → Json) (a : Option α) :
    (a.elim .null write).types inPlace = a.toList.flatMap fun a => (write a).types inPlace := by
  cases a <;> simp [types]

theorem typesOfMembers_append (members rest : List (String × Json)) :
    typesOfMembers (members ++ rest) = typesOfMembers members ++ typesOfMembers rest := by
  induction members with
  | nil => rfl
  | cons m members ih =>
    rw [List.cons_append, typesOfMembers, typesOfMembers, ih, List.append_assoc]

@[simp] theorem types_ofStrings (strings : List String) :
    (ofStrings strings).types inPlace = [] := by
  rw [ofStrings, types, typesOfItems_map]
  simp [types]

@[simp] theorem types_ofIds (ids : List ItemId) : (ofIds ids).types inPlace = [] := by
  rw [ofIds, types, typesOfItems_map]
  simp [types, ItemId.toJson]

end Json

open Json

@[simp] theorem Header.types_toJson (header : Header) : header.toJson.types false = [] := by
  obtain ⟨isConst, isUnsafe, isAsync, abi⟩ := header
  cases abi <;> simp [Header.toJson, Abi.toJson, types, typesOfMembers, typeFields]

@[simp] theorem ItemId.types_toJson (id : ItemId) (inPlace : Bool) :
    id.toJson.types inPlace = [] := by
  rw [ItemId.toJson, types]

@[simp] theorem Constant.typesOfMembers_members (constant : Constant) :
    typesOfMembers constant.members = constant.type.toJson.types true := by
  obtain ⟨type, expr, value, isLiteral⟩ := constant
  simp [Constant.members, typesOfMembers, typeFields, types, types_elim]

@[simp] theorem Path.lookup_tag_members (path : Path) : path.members.lookup "tag" = none := by
  cases path
  rfl

namespace Category

/-- Whether values of a category stand in the place of types. -/
def inPlace : Category → Bool
  | .typeExpr | .path => true
  | .polyTrait | .genericArgs | .genericArg | .binding | .bindingKind | .term | .fnDecl | .param
  | .paramKind | .bound => false

/-- What is written for a value is a type expression itself, if the value is one, and then the type
expressions written for its parts. -/
theorem types_toJson (category : Category) (a : category.Value) :
    (category.toJson a).types category.inPlace =
      (Survey.types.hook category a []).map TypeExpr.toJson ++
        (category.parts a).flatMap fun part => (part.1.toJson part.2).types part.1.inPlace := by
  cases category <;> cases a
  all_goals
    simp [inPlace, Survey.hook, Survey.types, parts, List.flatMap_map, types, typesOfMembers,
      typesOfItems, typeFields, isTagged, types_elim, typesOfItems_map, List.lookup_cons,
      TypeExpr.toJson, Path.members, PolyTrait.toJson, GenericArgs.toJson, GenericArg.toJson,
      Binding.toJson, BindingKind.toJson, Term.toJson, FnDecl.toJson, Param.toJson,
      ParamKind.toJson, Bound.toJson, Modifier.toJson]

/-- A survey of a value of any category enters the type expressions that are written in it. -/
theorem map_gather_types (category : Category) (a : category.Value) :
    (category.gather Survey.types a).map TypeExpr.toJson =
      (category.toJson a).types category.inPlace := by
  induction category, a using Category.induction with
  | step category a ih =>
    have hhook (below : List TypeExpr) :
        Survey.types.hook category a below = Survey.types.hook category a [] ++ below := by
      cases category <;> rfl
    have hown : Survey.types.own category a = [] := by
      cases category <;> rfl
    rw [gather_eq, hhook, hown, types_toJson, List.nil_append, List.map_append, List.map_flatMap]
    congr 1
    exact List.flatMap_congr ih

end Category

theorem TypeExpr.map_gather_types (type : TypeExpr) :
    (type.gather Survey.types).map TypeExpr.toJson = type.toJson.types true :=
  Category.map_gather_types .typeExpr type

theorem Term.map_gather_types (term : Term) :
    (term.gather Survey.types).map TypeExpr.toJson = term.toJson.types false :=
  Category.map_gather_types .term term

theorem FnDecl.map_gather_types (decl : FnDecl) :
    (decl.gather Survey.types).map TypeExpr.toJson = decl.toJson.types false :=
  Category.map_gather_types .fnDecl decl

theorem Param.map_gather_types (param : Param) :
    (param.gather Survey.types).map TypeExpr.toJson = param.toJson.types false :=
  Category.map_gather_types .param param

theorem Bound.map_gather_types (bound : Bound) :
    (bound.gather Survey.types).map TypeExpr.toJson = bound.toJson.types false :=
  Category.map_gather_types .bound bound

theorem WherePredicate.map_gather_types (predicate : WherePredicate) :
    (predicate.gather Survey.types).map TypeExpr.toJson = predicate.toJson.types false := by
  cases predicate <;>
    simp [gather, toJson, types, typesOfMembers, typeFields, typesOfItems_map, List.map_flatMap,
      TypeExpr.map_gather_types, Term.map_gather_types, Param.map_gather_types,
      Bound.map_gather_types]

theorem Generics.map_gather_types (generics : Generics) :
    (generics.gather Survey.types).map TypeExpr.toJson = generics.toJson.types false := by
  have hhook (below : List TypeExpr) : Survey.types.generics generics below = below := rfl
  simp [gather, hhook, toJson, types, typesOfMembers, typeFields, typesOfItems_map,
    List.map_flatMap, Param.map_gather_types, WherePredicate.map_gather_types]

theorem Signature.map_gather_types (signature : Signature) :
    (signature.gather Survey.types).map TypeExpr.toJson = typesOfMembers signature.members := by
  simp [gather, members, typesOfMembers, typeFields, FnDecl.map_gather_types,
    Generics.map_gather_types]

namespace Payload

/-- The type expressions that a survey of a payload enters, in the order in which it does so. -/
def types (payload : Payload) : List TypeExpr :=
  payload.gather Survey.types

theorem map_types (payload : Payload) :
    payload.types.map TypeExpr.toJson = payload.toJson.types false := by
  have hlist (ids : List ItemId) : ItemId.gatherList Survey.types ids = [] := by
    simp [ItemId.gatherList, Survey.types]
  have hid (id : ItemId) : Survey.types.id id = [] := rfl
  have hhook (payload : Payload) (below : List TypeExpr) :
      Survey.types.payload payload below = below := rfl
  rcases payload with _ | _ | ⟨⟨_, _, _ | _, _⟩⟩ | _ | _ | _ | _ | ⟨⟨_, _, _, _ | _⟩⟩
  all_goals
    simp [types, gather, hhook, hlist, hid, toJson, members, tag, Json.types, typesOfMembers,
      typeFields, types_elim, typesOfItems_map, typesOfMembers_append, List.map_flatMap,
      StructStyle.toJson, Discriminant.toJson, MacroStyle.toJson, TypeExpr.map_gather_types,
      Bound.map_gather_types, Generics.map_gather_types, Signature.map_gather_types]

/-- A survey of a payload meets the identifiers that are written in it, and enters the type
expressions that are written in it, each of them once for each time it is written and from left to
right. -/
theorem survey_eq_written (payload : Payload) :
    payload.mentions = payload.toJson.ids ∧
      payload.types.map TypeExpr.toJson = payload.toJson.types false :=
  ⟨payload.mentions_eq_ids, payload.map_types⟩

end Payload

end CrateDocs
