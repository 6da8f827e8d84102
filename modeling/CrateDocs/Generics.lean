import CrateDocs.TypeExpr.Reading
import CrateDocs.TypeExpr.Written

/-!
# Generics

The generic parameters of an item and the conditions on them, with their written form.
-/

namespace CrateDocs

/-- A condition on generic parameters. -/
inductive WherePredicate
  /-- A type has bounds, under the parameters of a binder: `for<'a> T: Trait<'a>`. -/
  | bound (type : TypeExpr) (bounds : List Bound) (params : List Param)
  /-- A lifetime outlives others: `'a: 'b`. -/
  | region (lifetime : String) (bounds : List Bound)
  /-- A type equals something: `T::Item = u8`. -/
  | equation (lhs : TypeExpr) (rhs : Term)

structure Generics where
  params : List Param
  predicates : List WherePredicate

/-- Whether a parameter was written out, rather than introduced by an `impl Trait` argument. -/
def Param.isExplicit (param : Param) : Bool :=
  match param.kind with
  | .type _ _ isSynthetic => !isSynthetic
  | .lifetime _ | .const _ _ => true

def Generics.explicitParams (generics : Generics) : List Param :=
  generics.params.filter Param.isExplicit

def WherePredicate.toJson : WherePredicate → Json
  | .bound type bounds params =>
    .obj [("tag", .str "BoundPredicate"), ("type", type.toJson),
      ("bounds", .arr (bounds.map Bound.toJson)),
      ("generic_params", .arr (params.map Param.toJson))]
  | .region lifetime bounds =>
    .obj [("tag", .str "RegionPredicate"), ("lifetime", .str lifetime),
      ("bounds", .arr (bounds.map Bound.toJson))]
  | .equation lhs rhs =>
    .obj [("tag", .str "EqPredicate"), ("lhs", lhs.toJson), ("rhs", rhs.toJson)]

def Generics.toJson (generics : Generics) : Json :=
  .obj [("params", .arr (generics.params.map Param.toJson)),
    ("where_predicates", .arr (generics.predicates.map WherePredicate.toJson))]

def WherePredicate.read (v : Json) : Reading WherePredicate := do
  let r ← v.asRecord
  match ← r.tag with
  | "BoundPredicate" =>
    return .bound (← r.field "type" (TypeExpr.read ·)) (← r.list "bounds" (Bound.read ·))
      (← r.list "generic_params" (Param.read ·))
  | "RegionPredicate" =>
    return .region (← r.string "lifetime") (← r.list "bounds" (Bound.read ·))
  | "EqPredicate" =>
    return .equation (← r.field "lhs" (TypeExpr.read ·)) (← r.field "rhs" (Term.read ·))
  | tag => r.unknownTag .wherePredicate tag

def Generics.read (v : Json) : Reading Generics := do
  let r ← v.asRecord
  return {
    params := ← r.list "params" (Param.read ·)
    predicates := ← r.list "where_predicates" (WherePredicate.read ·) }

end CrateDocs
