import CrateDocs.Crate.Format
import CrateDocs.Proofs.Faults.TypeExpr

/-!
# Faults in items

A fault of an item, or of an entry of another table of a crate, points into it.
-/

namespace CrateDocs

open Reading

variable {v : Json} {r : Record v} {key : String}

namespace Record

@[simp] theorem located_type : Located v (r.field key (TypeExpr.read ·)) :=
  located_field_parts Category.located_parts .typeExpr

@[simp] theorem located_type? : Located v (r.optional key (TypeExpr.read ·)) :=
  located_optional_parts Category.located_parts .typeExpr

@[simp] theorem located_term : Located v (r.field key (Term.read ·)) :=
  located_field_parts Category.located_parts .term

@[simp] theorem located_decl : Located v (r.field key (FnDecl.read ·)) :=
  located_field_parts Category.located_parts .fnDecl

@[simp] theorem located_params : Located v (r.list key (Param.read ·)) :=
  located_list_parts Category.located_parts .param

@[simp] theorem located_bounds : Located v (r.list key (Bound.read ·)) :=
  located_list_parts Category.located_parts .bound

@[simp] theorem located_header : Located v (r.field key (Header.read ·)) :=
  located_field fun _ => Header.located_read

end Record

theorem WherePredicate.located_read : Located v (WherePredicate.read v) := by
  refine Record.located_asRecord_bind fun r => Record.located_tagged fun tag htag => ?_
  split
  case h_4 => exact Record.located_unknownTag htag (by simp_all [Choice.variants])
  all_goals simp

theorem Generics.located_read : Located v (Generics.read v) := by
  refine Record.located_asRecord_bind fun r => ?_
  have hpredicates : Located v (r.list "where_predicates" (WherePredicate.read ·)) :=
    Record.located_list fun w => WherePredicate.located_read
  simp [hpredicates]

@[simp] theorem Record.located_generics : Located v (r.field key (Generics.read ·)) :=
  located_field fun _ => Generics.located_read

theorem Discriminant.located_read : Located v (Discriminant.read v) :=
  Record.located_asRecord_bind fun r => by simp

theorem Signature.located_ofRecord : Located v (Signature.ofRecord r) := by
  simp [Signature.ofRecord]

theorem Payload.located_read : Located v (Payload.read v) := by
  refine Record.located_asRecord_bind fun r => Record.located_tagged fun tag htag => ?_
  have hdiscriminant : Located v (r.optional "discriminant" (Discriminant.read ·)) :=
    Record.located_optional fun w => Discriminant.located_read
  have hstyle (key : String) :
      Located v (r.field key (Json.asVariant .structStyle StructStyle.ofName? ·)) :=
    Record.located_field fun w => Json.located_asVariant rfl
  have hmacro : Located v (r.field "kind" (Json.asVariant .macroStyle MacroStyle.ofName? ·)) :=
    Record.located_field fun w => Json.located_asVariant rfl
  unfold Payload.ofRecord
  split
  case h_24 => exact Record.located_unknownTag htag (by simp_all [Choice.variants])
  all_goals
    simp [hdiscriminant, hstyle, hmacro, Signature.located_ofRecord,
      Constant.located_ofRecord Category.located_parts]

theorem Visibility.located_read : Located v (Visibility.read v) := by
  refine Record.located_asRecord_bind fun r => Record.located_tagged fun tag htag => ?_
  split
  case h_5 => exact Record.located_unknownTag htag (by simp_all [Choice.variants])
  all_goals simp

theorem Position.located_read : Located v (Position.read v) := by
  have hpair : Located v (v.readPair (Json.asUInt64 ·) (Json.asUInt64 ·)) :=
    Json.located_readPair (fun _ => Json.located_asUInt64) fun _ => Json.located_asUInt64
  simp [Position.read, hpair]

theorem Span.located_read : Located v (Span.read v) := by
  refine Record.located_asRecord_bind fun r => ?_
  have hposition (key : String) : Located v (r.field key (Position.read ·)) :=
    Record.located_field fun w => Position.located_read
  simp [hposition]

theorem Deprecation.located_read : Located v (Deprecation.read v) :=
  Record.located_asRecord_bind fun r => by simp

theorem Item.located_ofRecord {id : ItemId} : Located v (Item.ofRecord id r) := by
  have hspan : Located v (r.optional "span" (Span.read ·)) :=
    Record.located_optional fun w => Span.located_read
  have hvisibility : Located v (r.field "visibility" (Visibility.read ·)) :=
    Record.located_field fun w => Visibility.located_read
  have hlinks : Located v (r.entries "links" fun text target => Item.readLink text target) :=
    Record.located_entries fun text target => by simp [Item.readLink]
  have hdeprecation : Located v (r.optional "deprecation" (Deprecation.read ·)) :=
    Record.located_optional fun w => Deprecation.located_read
  have hpayload : Located v (r.field "inner" (Payload.read ·)) :=
    Record.located_field fun w => Payload.located_read
  simp [Item.ofRecord, hspan, hvisibility, hlinks, hdeprecation, hpayload]

theorem ItemSummary.located_readEntry : Located v (ItemSummary.readEntry key v) := by
  have hread : Located v (ItemSummary.read v) := by
    refine Record.located_asRecord_bind fun r => ?_
    have hkind : Located v (r.field "kind" (Json.asVariant .itemKind ItemKind.ofName? ·)) :=
      Record.located_field fun w => Json.located_asVariant rfl
    simp [hkind]
  simp [ItemSummary.readEntry, hread]

theorem ExternalCrate.located_read : Located v (ExternalCrate.read v) :=
  Record.located_asRecord_bind fun r => by simp

end CrateDocs
