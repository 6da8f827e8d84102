import CrateDocs.Proofs.Faults.Record
import CrateDocs.TypeExpr.Reading

/-!
# Faults in type expressions

A fault of a type expression points into it as long as the faults of its parts point into these.
Since the parts of a value are smaller than the value, all of them do.
-/

namespace CrateDocs

open Reading

variable {v : Json}

theorem Abi.located_read : Located v (Abi.read v) := by
  refine Record.located_asRecord_bind fun r => Record.located_tagged fun tag htag => ?_
  split
  case h_1 => simp
  case h_2 => simp
  case h_3 _ hrust hother =>
    split
    · simp
    · rename_i hnone
      refine Record.located_unknownTag htag fun hmem => ?_
      have hvariants : Choice.abi.variants =
          "Rust" :: (Convention.all.map Convention.name ++ ["Other"]) := rfl
      rw [hvariants, List.mem_cons, List.mem_append, List.mem_singleton, List.mem_map] at hmem
      rcases hmem with heq | ⟨convention, -, rfl⟩ | heq
      · exact hrust heq
      · rw [Convention.ofName?_name] at hnone
        cases hnone
      · exact hother heq

theorem Header.located_read : Located v (Header.read v) := by
  refine Record.located_asRecord_bind fun r => ?_
  have habi : Located v (r.field "abi" (Abi.read ·)) :=
    Record.located_field fun w => Abi.located_read
  simp [habi]

/-- Whether the faults of the parts of a value point into these. -/
def PartReader.Located (parts : PartReader v) : Prop :=
  ∀ category w, Reading.Located w.val (parts category w)

section

variable {r : Record v} {parts : PartReader v} {key : String} (hparts : parts.Located)
include hparts

theorem Record.located_field_parts (category : Category) :
    Reading.Located v (r.field key (parts category)) :=
  located_field (hparts category)

theorem Record.located_optional_parts (category : Category) :
    Reading.Located v (r.optional key (parts category)) :=
  located_optional (hparts category)

theorem Record.located_list_parts (category : Category) :
    Reading.Located v (r.list key (parts category)) :=
  located_list (hparts category)

theorem Path.located_ofRecord : Reading.Located v (Path.ofRecord r parts) := by
  simp [Path.ofRecord, Record.located_optional_parts hparts]

theorem Constant.located_ofRecord : Reading.Located v (Constant.ofRecord r parts) := by
  simp [Constant.ofRecord, Record.located_field_parts hparts]

theorem TypeExpr.located_ofRecord : Reading.Located v (TypeExpr.ofRecord r parts) := by
  have hheader : Reading.Located v (r.field "header" (Header.read ·)) :=
    Record.located_field fun w => Header.located_read
  refine Record.located_tagged fun tag htag => ?_
  split
  case h_14 => exact Record.located_unknownTag htag (by simp_all [Choice.variants])
  all_goals
    simp [hheader, Path.located_ofRecord hparts, Record.located_field_parts hparts,
      Record.located_optional_parts hparts, Record.located_list_parts hparts]

theorem PolyTrait.located_ofRecord : Reading.Located v (PolyTrait.ofRecord r parts) := by
  simp [PolyTrait.ofRecord, Record.located_field_parts hparts, Record.located_list_parts hparts]

theorem GenericArgs.located_ofRecord : Reading.Located v (GenericArgs.ofRecord r parts) := by
  refine Record.located_tagged fun tag htag => ?_
  split
  case h_3 => exact Record.located_unknownTag htag (by simp_all [Choice.variants])
  all_goals simp [Record.located_optional_parts hparts, Record.located_list_parts hparts]

theorem GenericArg.located_ofRecord : Reading.Located v (GenericArg.ofRecord r parts) := by
  refine Record.located_tagged fun tag htag => ?_
  split
  case h_5 => exact Record.located_unknownTag htag (by simp_all [Choice.variants])
  all_goals simp [Record.located_field_parts hparts, Constant.located_ofRecord hparts]

theorem Binding.located_ofRecord : Reading.Located v (Binding.ofRecord r parts) := by
  simp [Binding.ofRecord, Record.located_field_parts hparts]

theorem BindingKind.located_ofRecord : Reading.Located v (BindingKind.ofRecord r parts) := by
  refine Record.located_tagged fun tag htag => ?_
  split
  case h_3 => exact Record.located_unknownTag htag (by simp_all [Choice.variants])
  all_goals simp [Record.located_field_parts hparts, Record.located_list_parts hparts]

theorem Term.located_ofRecord : Reading.Located v (Term.ofRecord r parts) := by
  refine Record.located_tagged fun tag htag => ?_
  split
  case h_3 => exact Record.located_unknownTag htag (by simp_all [Choice.variants])
  all_goals simp [Record.located_field_parts hparts, Constant.located_ofRecord hparts]

theorem FnDecl.located_ofRecord : Reading.Located v (FnDecl.ofRecord r parts) := by
  have hinputs : Reading.Located v (r.list "inputs" (FnDecl.readInput parts)) :=
    Record.located_list fun w => Json.located_readPair (fun _ => Json.located_asString)
      fun type => hparts .typeExpr (w.widen type)
  simp [FnDecl.ofRecord, hinputs, Record.located_optional_parts hparts]

theorem Param.located_ofRecord : Reading.Located v (Param.ofRecord r parts) := by
  simp [Param.ofRecord, Record.located_field_parts hparts]

theorem ParamKind.located_ofRecord : Reading.Located v (ParamKind.ofRecord r parts) := by
  refine Record.located_tagged fun tag htag => ?_
  split
  case h_4 => exact Record.located_unknownTag htag (by simp_all [Choice.variants])
  all_goals
    simp [Record.located_field_parts hparts, Record.located_optional_parts hparts,
      Record.located_list_parts hparts]

theorem Bound.located_ofRecord : Reading.Located v (Bound.ofRecord r parts) := by
  have hmodifier : Reading.Located v
      (r.field "modifier" (Json.asVariant .modifier Modifier.ofName? ·)) :=
    Record.located_field fun w => Json.located_asVariant rfl
  refine Record.located_tagged fun tag htag => ?_
  split
  case h_3 => exact Record.located_unknownTag htag (by simp_all [Choice.variants])
  all_goals
    simp [hmodifier, Record.located_field_parts hparts, Record.located_list_parts hparts]

theorem Category.located_ofRecord (category : Category) :
    Reading.Located v (Category.ofRecord r parts category) := by
  cases category with
  | typeExpr => exact TypeExpr.located_ofRecord hparts
  | path => exact Path.located_ofRecord hparts
  | polyTrait => exact PolyTrait.located_ofRecord hparts
  | genericArgs => exact GenericArgs.located_ofRecord hparts
  | genericArg => exact GenericArg.located_ofRecord hparts
  | binding => exact Binding.located_ofRecord hparts
  | bindingKind => exact BindingKind.located_ofRecord hparts
  | term => exact Term.located_ofRecord hparts
  | fnDecl => exact FnDecl.located_ofRecord hparts
  | param => exact Param.located_ofRecord hparts
  | paramKind => exact ParamKind.located_ofRecord hparts
  | bound => exact Bound.located_ofRecord hparts

end

/-- The faults of a value of any category point into it. -/
theorem Category.located_read (category : Category) (v : Json) :
    Located v (category.read v) := by
  rw [Category.read]
  refine Record.located_asRecord_bind fun r => ?_
  -- The parts of a value are smaller, whatever their category.
  exact Category.located_ofRecord (fun inner part => inner.located_read part.val) category
termination_by sizeOf v
decreasing_by exact part.property

theorem Category.located_parts :
    PartReader.Located (v := v) fun category part => category.read part.val :=
  fun category part => category.located_read part.val

end CrateDocs
