import CrateDocs.Proofs.Exactness.Record
import CrateDocs.TypeExpr.Reading
import CrateDocs.TypeExpr.Written
import Mathlib.Tactic.Simproc.ExistsAndEq

/-!
# Type expressions are read exactly

The reader of each syntactic category is exact as long as the readers for the parts are. Since the
parts of a value are smaller than the value, all of them are exact.
-/

namespace CrateDocs

open Reading

variable {v : Json} {r : Record v} {key : String}

theorem Convention.ofName?_eq_some {name : String} {convention : Convention} :
    ofName? name = some convention ↔ convention.name = name := by
  constructor
  · intro h
    simpa using List.find?_some h
  · rintro rfl
    exact ofName?_name convention

theorem Abi.read_eq_ok {abi : Abi} : Abi.read v = .ok abi ↔ v.Contains abi.toJson := by
  refine Record.asRecord_bind_eq_ok (by cases abi <;> rfl) fun r => ?_
  cases abi with
  | rust =>
    refine Record.tagged_eq_ok ⟨[], rfl⟩ (fun s h => ?_) (fun htag => ?_)
    · split at h
      · rfl
      · simp at h
      · split at h <;> simp [Record.unknownTag] at h
    · simp [r.contains_obj, Abi.toJson, htag]
  | standard convention unwind =>
    refine Record.tagged_eq_ok ⟨_, rfl⟩ (fun s h => ?_) (fun htag => ?_)
    · split at h
      · simp at h
      · simp at h
      · split at h
        · rename_i hname
          simp only [bind_eq_ok, pure_eq_ok] at h
          obtain ⟨_, _, h⟩ := h
          cases h
          exact (Convention.ofName?_eq_some.1 hname).symm
        · simp [Record.unknownTag] at h
    · split
      · rename_i hname
        cases convention <;> simp [Convention.name] at hname
      · rename_i hname
        cases convention <;> simp [Convention.name] at hname
      · rw [Convention.ofName?_name]
        simp [-Bool.exists_bool, r.contains_obj, Abi.toJson, htag]
  | other name =>
    refine Record.tagged_eq_ok ⟨_, rfl⟩ (fun s h => ?_) (fun htag => ?_)
    · split at h
      · simp at h
      · rfl
      · split at h <;> simp [Record.unknownTag] at h
    · simp [r.contains_obj, Abi.toJson, htag]

theorem Header.read_eq_ok {header : Header} :
    Header.read v = .ok header ↔ v.Contains header.toJson := by
  refine Record.asRecord_bind_eq_ok rfl fun r => ?_
  have habi {abi} : r.field "abi" (Abi.read ·) = .ok abi ↔
      Json.HasField r.members "abi" abi.toJson :=
    Record.field_eq_ok (fun _ _ => Abi.read_eq_ok) (by simp)
      fun abi => by cases abi <;> simp [Abi.toJson]
  obtain ⟨isConst, isUnsafe, isAsync, abi⟩ := header
  simp [-Bool.exists_bool, r.contains_obj, Header.toJson, habi]

theorem Record.header_eq_ok (hkey : key ∉ Json.specialKeys) {header : Header} :
    r.field key (Header.read ·) = .ok header ↔ Json.HasField r.members key header.toJson :=
  field_eq_ok (fun _ _ => Header.read_eq_ok) hkey fun _ => by simp [Header.toJson]

/-- The written form of the values of a category. -/
def Category.toJson : (category : Category) → category.Value → Json
  | .typeExpr, x => TypeExpr.toJson x
  | .path, x => .obj (Path.members x)
  | .polyTrait, x => PolyTrait.toJson x
  | .genericArgs, x => GenericArgs.toJson x
  | .genericArg, x => GenericArg.toJson x
  | .binding, x => Binding.toJson x
  | .bindingKind, x => BindingKind.toJson x
  | .term, x => Term.toJson x
  | .fnDecl, x => FnDecl.toJson x
  | .param, x => Param.toJson x
  | .paramKind, x => ParamKind.toJson x
  | .bound, x => Bound.toJson x

namespace Category

@[simp] theorem toJson_typeExpr : toJson .typeExpr = TypeExpr.toJson := rfl
@[simp] theorem toJson_path : toJson .path = fun path => .obj path.members := rfl
@[simp] theorem toJson_polyTrait : toJson .polyTrait = PolyTrait.toJson := rfl
@[simp] theorem toJson_genericArgs : toJson .genericArgs = GenericArgs.toJson := rfl
@[simp] theorem toJson_genericArg : toJson .genericArg = GenericArg.toJson := rfl
@[simp] theorem toJson_binding : toJson .binding = Binding.toJson := rfl
@[simp] theorem toJson_bindingKind : toJson .bindingKind = BindingKind.toJson := rfl
@[simp] theorem toJson_term : toJson .term = Term.toJson := rfl
@[simp] theorem toJson_fnDecl : toJson .fnDecl = FnDecl.toJson := rfl
@[simp] theorem toJson_param : toJson .param = Param.toJson := rfl
@[simp] theorem toJson_paramKind : toJson .paramKind = ParamKind.toJson := rfl
@[simp] theorem toJson_bound : toJson .bound = Bound.toJson := rfl

/-- A value of any category is written as a record. -/
theorem kind_toJson (category : Category) (a : category.Value) :
    (category.toJson a).kind = .object := by
  cases category <;> cases a <;> rfl

theorem toJson_ne_null (category : Category) (a : category.Value) : category.toJson a ≠ .null :=
  Json.ne_null_of_kind (category.kind_toJson a)

end Category

/-- Whether the readers for the parts of a value are exact. -/
def PartReader.Exact (parts : PartReader v) : Prop :=
  ∀ category, Reading.Exact (parts category) category.toJson

section

variable {parts : PartReader v} (hparts : parts.Exact)
include hparts

theorem Record.field_parts (category : Category) (hkey : key ∉ Json.specialKeys)
    {a : category.Value} :
    r.field key (parts category) = .ok a ↔ Json.HasField r.members key (category.toJson a) :=
  field_eq_ok (hparts category) hkey category.toJson_ne_null

theorem Record.optional_parts (category : Category) (hkey : key ∉ Json.specialKeys)
    {a : Option category.Value} :
    r.optional key (parts category) = .ok a ↔
      Json.HasField r.members key (a.elim .null category.toJson) :=
  optional_eq_ok (hparts category) hkey category.toJson_ne_null

theorem Record.list_parts (category : Category) (hkey : key ∉ Json.specialKeys)
    {as : List category.Value} :
    r.list key (parts category) = .ok as ↔
      Json.HasField r.members key (.arr (as.map category.toJson)) :=
  list_eq_ok (hparts category) hkey

theorem Path.ofRecord_eq_ok {path : Path} :
    Path.ofRecord r parts = .ok path ↔ Json.ContainsFields r.members path.members := by
  obtain ⟨name, id, args⟩ := path
  simp [Path.ofRecord, Path.members, Record.optional_parts hparts]

theorem Constant.ofRecord_eq_ok {constant : Constant} :
    Constant.ofRecord r parts = .ok constant ↔
      Json.ContainsFields r.members constant.members := by
  obtain ⟨type, expr, value, isLiteral⟩ := constant
  simp [-Bool.exists_bool, Constant.ofRecord, Constant.members, Record.field_parts hparts]

theorem TypeExpr.ofRecord_eq_ok {type : TypeExpr} :
    TypeExpr.ofRecord r parts = .ok type ↔ v.Contains type.toJson := by
  have hexpected : ∃ fields, type.toJson = .obj (("tag", .str type.tag) :: fields) := by
    cases type <;> exact ⟨_, rfl⟩
  refine Record.tagged_eq_ok hexpected (fun s h => ?_) (fun htag => ?_)
  · split at h
    all_goals simp only [bind_eq_ok, pure_eq_ok, Record.unknownTag, reduceCtorEq] at h
    all_goals grind [TypeExpr.tag]
  · cases type
    all_goals
      rw [TypeExpr.tag] at htag
      simp [-Bool.exists_bool, r.contains_obj, htag, TypeExpr.tag, TypeExpr.toJson,
        Record.header_eq_ok, Path.ofRecord_eq_ok hparts, Record.field_parts hparts,
        Record.optional_parts hparts, Record.list_parts hparts]

theorem PolyTrait.ofRecord_eq_ok {trait : PolyTrait} :
    PolyTrait.ofRecord r parts = .ok trait ↔ v.Contains trait.toJson := by
  obtain ⟨trait, params⟩ := trait
  simp [PolyTrait.ofRecord, PolyTrait.toJson, r.contains_obj, Record.field_parts hparts,
    Record.list_parts hparts]

theorem GenericArgs.ofRecord_eq_ok {args : GenericArgs} :
    GenericArgs.ofRecord r parts = .ok args ↔ v.Contains args.toJson := by
  cases args
  all_goals
    refine Record.tagged_eq_ok ⟨_, rfl⟩ (fun s h => ?_) (fun htag => ?_)
    · split at h <;> simp [Record.unknownTag] at h ⊢
    · simp [r.contains_obj, htag, GenericArgs.toJson, Record.optional_parts hparts,
        Record.list_parts hparts]

theorem GenericArg.ofRecord_eq_ok {arg : GenericArg} :
    GenericArg.ofRecord r parts = .ok arg ↔ v.Contains arg.toJson := by
  cases arg
  all_goals
    refine Record.tagged_eq_ok ⟨_, rfl⟩ (fun s h => ?_) (fun htag => ?_)
    · split at h <;> simp [Record.unknownTag] at h ⊢
    · simp [r.contains_obj, htag, GenericArg.toJson, Constant.ofRecord_eq_ok hparts,
        Record.field_parts hparts]

theorem Binding.ofRecord_eq_ok {binding : Binding} :
    Binding.ofRecord r parts = .ok binding ↔ v.Contains binding.toJson := by
  obtain ⟨name, args, kind⟩ := binding
  simp [Binding.ofRecord, Binding.toJson, r.contains_obj, Record.field_parts hparts]

theorem BindingKind.ofRecord_eq_ok {kind : BindingKind} :
    BindingKind.ofRecord r parts = .ok kind ↔ v.Contains kind.toJson := by
  cases kind
  all_goals
    refine Record.tagged_eq_ok ⟨_, rfl⟩ (fun s h => ?_) (fun htag => ?_)
    · split at h <;> simp [Record.unknownTag] at h ⊢
    · simp [r.contains_obj, htag, BindingKind.toJson, Record.field_parts hparts,
        Record.list_parts hparts]

theorem Term.ofRecord_eq_ok {term : Term} :
    Term.ofRecord r parts = .ok term ↔ v.Contains term.toJson := by
  cases term
  all_goals
    refine Record.tagged_eq_ok ⟨_, rfl⟩ (fun s h => ?_) (fun htag => ?_)
    · split at h <;> simp [Record.unknownTag] at h ⊢
    · simp [r.contains_obj, htag, Term.toJson, Constant.ofRecord_eq_ok hparts,
        Record.field_parts hparts]

/-- An input of a function is read as a pair. -/
theorem FnDecl.exact_readInput :
    Reading.Exact (FnDecl.readInput parts)
      fun input => .arr [.str input.1, TypeExpr.toJson input.2] :=
  fun w _ => Json.readPair_eq_ok (fun _ _ => Json.asString_eq_ok)
    fun part type => hparts .typeExpr (w.widen part) type

theorem FnDecl.ofRecord_eq_ok {decl : FnDecl} :
    FnDecl.ofRecord r parts = .ok decl ↔ v.Contains decl.toJson := by
  obtain ⟨inputs, output, isVariadic⟩ := decl
  have hinputs {inputs} : r.list "inputs" (FnDecl.readInput parts) = .ok inputs ↔ _ :=
    Record.list_eq_ok (FnDecl.exact_readInput hparts) (by simp)
  simp [-Bool.exists_bool, FnDecl.ofRecord, FnDecl.toJson, r.contains_obj, hinputs,
    Record.optional_parts hparts]

theorem Param.ofRecord_eq_ok {param : Param} :
    Param.ofRecord r parts = .ok param ↔ v.Contains param.toJson := by
  obtain ⟨name, kind⟩ := param
  simp [Param.ofRecord, Param.toJson, r.contains_obj, Record.field_parts hparts]

theorem ParamKind.ofRecord_eq_ok {kind : ParamKind} :
    ParamKind.ofRecord r parts = .ok kind ↔ v.Contains kind.toJson := by
  cases kind
  all_goals
    refine Record.tagged_eq_ok ⟨_, rfl⟩ (fun s h => ?_) (fun htag => ?_)
    · split at h <;> simp [Record.unknownTag] at h ⊢
    · simp [-Bool.exists_bool, r.contains_obj, htag, ParamKind.toJson, Record.field_parts hparts,
         Record.optional_parts hparts, Record.list_parts hparts]

theorem Bound.ofRecord_eq_ok {bound : Bound} :
    Bound.ofRecord r parts = .ok bound ↔ v.Contains bound.toJson := by
  have hmodifier {modifier} :
      r.field "modifier" (Json.asVariant .modifier Modifier.ofName? ·) = .ok modifier ↔
        Json.HasField r.members "modifier" modifier.toJson :=
    Record.field_eq_ok (fun _ _ => Json.asVariant_eq_ok Modifier.ofName?_name) (by simp)
      fun _ => by simp
  cases bound
  all_goals
    refine Record.tagged_eq_ok ⟨_, rfl⟩ (fun s h => ?_) (fun htag => ?_)
    · split at h <;> simp [Record.unknownTag] at h ⊢
    · simp [r.contains_obj, htag, Bound.toJson, hmodifier, Record.field_parts hparts,
        Record.list_parts hparts]

theorem Category.ofRecord_eq_ok (category : Category) {a : category.Value} :
    Category.ofRecord r parts category = .ok a ↔ v.Contains (category.toJson a) := by
  cases category with
  | typeExpr => exact TypeExpr.ofRecord_eq_ok hparts
  | path => exact (Path.ofRecord_eq_ok hparts).trans r.contains_obj.symm
  | polyTrait => exact PolyTrait.ofRecord_eq_ok hparts
  | genericArgs => exact GenericArgs.ofRecord_eq_ok hparts
  | genericArg => exact GenericArg.ofRecord_eq_ok hparts
  | binding => exact Binding.ofRecord_eq_ok hparts
  | bindingKind => exact BindingKind.ofRecord_eq_ok hparts
  | term => exact Term.ofRecord_eq_ok hparts
  | fnDecl => exact FnDecl.ofRecord_eq_ok hparts
  | param => exact Param.ofRecord_eq_ok hparts
  | paramKind => exact ParamKind.ofRecord_eq_ok hparts
  | bound => exact Bound.ofRecord_eq_ok hparts

end

/-- A value of any category is read from precisely the values that contain its written form. -/
theorem Category.read_eq_ok (category : Category) (v : Json) {a : category.Value} :
    category.read v = .ok a ↔ v.Contains (category.toJson a) := by
  rw [Category.read]
  refine Record.asRecord_bind_eq_ok (category.kind_toJson a) fun r => ?_
  -- The parts of a value are smaller, whatever their category.
  exact Category.ofRecord_eq_ok (fun inner part b => inner.read_eq_ok part.val) category
termination_by sizeOf v
decreasing_by exact part.property

theorem Category.exact_read :
    PartReader.Exact (v := v) fun category part => category.read part.val :=
  fun category part _ => category.read_eq_ok part.val

namespace Record

variable (hkey : key ∉ Json.specialKeys)
include hkey

theorem type_eq_ok {type : TypeExpr} :
    r.field key (TypeExpr.read ·) = .ok type ↔ Json.HasField r.members key type.toJson :=
  field_parts Category.exact_read .typeExpr hkey

theorem type?_eq_ok {type : Option TypeExpr} :
    r.optional key (TypeExpr.read ·) = .ok type ↔
      Json.HasField r.members key (type.elim .null TypeExpr.toJson) :=
  optional_parts Category.exact_read .typeExpr hkey

theorem term_eq_ok {term : Term} :
    r.field key (Term.read ·) = .ok term ↔ Json.HasField r.members key term.toJson :=
  field_parts Category.exact_read .term hkey

theorem decl_eq_ok {decl : FnDecl} :
    r.field key (FnDecl.read ·) = .ok decl ↔ Json.HasField r.members key decl.toJson :=
  field_parts Category.exact_read .fnDecl hkey

theorem params_eq_ok {params : List Param} :
    r.list key (Param.read ·) = .ok params ↔
      Json.HasField r.members key (.arr (params.map Param.toJson)) :=
  list_parts Category.exact_read .param hkey

theorem bounds_eq_ok {bounds : List Bound} :
    r.list key (Bound.read ·) = .ok bounds ↔
      Json.HasField r.members key (.arr (bounds.map Bound.toJson)) :=
  list_parts Category.exact_read .bound hkey

end Record

end CrateDocs
