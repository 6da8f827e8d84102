import CrateDocs.Proofs.Indifference.Record

/-!
# Type expressions that look alike

The reader of each syntactic category asks for the fields of its layout and for no others, as long
as the readers for the parts do the same. Since the parts of a value are smaller than the value, all
of them do.
-/

namespace CrateDocs

open Reading

variable {v w : Json} {r : Record v} {r' : Record w}

theorem Abi.respects_read : Respects (.record .abi) Abi.read := by
  intro v w h
  unfold Abi.read
  apply Record.Alike.asRecord_bind h
  intro r r' h
  apply h.tagged
  intro tag h
  split
  · rfl
  · rw [h.string rfl]
  · split
    · rename_i hname
      have hunwind : Abi.fields tag = [("unwind", .whole)] := by
        unfold Abi.fields
        split <;> simp_all
      rw [hunwind] at h
      rw [h.bool rfl]
    · rfl

theorem Header.respects_read : Respects (.record .header) Header.read := by
  intro v w h
  apply Record.Alike.asRecord_bind h
  intro r r' h
  rw [h.bool rfl, h.bool rfl, h.bool rfl, h.read rfl Abi.respects_read]

/-- Whether two readers for parts agree on parts that are alike. -/
def PartReader.AgreesWith (parts : PartReader v) (parts' : PartReader w) : Prop :=
  ∀ category, Json.AgreeOn (.record (.fragment category)) (parts category) (parts' category)

section

variable {parts : PartReader v} {parts' : PartReader w} (hparts : parts.AgreesWith parts')
include hparts

theorem Path.ofRecord_congr (h : r.Alike Path.fields r') :
    Path.ofRecord r parts = Path.ofRecord r' parts' := by
  unfold Path.ofRecord
  rw [h.string rfl, h.id rfl, h.optional rfl (hparts .genericArgs)]

theorem Constant.ofRecord_congr (h : r.Alike Constant.fields r') :
    Constant.ofRecord r parts = Constant.ofRecord r' parts' := by
  unfold Constant.ofRecord
  rw [h.field rfl (hparts .typeExpr), h.string rfl, h.string? rfl, h.bool rfl]

theorem TypeExpr.ofRecord_congr
    (h : r.Alike (Category.fields (Json.tag? r.members) .typeExpr) r') :
    TypeExpr.ofRecord r parts = TypeExpr.ofRecord r' parts' := by
  apply h.tagged
  intro tag h
  split
  · rw [Path.ofRecord_congr hparts (h.of_cons rfl)]
  · rw [h.list rfl (hparts .polyTrait), h.string? rfl]
  · rw [h.string rfl]
  · rw [h.string rfl]
  · rw [h.field rfl (hparts .fnDecl), h.list rfl (hparts .param),
      h.read rfl Header.respects_read]
  · rw [h.list rfl (hparts .typeExpr)]
  · rw [h.field rfl (hparts .typeExpr)]
  · rw [h.field rfl (hparts .typeExpr), h.string rfl]
  · rw [h.list rfl (hparts .bound)]
  · rfl
  · rw [h.bool rfl, h.field rfl (hparts .typeExpr)]
  · rw [h.string? rfl, h.bool rfl, h.field rfl (hparts .typeExpr)]
  · rw [h.string rfl, h.field rfl (hparts .genericArgs), h.field rfl (hparts .typeExpr),
      h.optional rfl (hparts .path)]
  · rfl

theorem PolyTrait.ofRecord_congr (h : r.Alike (Category.fields none .polyTrait) r') :
    PolyTrait.ofRecord r parts = PolyTrait.ofRecord r' parts' := by
  unfold PolyTrait.ofRecord
  rw [h.field rfl (hparts .path), h.list rfl (hparts .param)]

theorem GenericArgs.ofRecord_congr
    (h : r.Alike (Category.fields (Json.tag? r.members) .genericArgs) r') :
    GenericArgs.ofRecord r parts = GenericArgs.ofRecord r' parts' := by
  apply h.tagged
  intro tag h
  split
  · rw [h.list rfl (hparts .genericArg), h.list rfl (hparts .binding)]
  · rw [h.list rfl (hparts .typeExpr), h.optional rfl (hparts .typeExpr)]
  · rfl

theorem GenericArg.ofRecord_congr
    (h : r.Alike (Category.fields (Json.tag? r.members) .genericArg) r') :
    GenericArg.ofRecord r parts = GenericArg.ofRecord r' parts' := by
  apply h.tagged
  intro tag h
  split
  · rw [h.string rfl]
  · rw [h.field rfl (hparts .typeExpr)]
  · rw [Constant.ofRecord_congr hparts (h.of_cons rfl)]
  · rfl
  · rfl

theorem Binding.ofRecord_congr (h : r.Alike (Category.fields none .binding) r') :
    Binding.ofRecord r parts = Binding.ofRecord r' parts' := by
  unfold Binding.ofRecord
  rw [h.string rfl, h.field rfl (hparts .genericArgs), h.field rfl (hparts .bindingKind)]

theorem BindingKind.ofRecord_congr
    (h : r.Alike (Category.fields (Json.tag? r.members) .bindingKind) r') :
    BindingKind.ofRecord r parts = BindingKind.ofRecord r' parts' := by
  apply h.tagged
  intro tag h
  split
  · rw [h.field rfl (hparts .term)]
  · rw [h.list rfl (hparts .bound)]
  · rfl

theorem Term.ofRecord_congr (h : r.Alike (Category.fields (Json.tag? r.members) .term) r') :
    Term.ofRecord r parts = Term.ofRecord r' parts' := by
  apply h.tagged
  intro tag h
  split
  · rw [h.field rfl (hparts .typeExpr)]
  · rw [Constant.ofRecord_congr hparts (h.of_cons rfl)]
  · rfl

/-- The inputs of a function are pairs, of which the first is a plain string. -/
theorem FnDecl.readInput_congr :
    Json.AgreeOn (.pair .whole .typeExpr) (FnDecl.readInput parts) (FnDecl.readInput parts') := by
  intro x y hxy
  apply Json.readPair_congr hxy
  · exact Json.agreeOn_of_respects (respects_whole Json.asString)
  · intro type other htype
    exact hparts .typeExpr (x.widen type) (y.widen other) htype

theorem FnDecl.ofRecord_congr (h : r.Alike (Category.fields none .fnDecl) r') :
    FnDecl.ofRecord r parts = FnDecl.ofRecord r' parts' := by
  unfold FnDecl.ofRecord
  rw [h.list rfl (FnDecl.readInput_congr hparts), h.optional rfl (hparts .typeExpr), h.bool rfl]

theorem Param.ofRecord_congr (h : r.Alike (Category.fields none .param) r') :
    Param.ofRecord r parts = Param.ofRecord r' parts' := by
  unfold Param.ofRecord
  rw [h.string rfl, h.field rfl (hparts .paramKind)]

theorem ParamKind.ofRecord_congr
    (h : r.Alike (Category.fields (Json.tag? r.members) .paramKind) r') :
    ParamKind.ofRecord r parts = ParamKind.ofRecord r' parts' := by
  apply h.tagged
  intro tag h
  split
  · rw [h.strings rfl]
  · rw [h.list rfl (hparts .bound), h.optional rfl (hparts .typeExpr), h.bool rfl]
  · rw [h.field rfl (hparts .typeExpr), h.string? rfl]
  · rfl

theorem Bound.ofRecord_congr (h : r.Alike (Category.fields (Json.tag? r.members) .bound) r') :
    Bound.ofRecord r parts = Bound.ofRecord r' parts' := by
  apply h.tagged
  intro tag h
  split
  · rw [h.field rfl (hparts .typeExpr), h.list rfl (hparts .param), h.variant rfl]
  · rw [h.string rfl]
  · rfl

theorem Category.ofRecord_congr {category : Category}
    (h : r.Alike (category.fields (Json.tag? r.members)) r') :
    Category.ofRecord r parts category = Category.ofRecord r' parts' category := by
  cases category with
  | typeExpr => exact TypeExpr.ofRecord_congr hparts h
  | path => exact Path.ofRecord_congr hparts h
  | polyTrait => exact PolyTrait.ofRecord_congr hparts h
  | genericArgs => exact GenericArgs.ofRecord_congr hparts h
  | genericArg => exact GenericArg.ofRecord_congr hparts h
  | binding => exact Binding.ofRecord_congr hparts h
  | bindingKind => exact BindingKind.ofRecord_congr hparts h
  | term => exact Term.ofRecord_congr hparts h
  | fnDecl => exact FnDecl.ofRecord_congr hparts h
  | param => exact Param.ofRecord_congr hparts h
  | paramKind => exact ParamKind.ofRecord_congr hparts h
  | bound => exact Bound.ofRecord_congr hparts h

end

/-- Values of any category that are alike are read alike. -/
theorem Category.read_congr (category : Category) {v w : Json}
    (h : Json.Alike (.record (.fragment category)) v w) : category.read v = category.read w := by
  rw [Category.read, Category.read]
  apply Record.Alike.asRecord_bind h
  intro r r' h
  -- The parts of a value are smaller, whatever their category.
  have hparts (inner : Category) (x : v.Part) (y : w.Part)
      (hxy : Json.Alike (.record (.fragment inner)) x.val y.val) :
      inner.read x.val = inner.read y.val :=
    inner.read_congr hxy
  exact Category.ofRecord_congr hparts h
termination_by sizeOf v
decreasing_by exact x.property

theorem Category.agreesWith_read :
    PartReader.AgreesWith (v := v) (w := w) (fun category part => category.read part.val)
      fun category part => category.read part.val :=
  fun category _ _ h => category.read_congr h

theorem TypeExpr.respects_read : Respects .typeExpr TypeExpr.read :=
  Category.read_congr .typeExpr

theorem Term.respects_read : Respects (.record (.fragment .term)) Term.read :=
  Category.read_congr .term

theorem FnDecl.respects_read : Respects (.record (.fragment .fnDecl)) FnDecl.read :=
  Category.read_congr .fnDecl

theorem Param.respects_read : Respects (.record (.fragment .param)) Param.read :=
  Category.read_congr .param

theorem Bound.respects_read : Respects (.record (.fragment .bound)) Bound.read :=
  Category.read_congr .bound

end CrateDocs
