import CrateDocs.Proofs.Json.Integers
import CrateDocs.Proofs.Json.WrittenForm

/-!
# What is written is integral

Nothing but crate numbers, positions and the version is written as a number, and these are unsigned
integers of at most 64 bits.
-/

namespace CrateDocs

open Json

namespace Json

variable {α : Type} {write : α → Json}

theorem integralItems_map {as : List α} :
    IntegralItems (as.map write) ↔ ∀ a ∈ as, (write a).Integral := by
  induction as with
  | nil => simp [IntegralItems]
  | cons a as ih => rw [List.map_cons, IntegralItems, ih, List.forall_mem_cons]

theorem integralMembers_map {as : List α} {write : α → String × Json} :
    IntegralMembers (as.map write) ↔ ∀ a ∈ as, (write a).2.Integral :=
  integralMembers_iff.trans List.forall_mem_map

theorem integral_elim {a : Option α} :
    (a.elim .null write).Integral ↔ ∀ b, a = some b → (write b).Integral := by
  cases a <;> simp [Integral]

@[simp] theorem integral_ofStrings (strings : List String) : (ofStrings strings).Integral :=
  integralItems_map.2 fun _ _ => trivial

@[simp] theorem integral_ofIds (ids : List ItemId) : (ofIds ids).Integral :=
  integralItems_map.2 fun _ _ => trivial

theorem integral_ofNat {n : Nat} (h : n < UInt64.size) : (ofNat n).Integral := by
  have hmin : Int64.minValue.toInt ≤ 0 := by decide
  exact ⟨by omega, by omega⟩

@[simp] theorem integral_ofUInt32 (n : UInt32) : (ofNat n.toNat).Integral :=
  integral_ofNat (Nat.lt_trans n.toNat_lt (by decide))

@[simp] theorem integral_ofUInt64 (n : UInt64) : (ofNat n.toNat).Integral :=
  integral_ofNat n.toNat_lt

end Json

@[simp] theorem Header.integral_toJson (header : Header) : header.toJson.Integral := by
  obtain ⟨isConst, isUnsafe, isAsync, abi⟩ := header
  cases abi <;> simp [Header.toJson, Abi.toJson, Integral, IntegralMembers]

@[simp] theorem ItemId.integral_toJson (id : ItemId) : id.toJson.Integral :=
  trivial

@[simp] theorem Constant.integralMembers_members (constant : Constant) :
    IntegralMembers constant.members ↔ constant.type.toJson.Integral := by
  cases constant
  simp [Constant.members, IntegralMembers, Integral, integral_elim]

/-- A value is written without other numbers if and only if its parts are. -/
theorem Category.integral_toJson_iff (category : Category) (a : category.Value) :
    (category.toJson a).Integral ↔
      ∀ part ∈ category.parts a, (part.1.toJson part.2).Integral := by
  cases category <;> cases a
  all_goals
    simp only [parts, List.forall_mem_cons, List.forall_mem_append, List.forall_mem_map,
      Option.mem_toList]
    simp [Integral, IntegralMembers, IntegralItems, integralItems_map, integral_elim,
      TypeExpr.toJson, Path.members, PolyTrait.toJson, GenericArgs.toJson, GenericArg.toJson,
      Binding.toJson, BindingKind.toJson, Term.toJson, FnDecl.toJson, Param.toJson,
      ParamKind.toJson, Bound.toJson, Modifier.toJson]

theorem Category.integral_toJson (category : Category) (a : category.Value) :
    (category.toJson a).Integral := by
  induction category, a using Category.induction with
  | step category a ih => exact (integral_toJson_iff category a).2 ih

@[simp] theorem TypeExpr.integral_toJson (type : TypeExpr) : type.toJson.Integral :=
  Category.integral_toJson .typeExpr type

@[simp] theorem Term.integral_toJson (term : Term) : term.toJson.Integral :=
  Category.integral_toJson .term term

@[simp] theorem FnDecl.integral_toJson (decl : FnDecl) : decl.toJson.Integral :=
  Category.integral_toJson .fnDecl decl

@[simp] theorem Param.integral_toJson (param : Param) : param.toJson.Integral :=
  Category.integral_toJson .param param

@[simp] theorem Bound.integral_toJson (bound : Bound) : bound.toJson.Integral :=
  Category.integral_toJson .bound bound

@[simp] theorem WherePredicate.integral_toJson (predicate : WherePredicate) :
    predicate.toJson.Integral := by
  cases predicate <;>
    simp [toJson, Integral, IntegralMembers, integralItems_map]

@[simp] theorem Generics.integral_toJson (generics : Generics) : generics.toJson.Integral := by
  simp [toJson, Integral, IntegralMembers, integralItems_map]

@[simp] theorem Payload.integral_toJson (payload : Payload) : payload.toJson.Integral := by
  rcases payload with _ | _ | ⟨⟨_, _, _ | _, _⟩⟩ | _ | _ | _ | _ | ⟨⟨_, _, _, _ | _⟩⟩
  all_goals
    simp [toJson, members, tag, Signature.members, Integral, IntegralMembers, integralItems_map,
      integral_elim, StructStyle.toJson, Discriminant.toJson, MacroStyle.toJson]

@[simp] theorem Visibility.integral_toJson (visibility : Visibility) :
    visibility.toJson.Integral := by
  cases visibility <;> simp [toJson, Integral, IntegralMembers]

@[simp] theorem Span.integral_toJson (span : Span) : span.toJson.Integral := by
  simp [toJson, Position.toJson, Integral, IntegralMembers, IntegralItems]

@[simp] theorem Deprecation.integral_toJson (deprecation : Deprecation) :
    deprecation.toJson.Integral := by
  simp [toJson, Integral, IntegralMembers, integral_elim]

@[simp] theorem Item.integral_toJson (item : Item) : item.toJson.Integral := by
  obtain ⟨id, crateId, name, span, visibility, docs, links, attrs, deprecation, payload⟩ := item
  cases span <;> cases deprecation <;>
    simp [toJson, Integral, IntegralMembers, integral_elim, integralMembers_map]

@[simp] theorem ItemSummary.integral_toJson (summary : ItemSummary) :
    summary.toJson.Integral := by
  simp [toJson, Integral, IntegralMembers]

@[simp] theorem ExternalCrate.integral_toJson (crate : ExternalCrate) :
    crate.toJson.Integral := by
  simp [toJson, Integral, IntegralMembers, integral_elim]

theorem Crate.integral_toJson (crate : Crate) : crate.toJson.Integral := by
  simp [toJson, Integral, IntegralMembers, integral_elim, integralMembers_map]

/-- The numbers in the document of a crate are unsigned integers. -/
theorem Crate.integral_encode (crate : Crate) : crate.encode.Integral :=
  crate.integral_toJson.canonical

end CrateDocs
