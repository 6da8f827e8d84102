import CrateDocs.Crate.Format
import CrateDocs.Proofs.Exactness.TypeExpr
import CrateDocs.Proofs.Json.Regular
import CrateDocs.Proofs.TypeExpr.Parts

/-!
# What is written is regular

The records that are written for items name each field once, and the provided methods of an
implementation are written as strings.
-/

namespace CrateDocs

open Json

namespace Json

variable {α : Type} {write : α → Json}

@[simp] theorem holdsNames_of_ne {key : String} (h : key ≠ "provided_trait_methods") (v : Json) :
    HoldsNames (some key) v :=
  fun heq => absurd (Option.some.inj heq) h

@[simp] theorem holdsNames_ofStrings (key : Option String) (strings : List String) :
    HoldsNames key (ofStrings strings) := by
  intro _ items heq
  cases heq
  exact ⟨strings, rfl⟩

theorem regularItems_map {as : List α} :
    RegularItems (as.map write) ↔ ∀ a ∈ as, (write a).Regular := by
  induction as with
  | nil => simp [RegularItems]
  | cons a as ih => rw [List.map_cons, RegularItems, ih, List.forall_mem_cons]

theorem regular_elim {a : Option α} :
    (a.elim .null write).Regular ↔ ∀ b, a = some b → (write b).Regular := by
  cases a <;> simp [Regular]

@[simp] theorem regular_ofStrings (strings : List String) : (ofStrings strings).Regular :=
  regularItems_map.2 fun _ _ => trivial

@[simp] theorem regular_ofIds (ids : List ItemId) : (ofIds ids).Regular :=
  regularItems_map.2 fun _ _ => trivial

end Json

@[simp] theorem Header.regular_toJson (header : Header) : header.toJson.Regular := by
  obtain ⟨isConst, isUnsafe, isAsync, abi⟩ := header
  cases abi <;> simp [Header.toJson, Abi.toJson, Regular, RegularMembers]

@[simp] theorem ItemId.regular_toJson (id : ItemId) : id.toJson.Regular :=
  trivial

@[simp] theorem Path.map_fst_members (path : Path) :
    path.members.map Prod.fst = ["name", "id", "args"] := by
  cases path
  rfl

@[simp] theorem Constant.map_fst_members (constant : Constant) :
    constant.members.map Prod.fst = ["type", "expr", "value", "is_literal"] := by
  cases constant
  rfl

@[simp] theorem Constant.regularMembers_members (constant : Constant) :
    RegularMembers constant.members ↔ constant.type.toJson.Regular := by
  cases constant
  simp [Constant.members, RegularMembers, Regular, regular_elim]

/-- A value is written regularly if and only if its parts are. -/
theorem Category.regular_toJson_iff (category : Category) (a : category.Value) :
    (category.toJson a).Regular ↔
      ∀ part ∈ category.parts a, (part.1.toJson part.2).Regular := by
  cases category <;> cases a
  all_goals
    simp only [parts, List.forall_mem_cons, List.forall_mem_append, List.forall_mem_map,
      Option.mem_toList]
    simp [Regular, RegularMembers, RegularItems, regularItems_map, regular_elim,
      TypeExpr.toJson, Path.members, PolyTrait.toJson, GenericArgs.toJson, GenericArg.toJson,
      Binding.toJson, BindingKind.toJson, Term.toJson, FnDecl.toJson, Param.toJson,
      ParamKind.toJson, Bound.toJson, Modifier.toJson]

theorem Category.regular_toJson (category : Category) (a : category.Value) :
    (category.toJson a).Regular := by
  induction category, a using Category.induction with
  | step category a ih => exact (regular_toJson_iff category a).2 ih

@[simp] theorem TypeExpr.regular_toJson (type : TypeExpr) : type.toJson.Regular :=
  Category.regular_toJson .typeExpr type

@[simp] theorem Term.regular_toJson (term : Term) : term.toJson.Regular :=
  Category.regular_toJson .term term

@[simp] theorem FnDecl.regular_toJson (decl : FnDecl) : decl.toJson.Regular :=
  Category.regular_toJson .fnDecl decl

@[simp] theorem Param.regular_toJson (param : Param) : param.toJson.Regular :=
  Category.regular_toJson .param param

@[simp] theorem Bound.regular_toJson (bound : Bound) : bound.toJson.Regular :=
  Category.regular_toJson .bound bound

@[simp] theorem WherePredicate.regular_toJson (predicate : WherePredicate) :
    predicate.toJson.Regular := by
  cases predicate <;>
    simp [toJson, Regular, RegularMembers, regularItems_map]

@[simp] theorem Generics.regular_toJson (generics : Generics) : generics.toJson.Regular := by
  simp [toJson, Regular, RegularMembers, regularItems_map]

@[simp] theorem Payload.regular_toJson (payload : Payload) : payload.toJson.Regular := by
  rcases payload with _ | _ | ⟨⟨_, _, _ | _, _⟩⟩ | _ | _ | _ | _ | ⟨⟨_, _, _, _ | _⟩⟩
  all_goals
    simp [toJson, members, tag, Signature.members, Regular, RegularMembers, regularItems_map,
      regular_elim, StructStyle.toJson, Discriminant.toJson, MacroStyle.toJson]

@[simp] theorem Visibility.regular_toJson (visibility : Visibility) :
    visibility.toJson.Regular := by
  cases visibility <;> simp [toJson, Regular, RegularMembers]

@[simp] theorem Span.regular_toJson (span : Span) : span.toJson.Regular := by
  simp [toJson, Position.toJson, Json.ofNat, Regular, RegularMembers, RegularItems]

@[simp] theorem Deprecation.regular_toJson (deprecation : Deprecation) :
    deprecation.toJson.Regular := by
  simp [toJson, Regular, RegularMembers, regular_elim]

/-- The links of an item are written regularly, whatever their texts are. -/
theorem Table.regularMembers_links (links : Table String ItemId) :
    RegularMembers (links.toList.map fun (text, id) => (text, id.toJson)) := by
  induction links.toList with
  | nil => trivial
  | cons link rest ih => exact ⟨nofun, trivial, ih⟩

theorem Item.regular_toJson (item : Item) : item.toJson.Regular := by
  obtain ⟨id, crateId, name, span, visibility, docs, links, attrs, deprecation, payload⟩ := item
  have hlinks : (links.toList.map (Prod.fst ∘ fun link => (link.1, link.2.toJson))).Nodup :=
    (Table.ascending_toList links).nodup_keys
  cases span <;> cases deprecation <;>
    simp [toJson, Regular, RegularMembers, regular_elim, hlinks, Table.regularMembers_links,
      Json.ofNat]

theorem ItemSummary.regular_toJson (summary : ItemSummary) : summary.toJson.Regular := by
  simp [toJson, Regular, RegularMembers, Json.ofNat]

theorem ExternalCrate.regular_toJson (crate : ExternalCrate) : crate.toJson.Regular := by
  simp [toJson, Regular, RegularMembers, regular_elim]

end CrateDocs
