import CrateDocs.Crate.Members
import CrateDocs.Crate.Suggest
import CrateDocs.Proofs.Crate.Dangling
import CrateDocs.Proofs.Renaming.Basic
import CrateDocs.Proofs.Renaming.Item

/-!
# Identifiers have no inner structure

Whether a crate is checked or asked a question, its identifiers are only compared. So when all of
them are renamed, consistently and in the same order, every check and every answer is renamed in
the same way.
-/

namespace CrateDocs

section

variable (f : ItemId → ItemId)

def Mention.mapIds (mention : Mention) : Mention :=
  ⟨f mention.id, f mention.referrer⟩

def DecodeError.mapIds : DecodeError → DecodeError
  | .danglingReference id referrer => .danglingReference (f id) (f referrer)
  | .invalidRoot root problem => .invalidRoot (f root) problem
  | .keyMismatch key id => .keyMismatch (f key) (f id)
  | .malformed => .malformed
  | .fault cause => .fault cause
  | .unsupportedVersion found => .unsupportedVersion found

def Node.mapIds : Node → Node
  | .item i => .item (i.mapIds f)
  | .summary id s => .summary (f id) s

def Members.mapIds (members : Members) : Members :=
  ⟨members.remaining.map f⟩

def Suggestion.mapIds (suggestion : Suggestion) : Suggestion :=
  { suggestion with id := f suggestion.id }

end

variable (ρ : Renaming)

/-- The same crate under other identifiers. -/
def Crate.rename (crate : Crate) : Crate :=
  { crate with
    root := ρ crate.root
    index := crate.index.rename ρ (Item.mapIds ρ)
    paths := crate.paths.rename ρ id }

theorem Mention.firsts_map {seen seen' : Std.ExtTreeSet ItemId compare}
    (hseen : ∀ id, ρ id ∈ seen' ↔ id ∈ seen) (mentions : List Mention) :
    Mention.firsts seen' (mentions.map (Mention.mapIds ρ)) =
      (Mention.firsts seen mentions).map (Mention.mapIds ρ) := by
  -- The two sets grow together, so the hypothesis on them is kept from mention to mention.
  induction mentions generalizing seen seen' with
  | nil => rfl
  | cons mention mentions ih =>
    rw [List.map_cons]
    by_cases h : mention.id ∈ seen
    · have h' : (mention.mapIds ρ).id ∈ seen' := (hseen _).2 h
      rw [firsts_cons_of_mem h, firsts_cons_of_mem h']
      exact ih hseen
    · have h' : (mention.mapIds ρ).id ∉ seen' := fun hmem => h ((hseen _).1 hmem)
      rw [firsts_cons_of_notMem h, firsts_cons_of_notMem h', List.map_cons]
      refine congrArg _ (ih fun id => ?_)
      rw [mem_insert_iff, mem_insert_iff, hseen]
      exact or_congr_left ρ.injective.eq_iff

namespace Crate

variable (crate : Crate)

@[simp] theorem describes_rename (id : ItemId) :
    (crate.rename ρ).describes (ρ id) = crate.describes id := by
  simp [describes, rename]

theorem mentions_rename :
    (crate.rename ρ).mentions = crate.mentions.map (Mention.mapIds ρ) := by
  simp only [mentions, rename, Table.toList_rename, List.flatMap_map, List.map_flatMap,
    Item.mentions_mapIds, List.map_map]
  rfl

theorem danglingReferences_rename :
    (crate.rename ρ).danglingReferences =
      crate.danglingReferences.map (DecodeError.mapIds ρ) := by
  have hfilter : (crate.rename ρ).mentions.filter
        (fun mention => !(crate.rename ρ).describes mention.id) =
      (crate.mentions.filter fun mention => !crate.describes mention.id).map
        (Mention.mapIds ρ) := by
    rw [mentions_rename, List.filter_map]
    congr 2
    funext mention
    exact congrArg _ (crate.describes_rename ρ mention.id)
  have hempty (id : ItemId) : ρ id ∈ (∅ : Std.ExtTreeSet ItemId compare) ↔
      id ∈ (∅ : Std.ExtTreeSet ItemId compare) := by simp
  rw [danglingReferences, danglingMentions, hfilter, Mention.firsts_map ρ hempty,
    danglingReferences, danglingMentions, List.map_map, List.map_map]
  rfl

theorem checkRoot_rename :
    (crate.rename ρ).checkRoot = crate.checkRoot.mapError (DecodeError.mapIds ρ) := by
  have hroot : (crate.rename ρ).index[(crate.rename ρ).root]? =
      crate.index[crate.root]?.map (Item.mapIds ρ) :=
    crate.index.getElem?_rename ρ _ crate.root
  rw [checkRoot, checkRoot, hroot]
  cases crate.index[crate.root]? with
  | none => rfl
  | some item =>
    rw [Option.map_some]
    dsimp only
    rw [Item.payload_mapIds]
    cases item.payload <;> rfl

/-- A crate that comes of a decoding could still come of one after it is renamed. -/
theorem WellFormed.rename {crate : Crate} (h : crate.WellFormed) :
    (crate.rename ρ).WellFormed where
  formatVersion_eq := h.formatVersion_eq
  id_eq {id item} hitem := by
    have hmem : (id, item) ∈ (crate.rename ρ).index.toList := Table.mem_toList_iff.2 hitem
    rw [Crate.rename, Table.toList_rename] at hmem
    obtain ⟨⟨key, original⟩, horiginal, heq⟩ := List.mem_map.1 hmem
    cases heq
    rw [Item.id_mapIds, h.id_eq (Table.mem_toList_iff.1 horiginal)]
  root_isModule := by
    rw [← checkRoot_eq_ok, checkRoot_rename, checkRoot_eq_ok.2 h.root_isModule]
    rfl

@[simp] theorem item?_rename (id : ItemId) :
    (crate.rename ρ).item? (ρ id) = (crate.item? id).map (Item.mapIds ρ) :=
  crate.index.getElem?_rename ρ _ id

@[simp] theorem lookup?_rename (id : ItemId) :
    (crate.rename ρ).lookup? (ρ id) = (crate.lookup? id).map (Node.mapIds ρ) := by
  have hpaths : (crate.rename ρ).paths[ρ id]? = crate.paths[id]? :=
    (crate.paths.getElem?_rename ρ _ id).trans Option.map_id'
  rw [lookup?, lookup?, item?_rename, hpaths]
  cases crate.item? id with
  | some item => rfl
  | none =>
    rw [Option.map_none, Option.map_map]
    rfl

theorem rootItem?_rename :
    (crate.rename ρ).rootItem? = crate.rootItem?.map (Item.mapIds ρ) :=
  crate.item?_rename ρ crate.root

theorem pathOf?_rename (id : ItemId) : (crate.rename ρ).pathOf? (ρ id) = crate.pathOf? id := by
  simp [pathOf?, rename]

/-- The smallest identifier with a path is the smallest one still. -/
theorem idAt?_rename (path : ItemPath) :
    (crate.rename ρ).idAt? path = (crate.idAt? path).map ρ := by
  simp only [idAt?, rename, Table.toList_rename, List.find?_map, Option.map_map]
  rfl

theorem lookupPath?_rename (path : ItemPath) :
    (crate.rename ρ).lookupPath? path = (crate.lookupPath? path).map (Node.mapIds ρ) := by
  rw [lookupPath?, lookupPath?, idAt?_rename]
  cases crate.idAt? path with
  | none => rfl
  | some id => exact crate.lookup?_rename ρ id

theorem follow?_rename (item : Item) (text : String) :
    (crate.rename ρ).follow? (item.mapIds ρ) text =
      (crate.follow? item text).map (Node.mapIds ρ) := by
  rw [follow?, follow?, Item.link?_mapIds]
  cases item.link? text with
  | none => rfl
  | some id => exact crate.lookup?_rename ρ id

theorem itemsOfKind_rename (kind : ItemKind) :
    (crate.rename ρ).itemsOfKind kind = (crate.itemsOfKind kind).map (Item.mapIds ρ) := by
  simp only [itemsOfKind, rename, Table.values_rename, List.filter_map, Function.comp_def,
    Item.kind_mapIds]

end Crate

theorem Item.members_mapIds (f : ItemId → ItemId) (item : Item) :
    (item.mapIds f).members = item.members.mapIds f := by
  rw [members, members, payload_mapIds]
  cases item.payload <;> rfl

theorem Item.implIds_mapIds (f : ItemId → ItemId) (item : Item) :
    (item.mapIds f).implIds = item.implIds.map f := by
  rw [implIds, implIds, payload_mapIds]
  cases item.payload <;> rfl

namespace Crate

variable (crate : Crate)

theorem next_rename (members : Members) :
    (members.mapIds ρ).next (crate.rename ρ) =
      (members.next crate).map (Option.map (Node.mapIds ρ)) (Members.mapIds ρ) := by
  have hgo (ids : List ItemId) : Members.next.go (crate.rename ρ) (ids.map ρ) =
      (Members.next.go crate ids).map (Option.map (Node.mapIds ρ)) (Members.mapIds ρ) := by
    induction ids with
    | nil => rfl
    | cons id ids ih =>
      rw [List.map_cons, Members.next.go, Members.next.go, lookup?_rename]
      cases crate.lookup? id with
      | some node => rfl
      | none => exact ih
  exact hgo members.remaining

theorem children_rename (item : Item) :
    (crate.rename ρ).children (item.mapIds ρ) = (crate.children item).map (Node.mapIds ρ) := by
  rw [children, children, Item.members_mapIds, Members.nodes, Members.nodes, Members.mapIds]
  dsimp only
  rw [List.filterMap_map, List.map_filterMap]
  exact List.filterMap_congr fun id _ => crate.lookup?_rename ρ id

theorem implementations_rename (item : Item) :
    (crate.rename ρ).implementations (item.mapIds ρ) =
      (crate.implementations item).map (Item.mapIds ρ) := by
  rw [implementations, implementations, Item.implIds_mapIds, List.filterMap_map,
    List.map_filterMap]
  exact List.filterMap_congr fun id _ => crate.item?_rename ρ id

/-- A condition on the trait of a block that does not depend on identifiers selects the same
blocks. -/
theorem implementationsWhere_rename {keep : Option TypeExpr → Bool}
    (hkeep : ∀ trait : Option TypeExpr, keep (trait.map (TypeExpr.mapIds ρ)) = keep trait)
    (item : Item) :
    (crate.rename ρ).implementationsWhere (item.mapIds ρ) keep =
      (crate.implementationsWhere item keep).map (Item.mapIds ρ) := by
  rw [implementationsWhere, implementationsWhere, implementations_rename, List.filter_map]
  refine congrArg _ (List.filter_congr fun block _ => ?_)
  rw [Function.comp_apply, Item.payload_mapIds]
  cases block.payload with
  | impl i => exact hkeep i.trait
  | _ => rfl

theorem inherentImpls_rename (item : Item) :
    (crate.rename ρ).inherentImpls (item.mapIds ρ) =
      (crate.inherentImpls item).map (Item.mapIds ρ) :=
  crate.implementationsWhere_rename ρ (fun _ => Option.isNone_map) item

theorem traitImpls_rename (item : Item) :
    (crate.rename ρ).traitImpls (item.mapIds ρ) =
      (crate.traitImpls item).map (Item.mapIds ρ) :=
  crate.implementationsWhere_rename ρ (fun _ => Option.isSome_map) item

end Crate

/-- Of two suggestions for equally good and equal paths, the smaller identifier decides. -/
theorem Suggestion.order_mapIds (a b : Suggestion) :
    (a.mapIds ρ).order (b.mapIds ρ) = a.order b := by
  simp only [order, mapIds, Renaming.compare_apply]

namespace Crate

variable (crate : Crate)

theorem suggestBy_rename (score : ItemPath → Float) (limit : Nat) :
    (crate.rename ρ).suggestBy score limit =
      (crate.suggestBy score limit).map (Suggestion.mapIds ρ) := by
  have hsort (all : List Suggestion) :
      (all.mergeSort fun a b => (a.order b).isLE).map (Suggestion.mapIds ρ) =
        (all.map (Suggestion.mapIds ρ)).mergeSort fun a b => (a.order b).isLE :=
    List.map_mergeSort fun a _ b _ => by rw [Suggestion.order_mapIds]
  rw [suggestBy, suggestBy, List.map_take, hsort]
  simp only [rename, Table.toList_rename, List.map_map]
  rfl

theorem suggest_rename (text : String) (limit : Nat) :
    (crate.rename ρ).suggest text limit =
      (crate.suggest text limit).map (Suggestion.mapIds ρ) :=
  crate.suggestBy_rename ρ _ limit

/-- Whether every check of a crate and every answer that it gives follows a renaming. -/
structure Follows (crate : Crate) (ρ : Renaming) : Prop where
  wellFormed : crate.WellFormed → (crate.rename ρ).WellFormed
  danglingReferences : (crate.rename ρ).danglingReferences =
    crate.danglingReferences.map (DecodeError.mapIds ρ)
  checkRoot : (crate.rename ρ).checkRoot = crate.checkRoot.mapError (DecodeError.mapIds ρ)
  lookup? : ∀ id, (crate.rename ρ).lookup? (ρ id) = (crate.lookup? id).map (Node.mapIds ρ)
  rootItem? : (crate.rename ρ).rootItem? = crate.rootItem?.map (Item.mapIds ρ)
  pathOf? : ∀ id, (crate.rename ρ).pathOf? (ρ id) = crate.pathOf? id
  next : ∀ members : Members, (members.mapIds ρ).next (crate.rename ρ) =
    (members.next crate).map (Option.map (Node.mapIds ρ)) (Members.mapIds ρ)
  children : ∀ item, (crate.rename ρ).children (item.mapIds ρ) =
    (crate.children item).map (Node.mapIds ρ)
  implementations : ∀ item, (crate.rename ρ).implementations (item.mapIds ρ) =
    (crate.implementations item).map (Item.mapIds ρ)
  inherentImpls : ∀ item, (crate.rename ρ).inherentImpls (item.mapIds ρ) =
    (crate.inherentImpls item).map (Item.mapIds ρ)
  traitImpls : ∀ item, (crate.rename ρ).traitImpls (item.mapIds ρ) =
    (crate.traitImpls item).map (Item.mapIds ρ)
  link? : ∀ (item : Item) text, (item.mapIds ρ).link? text = (item.link? text).map ρ
  follow? : ∀ item text, (crate.rename ρ).follow? (item.mapIds ρ) text =
    (crate.follow? item text).map (Node.mapIds ρ)
  lookupPath? : ∀ path, (crate.rename ρ).lookupPath? path =
    (crate.lookupPath? path).map (Node.mapIds ρ)
  itemsOfKind : ∀ kind, (crate.rename ρ).itemsOfKind kind =
    (crate.itemsOfKind kind).map (Item.mapIds ρ)
  suggest : ∀ text limit, (crate.rename ρ).suggest text limit =
    (crate.suggest text limit).map (Suggestion.mapIds ρ)

/-- Identifiers are opaque: a crate under other identifiers gives the same answers, up to the
renaming. -/
theorem follows_renaming : crate.Follows ρ where
  wellFormed := WellFormed.rename ρ
  danglingReferences := crate.danglingReferences_rename ρ
  checkRoot := crate.checkRoot_rename ρ
  lookup? := crate.lookup?_rename ρ
  rootItem? := crate.rootItem?_rename ρ
  pathOf? := crate.pathOf?_rename ρ
  next := crate.next_rename ρ
  children := crate.children_rename ρ
  implementations := crate.implementations_rename ρ
  inherentImpls := crate.inherentImpls_rename ρ
  traitImpls := crate.traitImpls_rename ρ
  link? := Item.link?_mapIds ρ
  follow? := crate.follow?_rename ρ
  lookupPath? := crate.lookupPath?_rename ρ
  itemsOfKind := crate.itemsOfKind_rename ρ
  suggest := crate.suggest_rename ρ

/-- A crate whose module mentions two items that are not described, with all identifiers under the
number of the crate. -/
theorem follows_brokenMembers :
    ∃ decoded, decode .lenient brokenMembers = .ok decoded ∧
      (decoded.crate.rename (.underPrefix "1:")).danglingReferences =
        [.danglingReference ⟨"1:2"⟩ ⟨"1:0"⟩, .danglingReference ⟨"1:1"⟩ ⟨"1:0"⟩] := by
  have h : decode .lenient brokenMembers = .ok _ := rfl
  have hfollows (crate : Crate) : crate.Follows (.underPrefix "1:") := follows_renaming _ crate
  exact ⟨_, h, (hfollows _).danglingReferences.trans (by decide +kernel)⟩

end Crate

end CrateDocs
