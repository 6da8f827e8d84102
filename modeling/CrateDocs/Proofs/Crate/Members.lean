import CrateDocs.Crate.Members
import CrateDocs.Proofs.Crate.Coherence
import CrateDocs.Proofs.Crate.Dangling

/-!
# No member is lost silently

The validator finds once, for the whole crate, which identifiers lead nowhere. A module that is
walked through decides the same again for each of its members. The two agree: what the walk passes
over has been reported, possibly with another item as its referrer.
-/

namespace CrateDocs

variable {mode : Mode} {document : Json} {decoded : Decoded} {crate : Crate} {item : Item}
  {key id : ItemId}

/-- Whether an error says that an identifier leads nowhere. -/
def DecodeError.isDanglingTo (id : ItemId) : DecodeError → Bool
  | .danglingReference missing _ => missing == id
  | _ => false

/-- Whether some report names an identifier as leading nowhere. -/
def Decoded.reports (decoded : Decoded) (id : ItemId) : Bool :=
  decoded.diagnostics.any (DecodeError.isDanglingTo id)

theorem Decoded.reports_iff :
    decoded.reports id ↔ ∃ referrer, .danglingReference id referrer ∈ decoded.diagnostics := by
  unfold reports
  rw [List.any_eq_true]
  constructor
  · intro h
    rcases h with ⟨error, hmem, herror⟩
    unfold DecodeError.isDanglingTo at herror
    split at herror
    · rename_i missing referrer
      rw [eq_of_beq herror] at hmem
      exact ⟨referrer, hmem⟩
    · cases herror
  · intro h
    rcases h with ⟨referrer, hmem⟩
    exact ⟨_, hmem, beq_self_eq_true id⟩

/-- Whoever is the referrer of the report, an identifier that an item mentions is reported if and
only if it stands for nothing. -/
theorem Decoded.reports_eq_isNone (h : decode mode document = .ok decoded)
    (hitem : decoded.crate.index[key]? = some item) (hid : id ∈ item.mentions) :
    decoded.reports id = (decoded.crate.lookup? id).isNone := by
  have hdangling := Crate.isDangling_danglingMentions (wellFormed_of_decode h)
  rw [Item.mentions_eq_references] at hid
  rw [Bool.eq_iff_iff, reports_iff, exists_danglingReference_iff h, hdangling.mem_iff,
    Option.isNone_iff_eq_none, Crate.lookup?_eq_none]
  constructor
  · intro hmissing
    exact hmissing.2
  · intro hmissing
    exact ⟨⟨key, item, hitem, hid⟩, hmissing⟩

namespace Members

variable {members rest : Members} {node : Node} {calls : Nat}

/-- A call passes over what the crate does not describe, up to the first member that it does. -/
theorem exists_skipped_of_next_eq_some (h : members.next crate = (some node, rest)) :
    ∃ skipped id, members.remaining = skipped ++ id :: rest.remaining ∧
      (∀ other ∈ skipped, crate.lookup? other = none) ∧ crate.lookup? id = some node := by
  obtain ⟨ids⟩ := members
  dsimp only [next] at h ⊢
  induction ids with
  | nil => cases h
  | cons id ids ih =>
    rw [next.go] at h
    cases hid : crate.lookup? id with
    | some other =>
      rw [hid, Prod.mk.injEq, Option.some.injEq] at h
      obtain ⟨rfl, rfl⟩ := h
      exact ⟨[], id, rfl, by simp, hid⟩
    | none =>
      rw [hid] at h
      obtain ⟨skipped, found, heq, hskipped, hfound⟩ := ih h
      refine ⟨id :: skipped, found, ?_, ?_, hfound⟩
      · rw [heq, List.cons_append]
      · exact List.forall_mem_cons.2 ⟨hid, hskipped⟩

/-- A call that finds nothing passes over all that were left. -/
theorem eq_nil_of_next_eq_none (h : members.next crate = (none, rest)) :
    (∀ id ∈ members.remaining, crate.lookup? id = none) ∧ rest.remaining = [] := by
  obtain ⟨ids⟩ := members
  dsimp only [next] at h ⊢
  induction ids with
  | nil =>
    cases h
    exact ⟨List.forall_mem_nil _, rfl⟩
  | cons id ids ih =>
    rw [next.go] at h
    cases hid : crate.lookup? id with
    | some other =>
      rw [hid] at h
      cases h
    | none =>
      rw [hid] at h
      obtain ⟨hnone, hrest⟩ := ih h
      exact ⟨List.forall_mem_cons.2 ⟨hid, hnone⟩, hrest⟩

/-- What a number of calls meet, and the members that are still to come after them. -/
def run (crate : Crate) : Nat → Members → List Node × Members
  | 0, members => ([], members)
  | calls + 1, members =>
    let (found, rest) := members.next crate
    let (nodes, final) := run crate calls rest
    (found.toList ++ nodes, final)

/-- Whether a number of calls meet the given nodes of a list and leave the given rest. They read no
further than to the last node that they meet, except that they read the whole list when it has
fewer nodes than there are calls. -/
structure Meets (crate : Crate) (listed : List ItemId) (calls : Nat) (nodes : List Node)
    (rest : Members) : Prop where
  nodes_append : nodes ++ rest.nodes crate = listed.filterMap crate.lookup?
  length_nodes_le : nodes.length ≤ calls
  remaining_eq_nil : nodes.length < calls → rest.remaining = []
  exists_consumed : ∃ consumed, listed = consumed ++ rest.remaining ∧
    nodes = consumed.filterMap crate.lookup? ∧
    (consumed ≠ [] → (consumed.dropLast.filterMap crate.lookup?).length < calls) ∧
    rest.sizeHint.2 = listed.length - consumed.length
  length_nodes_rest_le : (rest.nodes crate).length ≤ rest.sizeHint.2

/-- The facts about a run all follow from what it has consumed. -/
theorem Meets.of_consumed {consumed : List ItemId}
    (hlength : (consumed.filterMap crate.lookup?).length ≤ calls)
    (hrest : (consumed.filterMap crate.lookup?).length < calls → rest.remaining = [])
    (hlast : consumed ≠ [] → (consumed.dropLast.filterMap crate.lookup?).length < calls) :
    Meets crate (consumed ++ rest.remaining) calls (consumed.filterMap crate.lookup?) rest where
  nodes_append := by rw [nodes, List.filterMap_append]
  length_nodes_le := hlength
  remaining_eq_nil := hrest
  exists_consumed := by
    refine ⟨consumed, rfl, rfl, hlast, ?_⟩
    rw [sizeHint, List.length_append]
    omega
  length_nodes_rest_le := List.length_filterMap_le _ _

/-- A call that finds a member, before others. -/
theorem Meets.of_next_eq_some {nodes : List Node} {final : Members}
    (hnext : members.next crate = (some node, rest))
    (h : Meets crate rest.remaining calls nodes final) :
    Meets crate members.remaining (calls + 1) (node :: nodes) final := by
  obtain ⟨skipped, id, heq, hskipped, hnode⟩ := exists_skipped_of_next_eq_some hnext
  obtain ⟨consumed, hremaining, rfl, hlast, -⟩ := h.exists_consumed
  have hnone := List.filterMap_eq_nil_iff.2 hskipped
  have hnodes {ids : List ItemId} :
      (skipped ++ id :: ids).filterMap crate.lookup? = node :: ids.filterMap crate.lookup? := by
    rw [List.filterMap_append, hnone, List.nil_append,
      List.filterMap_cons_some hnode]
  have hlength := h.length_nodes_le
  rw [heq, hremaining, ← hnodes, ← List.cons_append, ← List.append_assoc]
  apply Meets.of_consumed
  · rw [hnodes, List.length_cons]
    omega
  · intro hlt
    rw [hnodes, List.length_cons] at hlt
    exact h.remaining_eq_nil (by omega)
  · intro _
    rw [List.dropLast_append_of_ne_nil (List.cons_ne_nil id consumed)]
    cases consumed with
    | nil =>
      rw [List.dropLast_singleton, List.append_nil, hnone]
      exact Nat.succ_pos calls
    | cons other others =>
      have hlast := hlast (List.cons_ne_nil other others)
      rw [List.dropLast_cons_cons, hnodes, List.length_cons]
      omega

/-- A call that finds nothing, before others, which find nothing either. -/
theorem Meets.of_next_eq_none {nodes : List Node} {final : Members}
    (hnext : members.next crate = (none, rest))
    (h : Meets crate rest.remaining calls nodes final) :
    Meets crate members.remaining (calls + 1) nodes final := by
  obtain ⟨hskipped, hrest⟩ := eq_nil_of_next_eq_none hnext
  obtain ⟨consumed, hremaining, rfl, -⟩ := h.exists_consumed
  rw [hrest, List.nil_eq, List.append_eq_nil_iff] at hremaining
  obtain ⟨rfl, hfinal⟩ := hremaining
  have hnone := List.filterMap_eq_nil_iff.2 hskipped
  have hlast : members.remaining.dropLast.filterMap crate.lookup? = [] := by
    have hsublist := (List.dropLast_sublist members.remaining).filterMap crate.lookup?
    rwa [hnone, List.sublist_nil] at hsublist
  have hall : Meets crate (members.remaining ++ final.remaining) (calls + 1)
      (members.remaining.filterMap crate.lookup?) final := by
    apply Meets.of_consumed
    · rw [hnone]
      exact Nat.zero_le (calls + 1)
    · intro _
      exact hfinal
    · intro _
      rw [hlast]
      exact Nat.succ_pos calls
  rwa [hnone, hfinal, List.append_nil] at hall

theorem meets_run (crate : Crate) (calls : Nat) (members : Members) :
    Meets crate members.remaining calls (run crate calls members).1
      (run crate calls members).2 := by
  induction calls generalizing members with
  | zero =>
    have h : Meets crate ([] ++ members.remaining) 0 ([].filterMap crate.lookup?) members := by
      apply Meets.of_consumed
      · exact Nat.le_refl 0
      · intro hlt
        exact absurd hlt (Nat.lt_irrefl 0)
      · intro hne
        exact absurd rfl hne
    exact h
  | succ calls ih =>
    rw [run]
    rcases hnext : members.next crate with ⟨found, rest⟩
    cases found with
    | some node => exact (ih rest).of_next_eq_some hnext
    | none => exact (ih rest).of_next_eq_none hnext

end Members

namespace Crate

/-- Whether an identifier has a summary only. -/
def summarizesOnly (crate : Crate) (id : ItemId) : Bool :=
  crate.paths.contains id && !crate.index.contains id

theorem WellFormed.map_id_filterMap_lookup? (hcrate : crate.WellFormed) (ids : List ItemId) :
    (ids.filterMap crate.lookup?).map Node.id = ids.filter fun id => (crate.lookup? id).isSome := by
  induction ids with
  | nil => rfl
  | cons id ids ih =>
    cases hnode : crate.lookup? id with
    | some node =>
      rw [List.filterMap_cons_some hnode, List.map_cons, ih, hcrate.id_of_lookup? hnode,
        List.filter_cons_of_pos (by rw [hnode]; rfl)]
    | none =>
      rw [List.filterMap_cons_none hnode, ih, List.filter_cons_of_neg (by rw [hnode]; simp)]

theorem WellFormed.map_id_filterMap_item? (hcrate : crate.WellFormed) (ids : List ItemId) :
    (ids.filterMap crate.item?).map Item.id = ids.filter fun id => crate.index.contains id := by
  induction ids with
  | nil => rfl
  | cons id ids ih =>
    have hcontains : crate.index.contains id = (crate.item? id).isSome :=
      Std.ExtTreeMap.contains_eq_isSome_getElem?
    cases hitem : crate.item? id with
    | some item =>
      have hid : item.id = id := hcrate.id_eq hitem
      rw [List.filterMap_cons_some hitem, List.map_cons, ih, hid,
        List.filter_cons_of_pos (by rw [hcontains, hitem]; rfl)]
    | none =>
      rw [List.filterMap_cons_none hitem, ih,
        List.filter_cons_of_neg (by rw [hcontains, hitem]; simp)]

/-- What is described at all is described in full, or summarized only. -/
theorem contains_index (crate : Crate) (id : ItemId) :
    crate.index.contains id = !((crate.lookup? id).isNone || crate.summarizesOnly id) := by
  have hdescribed : (crate.lookup? id).isSome ↔ id ∈ crate.index ∨ id ∈ crate.paths :=
    isSome_lookup?
  rw [← Std.ExtTreeMap.contains_iff_mem, ← Std.ExtTreeMap.contains_iff_mem] at hdescribed
  unfold summarizesOnly
  cases hlookup : crate.lookup? id <;> cases hindex : crate.index.contains id <;>
    cases hpaths : crate.paths.contains id <;> simp_all

end Crate

/-- The block that an item is, if it implements anything. -/
def Item.impl? (item : Item) : Option Impl :=
  match item.payload with
  | .impl content => some content
  | _ => none

theorem Item.kind_beq_impl (item : Item) : (item.kind == .impl) = item.impl?.isSome := by
  unfold kind impl?
  cases item.payload with
  | procMacro content =>
    obtain ⟨style, helpers⟩ := content
    cases style <;> rfl
  | _ => rfl

namespace Crate

theorem implementationsWhere_eq (crate : Crate) (item : Item) (keep : Option TypeExpr → Bool) :
    crate.implementationsWhere item keep =
      (crate.implementations item).filter fun block => block.impl?.any fun i => keep i.trait := by
  unfold implementationsWhere
  apply List.filter_congr
  intro block _
  unfold Item.impl?
  cases block.payload <;> rfl

/-- Whether the implementations are divided into those of a trait and those of none. Each of the two
parts is in order, and between them they have every block once for each time that it is listed. -/
structure Divides (all inherent ofTrait : List Item) : Prop where
  inherent_sublist : inherent.Sublist all
  ofTrait_sublist : ofTrait.Sublist all
  disjoint : inherent.Disjoint ofTrait
  perm : (inherent ++ ofTrait).Perm (all.filter fun block => block.kind == .impl)

theorem divides_implementations (crate : Crate) (item : Item) :
    Divides (crate.implementations item) (crate.inherentImpls item) (crate.traitImpls item) where
  inherent_sublist := List.filter_sublist
  ofTrait_sublist := List.filter_sublist
  disjoint := by
    intro block hinherent htrait
    unfold inherentImpls at hinherent
    unfold traitImpls at htrait
    rw [implementationsWhere_eq] at hinherent htrait
    have hnone := (List.mem_filter.1 hinherent).2
    have hsome := (List.mem_filter.1 htrait).2
    cases himpl : block.impl? with
    | none =>
      rw [himpl] at hnone
      cases hnone
    | some content =>
      rw [himpl, Option.any_some] at hnone hsome
      rw [Option.isNone_iff_eq_none.1 hnone] at hsome
      cases hsome
  perm := by
    let ofNone (block : Item) : Bool := block.impl?.any fun i => i.trait.isNone
    have hsplit := List.filter_append_perm ofNone
      ((crate.implementations item).filter fun block => block.kind == .impl)
    rw [List.filter_filter, List.filter_filter] at hsplit
    unfold inherentImpls traitImpls
    rw [implementationsWhere_eq, implementationsWhere_eq]
    have hinherent (block : Item) :
        (ofNone block && block.kind == .impl) = block.impl?.any fun i => i.trait.isNone := by
      rw [Item.kind_beq_impl]
      unfold ofNone
      cases block.impl? <;> simp
    have htrait (block : Item) :
        (!ofNone block && block.kind == .impl) = block.impl?.any fun i => i.trait.isSome := by
      rw [Item.kind_beq_impl]
      unfold ofNone
      cases block.impl? <;> simp
    simpa only [hinherent, htrait] using hsplit

end Crate

/-- Whether a payload lists implementations, and which. -/
inductive Payload.ListsImpls : Payload → List ItemId → Prop
  | trait (content : Trait) : ListsImpls (.trait content) content.implementations
  | struct (content : Struct) : ListsImpls (.struct content) content.impls
  | enum (content : Enum) : ListsImpls (.enum content) content.impls
  | union (content : Union) : ListsImpls (.union content) content.impls

theorem Item.implIds_eq {ids : List ItemId} (h : item.payload.ListsImpls ids) :
    item.implIds = ids := by
  unfold implIds
  cases hpayload : item.payload <;> rw [hpayload] at h <;> cases h <;> rfl

theorem Item.mem_mentions_of_listsImpls {ids : List ItemId} (h : item.payload.ListsImpls ids)
    (hid : id ∈ ids) : id ∈ item.mentions := by
  unfold mentions Payload.mentions
  apply List.mem_append_right
  cases hpayload : item.payload <;> rw [hpayload] at h <;> cases h <;>
    simp [Payload.gather, hid]

theorem Item.mem_mentions_of_module {content : Module} (h : item.payload = .module content)
    (hid : id ∈ content.items) : id ∈ item.mentions := by
  unfold mentions Payload.mentions
  apply List.mem_append_right
  simpa [h, Payload.gather] using hid

/-- Whether a walk through a module loses only members that are reported. -/
structure Decoded.KeepsMembers (decoded : Decoded) (item : Item) (listed : List ItemId) : Prop where
  map_id_children : (decoded.crate.children item).map Node.id =
    listed.filter fun id => !decoded.reports id
  meets : ∀ calls, ∃ nodes rest, item.members.run decoded.crate calls = (nodes, rest) ∧
    Members.Meets decoded.crate listed calls nodes rest

/-- Whether the implementations are those listed, but for the reported ones and those that have a
summary only. -/
structure Decoded.KeepsImpls (decoded : Decoded) (item : Item) (listed : List ItemId) : Prop where
  map_id_implementations : (decoded.crate.implementations item).map Item.id =
    listed.filter fun id => !(decoded.reports id || decoded.crate.summarizesOnly id)
  divides : Crate.Divides (decoded.crate.implementations item) (decoded.crate.inherentImpls item)
    (decoded.crate.traitImpls item)

theorem Decoded.keepsMembers (h : decode mode document = .ok decoded) {content : Module}
    (hitem : decoded.crate.index[key]? = some item) (hpayload : item.payload = .module content) :
    decoded.KeepsMembers item content.items := by
  have hmembers : item.members = ⟨content.items⟩ := by
    rw [Item.members, hpayload]
  constructor
  · unfold Crate.children Members.nodes
    rw [hmembers, (wellFormed_of_decode h).map_id_filterMap_lookup?]
    apply List.filter_congr
    intro id hid
    rw [reports_eq_isNone h hitem (Item.mem_mentions_of_module hpayload hid), Option.not_isNone]
  · intro calls
    have hmeets := Members.meets_run decoded.crate calls item.members
    rw [hmembers] at hmeets ⊢
    exact ⟨_, _, rfl, hmeets⟩

theorem Decoded.keepsImpls (h : decode mode document = .ok decoded) {ids : List ItemId}
    (hitem : decoded.crate.index[key]? = some item) (hlists : item.payload.ListsImpls ids) :
    decoded.KeepsImpls item ids := by
  constructor
  · unfold Crate.implementations
    rw [Item.implIds_eq hlists, (wellFormed_of_decode h).map_id_filterMap_item?]
    apply List.filter_congr
    intro id hid
    rw [reports_eq_isNone h hitem (Item.mem_mentions_of_listsImpls hlists hid),
      Crate.contains_index]
  · exact decoded.crate.divides_implementations item

/-- After every decoding, in whichever mode, and for every item that is kept: a walk through a
module loses nothing but what is reported, and the implementations of a type or a trait are those
that are listed, unless they are reported or have a summary only. -/
theorem listings_of_decode (h : decode mode document = .ok decoded)
    (hitem : decoded.crate.index[key]? = some item) :
    (∀ content, item.payload = .module content → decoded.KeepsMembers item content.items) ∧
      ∀ ids, item.payload.ListsImpls ids → decoded.KeepsImpls item ids := by
  constructor
  · intro content hpayload
    exact Decoded.keepsMembers h hitem hpayload
  · intro ids hlists
    exact Decoded.keepsImpls h hitem hlists

/-- A crate whose module and whose struct list some of the same identifiers that lead nowhere. One
more identifier has a summary only. -/
def brokenListings : Json :=
  let ids (ids : List String) : Json := .arr (ids.map .str)
  BareCrate.document {
    index := [
      BareItem.entry { id := "0", inner := bareModule ["1", "9", "2", "9", "1"] },
      BareItem.entry {
        id := "1"
        inner := [
          ("fields", ids []), ("fields_stripped", .bool false),
          ("generics", .obj [("params", .arr []), ("where_predicates", .arr [])]),
          ("impls", ids ["0", "9", "2", "8", "0"]), ("struct_type", .str "Unit"),
          ("tag", .str "Struct")] }]
    paths := .obj [bareSummary "2" "Impl" ["lost"]] }

theorem listings_of_brokenListings :
    ∃ (decoded : Decoded) (module type : Item),
      decode .lenient brokenListings = .ok decoded ∧
      decoded.crate.index[(⟨"0"⟩ : ItemId)]? = some module ∧
      decoded.crate.index[(⟨"1"⟩ : ItemId)]? = some type ∧
      decoded.diagnostics = [.danglingReference ⟨"9"⟩ ⟨"0"⟩, .danglingReference ⟨"8"⟩ ⟨"1"⟩] ∧
      (decoded.crate.children module).map Node.id = [⟨"1"⟩, ⟨"2"⟩, ⟨"1"⟩] ∧
      (decoded.crate.implementations type).map Item.id = [⟨"0"⟩, ⟨"0"⟩] := by
  have h : decode .lenient brokenListings = .ok _ := rfl
  have hmodule := (@listings_of_decode _ _ _ _ ⟨"0"⟩ h rfl).1 _ rfl
  have htype := (@listings_of_decode _ _ _ _ ⟨"1"⟩ h rfl).2 _ (.struct _)
  refine ⟨_, _, _, h, rfl, rfl, by decide +kernel, ?_, ?_⟩
  · rw [hmodule.map_id_children]
    decide +kernel
  · rw [htype.map_id_implementations]
    decide +kernel

end CrateDocs
