import CrateDocs.Crate.Lookup
import CrateDocs.Proofs.Crate.Bare
import CrateDocs.Proofs.Crate.Decode

/-!
# Lookups in a crate fit together

An identifier stands for an item or a summary that bears it. Since items are the same only if they
are written in the same way, different identifiers never stand for the same thing.
-/

namespace CrateDocs

/-- An item is read back from what is written for it, so that items which are written in the same
way are equal. -/
theorem Item.eq_of_toJson_eq {a b : Item} (h : a.toJson = b.toJson) : a = b := by
  have hread (item : Item) : Decode.entry item.id.text item.toJson.canonical = .ok item :=
    Decode.entry_of_contains (Json.canonical_canonical _) item.regular_toJson.contains_canonical
  have hmember : Json.str a.id.text = .str b.id.text := by
    have hmembers := Json.obj.inj h
    rw [List.cons.injEq, Prod.mk.injEq] at hmembers
    exact hmembers.1.2
  have hid : a.id.text = b.id.text := Json.str.inj hmember
  have ha := hread a
  rw [h, hid, hread b] at ha
  exact (Except.ok.inj ha).symm

instance : LawfulBEq Item where
  rfl {item} := beq_self_eq_true item.toJson
  eq_of_beq h := Item.eq_of_toJson_eq (eq_of_beq h)

instance : LawfulBEq Node where
  rfl {node} := by
    cases node with
    | item item => exact beq_self_eq_true item
    | summary id summary =>
      exact Bool.and_eq_true_iff.2 ⟨beq_self_eq_true id, beq_self_eq_true summary⟩
  eq_of_beq {a b} h := by
    cases a with
    | item item =>
      cases b with
      | item other => exact congrArg Node.item (eq_of_beq (α := Item) h)
      | summary => cases h
    | summary id summary =>
      cases b with
      | item => cases h
      | summary other otherSummary =>
        obtain ⟨hid, hsummary⟩ := Bool.and_eq_true_iff.1 h
        rw [eq_of_beq hid, eq_of_beq hsummary]

namespace Crate

variable {crate : Crate} {id : ItemId} {node : Node}

/-- Whatever an identifier stands for is an item of the index, or else a summary. -/
theorem eq_of_lookup? (h : crate.lookup? id = some node) :
    (∃ item, crate.index[id]? = some item ∧ node = .item item) ∨
      ∃ summary, crate.index[id]? = none ∧ crate.paths[id]? = some summary ∧
        node = .summary id summary := by
  unfold lookup? item? at h
  cases hindex : crate.index[id]? with
  | some item =>
    rw [hindex, Option.some.injEq] at h
    exact .inl ⟨item, rfl, h.symm⟩
  | none =>
    rw [hindex, Option.map_eq_some_iff] at h
    obtain ⟨summary, hsummary, hnode⟩ := h
    exact .inr ⟨summary, rfl, hsummary, hnode.symm⟩

theorem isSome_lookup? :
    (crate.lookup? id).isSome ↔ id ∈ crate.index ∨ id ∈ crate.paths := by
  rw [Std.ExtTreeMap.mem_iff_isSome_getElem?, Std.ExtTreeMap.mem_iff_isSome_getElem?]
  unfold lookup? item?
  cases crate.index[id]? <;> simp

/-- What an identifier stands for bears that identifier. -/
theorem WellFormed.id_of_lookup? (hcrate : crate.WellFormed) (h : crate.lookup? id = some node) :
    node.id = id := by
  rcases eq_of_lookup? h with ⟨item, hitem, rfl⟩ | ⟨summary, -, -, rfl⟩
  · exact hcrate.id_eq hitem
  · rfl

/-- An item has the path that is recorded for its identifier, and so has a summary. -/
theorem WellFormed.path?_of_lookup? (hcrate : crate.WellFormed)
    (h : crate.lookup? id = some node) : node.path? crate = crate.pathOf? id := by
  rcases eq_of_lookup? h with ⟨item, hitem, rfl⟩ | ⟨summary, -, hsummary, rfl⟩
  · rw [Node.path?, hcrate.id_eq hitem]
  · rw [Node.path?, pathOf?, hsummary, Option.map_some]

/-- Different identifiers stand for different things, as far as they stand for anything. -/
theorem WellFormed.eq_of_lookup?_eq (hcrate : crate.WellFormed) {a b : ItemId}
    (h : crate.lookup? a = crate.lookup? b) : a = b ∨ crate.lookup? a = none := by
  cases ha : crate.lookup? a with
  | none => exact .inr rfl
  | some node =>
    have hb : crate.lookup? b = some node := h.symm.trans ha
    have hid : a = node.id := (hcrate.id_of_lookup? ha).symm
    exact .inl (hid.trans (hcrate.id_of_lookup? hb))

/-- Whether the lookups in a crate fit together: the crate has the one version of the format, items
stand under their identifiers, the root is a module of the index, precisely the identifiers of the
two tables stand for something, and that bears the identifier, lies at its path, and is the same
for no other identifier. -/
structure Coherent (crate : Crate) : Prop where
  formatVersion_eq : crate.formatVersion = 17
  id_eq : ∀ (id : ItemId) (item : Item), crate.index[id]? = some item → item.id = id
  rootItem? : ∃ item, crate.rootItem? = some item ∧ crate.index[crate.root]? = some item ∧
    item.kind = .module
  isSome_lookup? : ∀ id, (crate.lookup? id).isSome ↔ id ∈ crate.index ∨ id ∈ crate.paths
  of_lookup? : ∀ id node, crate.lookup? id = some node →
    node.id = id ∧ node.path? crate = crate.pathOf? id
  beq_lookup? : ∀ a b, (crate.lookup? a == crate.lookup? b) = true ↔
    a = b ∨ crate.lookup? a = none ∧ crate.lookup? b = none

theorem WellFormed.coherent (hcrate : crate.WellFormed) : crate.Coherent where
  formatVersion_eq := hcrate.formatVersion_eq
  id_eq _ _ hitem := hcrate.id_eq hitem
  rootItem? := by
    obtain ⟨item, content, hitem, hpayload⟩ := hcrate.root_isModule
    refine ⟨item, hitem, hitem, ?_⟩
    rw [Item.kind, hpayload]
    rfl
  isSome_lookup? _ := isSome_lookup?
  of_lookup? _ _ h := ⟨hcrate.id_of_lookup? h, hcrate.path?_of_lookup? h⟩
  beq_lookup? a b := by
    rw [beq_iff_eq]
    constructor
    · intro h
      rcases hcrate.eq_of_lookup?_eq h with hid | hnone
      · exact .inl hid
      · exact .inr ⟨hnone, h.symm.trans hnone⟩
    · intro h
      rcases h with rfl | ⟨ha, hb⟩
      · rfl
      · rw [ha, hb]

end Crate

/-- Every decoding, in whichever mode, ends in a crate whose lookups fit together. -/
theorem coherent_of_decode {mode : Mode} {document : Json} {decoded : Decoded}
    (h : decode mode document = .ok decoded) : decoded.crate.Coherent :=
  (wellFormed_of_decode h).coherent

/-- A crate whose root has a summary beside its item, and the same content as the item of another
identifier apart from that identifier. One more identifier has a summary only. -/
def twinModules : Json :=
  BareCrate.document {
    index := [
      BareItem.entry { id := "0", inner := bareModule ["2"] },
      BareItem.entry { id := "1", inner := bareModule ["2"] }]
    paths := .obj [bareSummary "0" "Module" ["twins"], bareSummary "2" "Module" ["twins"]] }

theorem coherent_twinModules :
    ∃ decoded, decode .strict twinModules = .ok decoded ∧
      (decoded.crate.lookup? ⟨"2"⟩).isSome ∧
      (decoded.crate.lookup? ⟨"0"⟩ == decoded.crate.lookup? ⟨"1"⟩) = false ∧
      (decoded.crate.lookup? ⟨"3"⟩ == decoded.crate.lookup? ⟨"4"⟩) = true := by
  have h : decode .strict twinModules = .ok _ := rfl
  have hcoherent := coherent_of_decode h
  refine ⟨_, h, ?_, ?_, ?_⟩
  · exact (hcoherent.isSome_lookup? _).2 (.inr (by decide +kernel))
  · rw [← Bool.not_eq_true, hcoherent.beq_lookup?]
    intro hsame
    rcases hsame with hid | ⟨hnone, -⟩
    · exact absurd hid (by decide)
    · have hsome := (hcoherent.isSome_lookup? ⟨"0"⟩).2 (.inl (by decide +kernel))
      rw [hnone] at hsome
      cases hsome
  · exact (hcoherent.beq_lookup? _ _).2 (.inr ⟨by rfl, by rfl⟩)

end CrateDocs
