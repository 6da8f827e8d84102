import CrateDocs.Crate.Lookup
import CrateDocs.Proofs.Crate.Bare
import CrateDocs.Proofs.Crate.Decode
import CrateDocs.Proofs.Crate.Firsts
import CrateDocs.Proofs.Survey.Mentions

/-!
# Dangling references are reported exactly

Of an item that is not described every mention is found, and the first of them is reported. The
mentions of a crate stand in the order of the items that make them.
-/

namespace CrateDocs

variable {crate : Crate} {item : Item} {mention : Mention} {id : ItemId}

/-- The identifiers to which an item refers: the module that its visibility names, then those that
are written in its payload, from left to right. -/
def Item.references (item : Item) : List ItemId :=
  item.visibility.parent?.toList ++ item.payload.toJson.ids

theorem Item.mentions_eq_references (item : Item) : item.mentions = item.references := by
  rw [mentions, references, Payload.mentions_eq_ids]

namespace Crate

theorem mem_mentions (h : crate.WellFormed) :
    mention ∈ crate.mentions ↔
      ∃ item, crate.index[mention.referrer]? = some item ∧ mention.id ∈ item.references := by
  unfold mentions
  rw [List.mem_flatMap]
  constructor
  · intro h
    rcases h with ⟨⟨key, item⟩, hentry, hmention⟩
    obtain ⟨id, hid, rfl⟩ := List.mem_map.1 hmention
    have hitem := Table.mem_toList_iff.1 hentry
    rw [Item.mentions_eq_references] at hid
    rw [← h.id_eq hitem] at hitem
    exact ⟨item, hitem, hid⟩
  · intro h
    rcases h with ⟨item, hitem, hid⟩
    refine ⟨(mention.referrer, item), Table.mem_toList_iff.2 hitem, List.mem_map.2 ?_⟩
    rw [← Item.mentions_eq_references] at hid
    exact ⟨mention.id, hid, by rw [h.id_eq hitem]⟩

/-- The items mention in ascending order of their identifiers. -/
theorem pairwise_mentions (h : crate.WellFormed) :
    crate.mentions.Pairwise fun a b => (compare a.referrer b.referrer).isLE := by
  unfold mentions
  rw [List.pairwise_flatMap]
  constructor
  · rintro ⟨key, item⟩ -
    rw [List.pairwise_map]
    exact List.pairwise_of_forall fun _ _ => by simp [Std.ReflOrd.compare_self]
  · refine (Table.ascending_toList crate.index).imp_of_mem fun {a b} ha hb hlt => ?_
    intro x hx y hy
    obtain ⟨_, -, rfl⟩ := List.mem_map.1 hx
    obtain ⟨_, -, rfl⟩ := List.mem_map.1 hy
    rw [h.id_eq (Table.mem_toList_iff.1 ha), h.id_eq (Table.mem_toList_iff.1 hb), hlt]
    rfl

theorem describes_eq_false : crate.describes id = false ↔ id ∉ crate.index ∧ id ∉ crate.paths := by
  rw [describes, Bool.eq_false_iff, ne_eq, Bool.or_eq_true, not_or,
    Std.ExtTreeMap.contains_iff_mem, Std.ExtTreeMap.contains_iff_mem]

/-- Whether one mention comes before another one: its referrer has a smaller identifier, or the
same item refers to both and to the former first. -/
def Precedes (crate : Crate) (a b : Mention) : Prop :=
  compare a.referrer b.referrer = .lt ∨
    a.referrer = b.referrer ∧ ∃ item, crate.index[a.referrer]? = some item ∧
      item.references.idxOf a.id < item.references.idxOf b.id

/-- Leaving out other identifiers does not change which of two occurs first. -/
theorem idxOf_lt_of_filter {ids : List ItemId} {p : ItemId → Bool} {a b : ItemId} (ha : p a)
    (hb : p b) (h : (ids.filter p).idxOf a < (ids.filter p).idxOf b) :
    ids.idxOf a < ids.idxOf b := by
  induction ids with
  | nil => exact h
  | cons id ids ih =>
    by_cases hp : p id
    · rw [List.filter_cons_of_pos hp] at h
      by_cases hb' : id = b
      · rw [hb', List.idxOf_cons_self] at h
        omega
      by_cases ha' : id = a
      · rw [ha', List.idxOf_cons_self, List.idxOf_cons_ne _ (ha' ▸ hb')]
        omega
      rw [List.idxOf_cons_ne _ ha', List.idxOf_cons_ne _ hb'] at h ⊢
      have hlt := ih (by omega)
      omega
    · rw [List.filter_cons_of_neg hp] at h
      have hlt := ih h
      have hne {c : ItemId} (hc : p c) : id ≠ c := fun heq => hp (heq ▸ hc)
      rw [List.idxOf_cons_ne _ (hne ha), List.idxOf_cons_ne _ (hne hb)]
      omega

variable {p : ItemId → Bool} {seen : Std.ExtTreeSet ItemId compare}

theorem pairwise_firsts_item :
    (Mention.firsts seen ((item.mentions.map (⟨·, item.id⟩)).filter fun m => p m.id)).Pairwise
      fun a b => item.references.idxOf a.id < item.references.idxOf b.id := by
  have hids : ((item.mentions.map (⟨·, item.id⟩)).filter fun m => p m.id).map Mention.id =
      item.references.filter p := by
    rw [Item.mentions_eq_references, List.filter_map, List.map_map]
    exact List.map_id _
  have h := Mention.pairwise_firsts seen
    ((item.mentions.map (⟨·, item.id⟩)).filter fun m => p m.id)
  rw [hids] at h
  refine h.imp_of_mem fun {a b} ha hb hlt => ?_
  have ha := (List.mem_filter.1 (Mention.mem_of_mem_firsts ha)).2
  have hb := (List.mem_filter.1 (Mention.mem_of_mem_firsts hb)).2
  exact idxOf_lt_of_filter ha hb hlt

/-- The order of the items and the order in which each of them refers to others make up the order
of the reports. -/
theorem pairwise_firsts_entries {entries : List (ItemId × Item)}
    (hentries : Table.Ascending entries)
    (hindex : ∀ entry ∈ entries, crate.index[entry.1]? = some entry.2 ∧ entry.2.id = entry.1) :
    (Mention.firsts seen
      ((entries.flatMap fun (_, item) => item.mentions.map (⟨·, item.id⟩)).filter
        fun m => p m.id)).Pairwise crate.Precedes := by
  induction entries generalizing seen with
  | nil => exact List.Pairwise.nil
  | cons entry entries ih =>
    obtain ⟨key, item⟩ := entry
    obtain ⟨hentry, hindex⟩ := List.forall_mem_cons.1 hindex
    obtain ⟨hlt, hentries⟩ := List.pairwise_cons.1 hentries
    obtain ⟨hitem, hid⟩ := hentry
    rw [List.flatMap_cons, List.filter_append]
    obtain ⟨seen', heq⟩ := Mention.firsts_append seen _ _
    rw [heq, List.pairwise_append]
    have hreferrer {seen : Std.ExtTreeSet ItemId compare} {m : Mention}
        (hm : m ∈ Mention.firsts seen ((item.mentions.map (⟨·, item.id⟩)).filter fun m => p m.id)) :
        m.referrer = key := by
      obtain ⟨_, -, rfl⟩ := List.mem_map.1 (List.mem_filter.1 (Mention.mem_of_mem_firsts hm)).1
      exact hid
    refine ⟨?_, ih hentries hindex, fun a ha b hb => .inl ?_⟩
    · refine pairwise_firsts_item.imp_of_mem fun {a b} ha hb hlt => .inr ?_
      rw [hreferrer ha, hreferrer hb]
      exact ⟨rfl, item, hitem, hlt⟩
    · have hb := (List.mem_filter.1 (Mention.mem_of_mem_firsts hb)).1
      obtain ⟨other, hother, hb⟩ := List.mem_flatMap.1 hb
      obtain ⟨_, -, rfl⟩ := List.mem_map.1 hb
      rw [hreferrer ha, (hindex other hother).2]
      exact hlt other hother

theorem pairwise_danglingMentions (h : crate.WellFormed) :
    crate.danglingMentions.Pairwise crate.Precedes := by
  refine pairwise_firsts_entries (p := fun id => !crate.describes id)
    (Table.ascending_toList crate.index) fun entry hentry => ?_
  have hitem := Table.mem_toList_iff.1 hentry
  exact ⟨hitem, h.id_eq hitem⟩

/-- Whether mentions are precisely the ones to be reported: every identifier to which an item
refers while neither the index nor the paths have it, once, with the item of the smallest
identifier among those that refer to it, and in order. -/
structure IsDangling (crate : Crate) (reports : List Mention) : Prop where
  mem_iff : ∀ id, id ∈ reports.map Mention.id ↔
    (∃ (referrer : ItemId) (item : Item),
        crate.index[referrer]? = some item ∧ id ∈ item.references) ∧
      id ∉ crate.index ∧ id ∉ crate.paths
  nodup : (reports.map Mention.id).Nodup
  refers : ∀ mention ∈ reports, ∃ item : Item,
    crate.index[mention.referrer]? = some item ∧ mention.id ∈ item.references
  smallest : ∀ mention ∈ reports, ∀ (referrer : ItemId) (item : Item),
    crate.index[referrer]? = some item → mention.id ∈ item.references →
      (compare mention.referrer referrer).isLE
  ordered : reports.Pairwise crate.Precedes

theorem isDangling_danglingMentions (h : crate.WellFormed) :
    crate.IsDangling crate.danglingMentions where
  mem_iff id := by
    unfold danglingMentions
    rw [Mention.mem_map_firsts, List.mem_map]
    constructor
    · intro h
      rcases h with ⟨-, mention, hmention, rfl⟩
      obtain ⟨hmention, hdescribes⟩ := List.mem_filter.1 hmention
      obtain ⟨item, hitem, hid⟩ := (mem_mentions h).1 hmention
      exact ⟨⟨_, item, hitem, hid⟩, describes_eq_false.1 (by simpa using hdescribes)⟩
    · intro h
      rcases h with ⟨⟨referrer, item, hitem, hid⟩, hdescribes⟩
      refine ⟨Std.ExtTreeSet.not_mem_empty, ⟨id, referrer⟩, List.mem_filter.2 ⟨?_, ?_⟩, rfl⟩
      · exact (mem_mentions h).2 ⟨item, hitem, hid⟩
      · rw [describes_eq_false.2 hdescribes]
        rfl
  nodup := Mention.nodup_map_firsts
  refers mention hmention := by
    have hmention := (List.mem_filter.1 (Mention.mem_of_mem_firsts hmention)).1
    exact (mem_mentions h).1 hmention
  smallest mention hmention referrer item hitem hid := by
    obtain ⟨before, after, heq, hbefore⟩ := Mention.exists_eq_append_of_mem_firsts hmention
    have hdescribes := (List.mem_filter.1 (Mention.mem_of_mem_firsts hmention)).2
    -- The other mention is not before the one that is kept, hence it is that one or after it.
    have hother : (⟨mention.id, referrer⟩ : Mention) ∈ before ++ mention :: after := by
      rw [← heq]
      exact List.mem_filter.2 ⟨(mem_mentions h).2 ⟨item, hitem, hid⟩, hdescribes⟩
    have hsorted := (pairwise_mentions h).filter fun m => !crate.describes m.id
    rw [heq, List.pairwise_append, List.pairwise_cons] at hsorted
    rcases List.mem_append.1 hother with hmem | hmem
    · exact (hbefore _ hmem rfl).elim
    · rcases List.mem_cons.1 hmem with hmem | hmem
      · rw [← hmem]
        simp [Std.ReflOrd.compare_self]
      · exact hsorted.2.1.1 _ hmem
  ordered := pairwise_danglingMentions h

theorem lookup?_eq_none : crate.lookup? id = none ↔ id ∉ crate.index ∧ id ∉ crate.paths := by
  rw [Std.ExtTreeMap.mem_iff_isSome_getElem?, Std.ExtTreeMap.mem_iff_isSome_getElem?]
  unfold lookup? item?
  cases crate.index[id]? <;> simp

end Crate

/-- In whichever mode, a decoding reports as dangling the identifiers of the dangling mentions. -/
theorem exists_danglingReference_iff {mode : Mode} {document : Json} {decoded : Decoded}
    (h : decode mode document = .ok decoded) :
    (∃ referrer, .danglingReference id referrer ∈ decoded.diagnostics) ↔
      id ∈ decoded.crate.danglingMentions.map Mention.id := by
  obtain ⟨problems, hdiagnostics, hproblems⟩ := diagnostics_of_decode h
  rw [hdiagnostics, List.mem_map]
  constructor
  · intro h
    rcases h with ⟨referrer, hmem⟩
    have hmem := (List.mem_append.1 hmem).resolve_left (hproblems id referrer)
    obtain ⟨mention, hmention, heq⟩ := List.mem_map.1 hmem
    cases heq
    exact ⟨mention, hmention, rfl⟩
  · intro h
    rcases h with ⟨mention, hmention, rfl⟩
    exact ⟨mention.referrer, List.mem_append_right _ (List.mem_map.2 ⟨mention, hmention, rfl⟩)⟩

/-- A lenient decoding reports the dangling references exactly and behind all other problems. Hence
an identifier to which an item refers leads nowhere if and only if it is reported. -/
theorem dangling_of_decode {document : Json} {decoded : Decoded}
    (h : decode .lenient document = .ok decoded) :
    ∃ problems reports,
      decoded.diagnostics =
        problems ++ reports.map (fun m => .danglingReference m.id m.referrer) ∧
      (∀ id referrer, .danglingReference id referrer ∉ problems) ∧
      decoded.crate.IsDangling reports ∧
      ∀ (referrer : ItemId) (item : Item) (id : ItemId),
        decoded.crate.index[referrer]? = some item → id ∈ item.references →
          (decoded.crate.lookup? id = none ↔
            ∃ referrer, .danglingReference id referrer ∈ decoded.diagnostics) := by
  obtain ⟨problems, hdiagnostics, hproblems⟩ := diagnostics_of_decode h
  have hdangling := Crate.isDangling_danglingMentions (wellFormed_of_decode h)
  refine ⟨problems, _, hdiagnostics, hproblems, hdangling, fun referrer item id hitem hid => ?_⟩
  rw [exists_danglingReference_iff h, hdangling.mem_iff, Crate.lookup?_eq_none]
  constructor
  · intro hnone
    exact ⟨⟨referrer, item, hitem, hid⟩, hnone⟩
  · exact And.right

/-- A crate whose only module has two members, neither of which is described: the entry of the one
is broken, and the other has none. -/
def brokenMembers : Json :=
  BareCrate.document {
    index := [
      BareItem.entry { id := "0", inner := bareModule ["2", "1", "2"] },
      ("2", .null)] }

theorem dangling_of_brokenMembers :
    ∃ decoded, decode .lenient brokenMembers = .ok decoded ∧
      decoded.diagnostics =
        [.fault ⟨[.key "index", .key "2"], .mismatch .object .null⟩,
          .danglingReference ⟨"2"⟩ ⟨"0"⟩, .danglingReference ⟨"1"⟩ ⟨"0"⟩] ∧
      ∃ problems reports,
        decoded.diagnostics =
          problems ++ reports.map (fun m => .danglingReference m.id m.referrer) ∧
        decoded.crate.IsDangling reports := by
  have h : decode .lenient brokenMembers = .ok _ := rfl
  obtain ⟨problems, reports, hdiagnostics, -, hdangling, -⟩ := dangling_of_decode h
  exact ⟨_, h, by decide +kernel, problems, reports, hdiagnostics, hdangling⟩

end CrateDocs
