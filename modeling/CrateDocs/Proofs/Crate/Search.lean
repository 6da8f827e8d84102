import CrateDocs.Crate.Suggest
import CrateDocs.Proofs.Crate.Coherence

/-!
# Searching the paths of a crate

Several identifiers may have the same path. A search for the path finds the smallest of them, and it
finds one whenever there is any. In a decoded crate it leads back from the path of an identifier to
that identifier, or to a smaller one with the same path. Whatever is suggested is an identifier with
its path.
-/

namespace CrateDocs

namespace Crate

variable {crate : Crate} {path : ItemPath} {id : ItemId}

theorem pathOf?_eq_some_iff :
    crate.pathOf? id = some path ↔
      ∃ summary, (id, summary) ∈ crate.paths.toList ∧ summary.path = path := by
  rw [pathOf?, Option.map_eq_some_iff]
  have hmem (summary : ItemSummary) :
      (id, summary) ∈ crate.paths.toList ↔ crate.paths[id]? = some summary :=
    Table.mem_toList_iff
  exact exists_congr fun summary => and_congr_left fun _ => (hmem summary).symm

/-- An identifier with a path stands for something. -/
theorem exists_lookup?_of_pathOf? (h : crate.pathOf? id = some path) :
    ∃ node, crate.lookup? id = some node := by
  obtain ⟨summary, hsummary, -⟩ := Option.map_eq_some_iff.1 h
  have hmem : id ∈ crate.paths := by
    rw [Std.ExtTreeMap.mem_iff_isSome_getElem?, hsummary]
    rfl
  exact Option.isSome_iff_exists.1 (isSome_lookup?.2 (.inr hmem))

/-- Whether an identifier is the smallest one with a path. -/
structure IsSmallestAt (crate : Crate) (path : ItemPath) (id : ItemId) : Prop where
  pathOf?_eq : crate.pathOf? id = some path
  isLE : ∀ other, crate.pathOf? other = some path → (compare id other).isLE

/-- The listing of a table ascends, so that the first entry with a path has the smallest key. -/
theorem isSmallestAt_of_idAt? (h : crate.idAt? path = some id) : crate.IsSmallestAt path id := by
  obtain ⟨⟨found, summary⟩, hfind, rfl⟩ := Option.map_eq_some_iff.1 h
  obtain ⟨hpath, before, after, hlist, hbefore⟩ := List.find?_eq_some_iff_append.1 hfind
  constructor
  · refine pathOf?_eq_some_iff.2 ⟨summary, ?_, eq_of_beq hpath⟩
    rw [hlist]
    exact List.mem_append_right before List.mem_cons_self
  · intro other hother
    obtain ⟨otherSummary, hmem, hsame⟩ := pathOf?_eq_some_iff.1 hother
    have hascending := Table.ascending_toList crate.paths
    rw [Table.Ascending, hlist, List.pairwise_append, List.pairwise_cons] at hascending
    rw [hlist, List.mem_append, List.mem_cons] at hmem
    rcases hmem with hearlier | heq | hlater
    · have hdiffers : (!(otherSummary.path == path)) = true := hbefore _ hearlier
      rw [hsame, beq_self_eq_true] at hdiffers
      cases hdiffers
    · cases heq
      rw [Std.ReflOrd.compare_self]
      rfl
    · have hlt : compare found other = .lt := hascending.2.1.1 _ hlater
      rw [hlt]
      rfl

/-- A path is found as soon as an identifier has it. -/
theorem exists_idAt? (h : crate.pathOf? id = some path) :
    ∃ smallest, crate.idAt? path = some smallest := by
  obtain ⟨summary, hmem, hpath⟩ := pathOf?_eq_some_iff.1 h
  rw [← Option.isSome_iff_exists, idAt?, Option.isSome_map, List.find?_isSome]
  exact ⟨(id, summary), hmem, beq_iff_eq.2 hpath⟩

theorem idAt?_eq_some_iff : crate.idAt? path = some id ↔ crate.IsSmallestAt path id := by
  constructor
  · exact isSmallestAt_of_idAt?
  · intro h
    obtain ⟨smallest, hfound⟩ := exists_idAt? h.pathOf?_eq
    have hsmallest := isSmallestAt_of_idAt? hfound
    have hle := h.isLE smallest hsmallest.pathOf?_eq
    have hge := hsmallest.isLE id h.pathOf?_eq
    rw [hfound, Std.LawfulEqOrd.eq_of_compare (Std.OrientedCmp.isLE_antisymm hle hge)]

theorem length_suggestBy (crate : Crate) (score : ItemPath → Float) (limit : Nat) :
    (crate.suggestBy score limit).length = min limit crate.paths.size := by
  rw [suggestBy, List.length_take, List.length_mergeSort, List.length_map,
    Std.ExtTreeMap.length_toList]

theorem pathOf?_of_mem_suggestBy {score : ItemPath → Float} {limit : Nat} {suggestion : Suggestion}
    (h : suggestion ∈ crate.suggestBy score limit) :
    crate.pathOf? suggestion.id = some suggestion.path := by
  have hall := (List.mergeSort_perm _ _).mem_iff.1 (List.mem_of_mem_take h)
  obtain ⟨⟨id, summary⟩, hmem, rfl⟩ := List.mem_map.1 hall
  exact pathOf?_eq_some_iff.2 ⟨summary, hmem, rfl⟩

/-- What is found at a path is found there by the smallest identifier with the path. -/
theorem lookupPath?_eq_some_iff {node : Node} :
    crate.lookupPath? path = some node ↔
      ∃ id, crate.IsSmallestAt path id ∧ crate.lookup? id = some node := by
  simp only [lookupPath?, Option.bind_eq_some_iff, idAt?_eq_some_iff]

/-- A search fails only if no identifier has the path: the smallest one stands for something. -/
theorem lookupPath?_eq_none_iff :
    crate.lookupPath? path = none ↔ ∀ id, crate.pathOf? id ≠ some path := by
  constructor
  · intro hnone id hid
    obtain ⟨smallest, hfound⟩ := exists_idAt? hid
    have hsmallest := isSmallestAt_of_idAt? hfound
    obtain ⟨node, hnode⟩ := exists_lookup?_of_pathOf? hsmallest.pathOf?_eq
    have hsome := lookupPath?_eq_some_iff.2 ⟨smallest, hsmallest, hnode⟩
    rw [hnone] at hsome
    cases hsome
  · intro hall
    rw [Option.eq_none_iff_forall_ne_some]
    intro node hnode
    obtain ⟨id, hsmallest, -⟩ := lookupPath?_eq_some_iff.1 hnode
    exact hall id hsmallest.pathOf?_eq

/-- Whether the search for a path inverts the path of an identifier, as far as paths tell
identifiers apart. -/
structure SearchInverts (crate : Crate) : Prop where
  /-- A search fails exactly if no entry of the paths has the path. -/
  eq_none_iff : ∀ path, crate.lookupPath? path = none ↔
    ∀ (id : ItemId) (summary : ItemSummary), crate.paths[id]? = some summary →
      summary.path ≠ path
  /-- What is found bears the smallest identifier with the path, and lies at that path. -/
  found : ∀ path node, crate.lookupPath? path = some node →
    crate.IsSmallestAt path node.id ∧ node.path? crate = some path
  /-- It is the item of the index if there is one, and a summary otherwise. -/
  full : ∀ path node, crate.lookupPath? path = some node →
    (∀ item, crate.index[node.id]? = some item → node = .item item) ∧
      (crate.index[node.id]? = none →
        ∃ summary, crate.paths[node.id]? = some summary ∧ node = .summary node.id summary)
  /-- From the path of an identifier the search leads back to it or to a smaller one. -/
  of_pathOf? : ∀ id path, crate.pathOf? id = some path →
    ∃ node, crate.lookupPath? path = some node ∧ (compare node.id id).isLE ∧
      node.path? crate = some path

theorem WellFormed.found {node : Node} (hcrate : crate.WellFormed)
    (h : crate.lookupPath? path = some node) :
    crate.IsSmallestAt path node.id ∧ node.path? crate = some path := by
  obtain ⟨id, hsmallest, hlookup⟩ := lookupPath?_eq_some_iff.1 h
  rw [hcrate.id_of_lookup? hlookup, hcrate.path?_of_lookup? hlookup]
  exact ⟨hsmallest, hsmallest.pathOf?_eq⟩

theorem WellFormed.searchInverts (hcrate : crate.WellFormed) : crate.SearchInverts where
  eq_none_iff path := by
    rw [lookupPath?_eq_none_iff]
    refine forall_congr' fun id => ?_
    rw [pathOf?, Ne, Option.map_eq_some_iff, not_exists]
    exact forall_congr' fun summary => not_and
  found _ _ h := hcrate.found h
  full path node h := by
    obtain ⟨id, -, hlookup⟩ := lookupPath?_eq_some_iff.1 h
    rw [hcrate.id_of_lookup? hlookup]
    rcases eq_of_lookup? hlookup with ⟨item, hitem, rfl⟩ | ⟨summary, hindex, hsummary, rfl⟩
    · rw [hitem]
      constructor
      · intro other hother
        rw [Option.some.inj hother]
      · intro hnone
        cases hnone
    · rw [hindex]
      constructor
      · intro item hitem
        cases hitem
      · exact fun _ => ⟨summary, hsummary, rfl⟩
  of_pathOf? id path hid := by
    obtain ⟨node, hnode⟩ : ∃ node, crate.lookupPath? path = some node := by
      rw [← Option.isSome_iff_exists, Option.isSome_iff_ne_none, Ne, lookupPath?_eq_none_iff]
      exact fun hall => hall id hid
    obtain ⟨hsmallest, hpath⟩ := hcrate.found hnode
    exact ⟨node, hnode, hsmallest.isLE id hid, hpath⟩

end Crate

/-- In every decoded crate the search for a path inverts the path of an identifier. -/
theorem searchInverts_of_decode {mode : Mode} {document : Json} {decoded : Decoded}
    (h : decode mode document = .ok decoded) : decoded.crate.SearchInverts :=
  (wellFormed_of_decode h).searchInverts

/-- Two identifiers share a path, and the search for it leads from the greater one to the item of
the smaller one. -/
theorem searchInverts_twinModules :
    ∃ decoded node, decode .strict twinModules = .ok decoded ∧
      decoded.crate.pathOf? ⟨"2"⟩ = some ⟨["twins"]⟩ ∧
      decoded.crate.lookupPath? ⟨["twins"]⟩ = some node ∧
      (compare node.id ⟨"2"⟩).isLE ∧ node.path? decoded.crate = some ⟨["twins"]⟩ ∧
      decoded.crate.IsSmallestAt ⟨["twins"]⟩ node.id ∧
      ∃ item, decoded.crate.index[(⟨"0"⟩ : ItemId)]? = some item ∧ node = .item item := by
  have h : decode .strict twinModules = .ok _ := rfl
  have hinverts := searchInverts_of_decode h
  have htwo := hinverts.of_pathOf? ⟨"2"⟩ ⟨["twins"]⟩ (by decide +kernel)
  obtain ⟨node, hnode, hle, hpath⟩ := htwo
  have hsmallest := (hinverts.found _ node hnode).1
  have hid : node.id = ⟨"0"⟩ :=
    Option.some.inj ((Crate.idAt?_eq_some_iff.2 hsmallest).symm.trans (by decide +kernel))
  have hfull := (hinverts.full _ node hnode).1
  rw [hid] at hfull
  exact ⟨_, node, h, by decide +kernel, hnode, hle, hpath, hsmallest, _, rfl, hfull _ rfl⟩

end CrateDocs
