import CrateDocs.Proofs.Crate.Search

/-!
# The ranking behind suggestions

The paths of a crate have exactly one arrangement in which each outranks all that come after it.
Whatever the scores are, and in whichever order the paths are listed, the suggestions are what this
arrangement begins with.
-/

namespace CrateDocs

namespace Binary64

variable {x y : Float}

theorem eq_of_toBits_eq (h : x.toBits = y.toBits) : x = y := by
  obtain ⟨⟨bits, valid⟩⟩ := x
  obtain ⟨⟨otherBits, otherValid⟩⟩ := y
  cases h
  rfl

/-- Whether a number precedes another in the total order of all numbers: first come the negative
ones from the greatest magnitude down, then the others from the smallest magnitude up. -/
inductive Precedes (x y : Float) : Prop
  | signs (hx : isNegative x) (hy : ¬ isNegative y)
  | negative (hx : isNegative x) (hy : isNegative y) (h : y.toBits < x.toBits)
  | nonnegative (hx : ¬ isNegative x) (hy : ¬ isNegative y) (h : x.toBits < y.toBits)

theorem precedes_or_eq_or_precedes (x y : Float) : Precedes x y ∨ x = y ∨ Precedes y x := by
  by_cases hbits : x.toBits = y.toBits
  · exact .inr (.inl (eq_of_toBits_eq hbits))
  have hlt := UInt64.lt_or_lt_of_ne hbits
  by_cases hx : isNegative x <;> by_cases hy : isNegative y
  · rcases hlt with h | h
    · exact .inr (.inr (.negative hy hx h))
    · exact .inl (.negative hx hy h)
  · exact .inl (.signs hx hy)
  · exact .inr (.inr (.signs hy hx))
  · rcases hlt with h | h
    · exact .inl (.nonnegative hx hy h)
    · exact .inr (.inr (.nonnegative hy hx h))

theorem isNegative_iff : isNegative x ↔ 0x8000000000000000 ≤ x.toBits.toNat := by
  rw [isNegative, decide_eq_true_iff, UInt64.le_iff_toNat_le]
  rfl

theorem toNat_rank_of_isNegative (h : isNegative x) :
    (rank x).toNat = 0xFFFFFFFFFFFFFFFF - x.toBits.toNat := by
  rw [rank, if_pos h]
  exact UInt64.toNat_not _

theorem toNat_rank_of_not_isNegative (h : ¬ isNegative x) :
    (rank x).toNat = 0x8000000000000000 + x.toBits.toNat := by
  have hsmall : x.toBits.toNat < 2 ^ 63 := by rwa [isNegative_iff, Nat.not_le] at h
  rw [rank, if_neg h, UInt64.toNat_or, Nat.or_comm]
  exact (Nat.two_pow_add_eq_or_of_lt hsmall 1).symm

theorem Precedes.rank_lt_rank (h : Precedes x y) : rank x < rank y := by
  rw [UInt64.lt_iff_toNat_lt]
  cases h with
  | signs hx hy =>
    rw [toNat_rank_of_isNegative hx, toNat_rank_of_not_isNegative hy]
    rw [isNegative_iff] at hx
    omega
  | negative hx hy h =>
    rw [toNat_rank_of_isNegative hx, toNat_rank_of_isNegative hy]
    have hlt := UInt64.lt_iff_toNat_lt.1 h
    have hbound := x.toBits.toNat_lt
    omega
  | nonnegative hx hy h =>
    rw [toNat_rank_of_not_isNegative hx, toNat_rank_of_not_isNegative hy]
    have hlt := UInt64.lt_iff_toNat_lt.1 h
    omega

theorem rank_lt_rank_iff : rank x < rank y ↔ Precedes x y := by
  constructor
  · intro hlt
    rcases precedes_or_eq_or_precedes x y with h | rfl | h
    · exact h
    · exact absurd hlt (UInt64.lt_irrefl _)
    · exact absurd hlt (UInt64.lt_asymm h.rank_lt_rank)
  · exact Precedes.rank_lt_rank

theorem rank_inj : rank x = rank y ↔ x = y := by
  constructor
  · intro heq
    rcases precedes_or_eq_or_precedes x y with h | h | h
    · exact absurd heq (UInt64.ne_of_lt h.rank_lt_rank)
    · exact h
    · exact absurd heq.symm (UInt64.ne_of_lt h.rank_lt_rank)
  · exact congrArg rank

end Binary64

namespace ItemPath

instance : Std.TransOrd ItemPath :=
  inferInstanceAs (Std.TransCmp (compareOn ItemPath.segments))

instance : Std.LawfulEqOrd ItemPath where
  compare_self {a} := Std.ReflOrd.compare_self (a := a.segments)
  eq_of_compare {a b} h := congrArg ItemPath.mk <|
    Std.LawfulEqOrd.eq_of_compare (a := a.segments) (b := b.segments) h

theorem compare_text_eq_lt {a b : String} : compare a b = .lt ↔ a < b :=
  compareOfLessAndEq_eq_lt

/-- Paths are compared name by name from the front. -/
theorem compare_eq_lt {a b : ItemPath} : compare a b = .lt ↔ a.segments < b.segments := by
  change compare a.segments b.segments = .lt ↔ _
  generalize a.segments = as
  generalize b.segments = bs
  induction as generalizing bs with
  | nil => cases bs <;> simp
  | cons a as ih =>
    cases bs with
    | nil => simp
    | cons b bs =>
      rw [List.compare_cons_cons, Ordering.then_eq_lt, List.cons_lt_cons_iff, compare_text_eq_lt,
        Std.LawfulEqOrd.compare_eq_iff_eq, ih]

end ItemPath

namespace Suggestion

variable {a b : Suggestion}

/-- Whether a suggestion comes before another: by a higher score; if the scores are the same by a
more canonical path; if these are too by the path that comes first name by name; and if the paths
are the same by the smaller identifier. -/
inductive Outranks (a b : Suggestion) : Prop
  | score (h : Binary64.Precedes b.score a.score)
  | canonicality (hscore : a.score = b.score) (h : b.path.canonicality < a.path.canonicality)
  | segments (hscore : a.score = b.score)
      (hcanonicality : a.path.canonicality = b.path.canonicality)
      (h : a.path.segments < b.path.segments)
  | id (hscore : a.score = b.score) (hpath : a.path = b.path) (h : a.id.text < b.id.text)

theorem order_eq_lt : a.order b = .lt ↔ a.Outranks b := by
  have hrank : compare (Binary64.rank b.score) (Binary64.rank a.score) = .lt ↔
      Binary64.Precedes b.score a.score :=
    Std.compare_eq_lt.trans Binary64.rank_lt_rank_iff
  have hscore : compare (Binary64.rank b.score) (Binary64.rank a.score) = .eq ↔
      a.score = b.score := by
    rw [Std.LawfulEqOrd.compare_eq_iff_eq, Binary64.rank_inj, eq_comm]
  have hid : compare a.id b.id = .lt ↔ a.id.text < b.id.text := ItemPath.compare_text_eq_lt
  simp only [order, Ordering.then_eq_lt, hrank, hscore, Std.compare_eq_lt,
    Std.LawfulEqOrd.compare_eq_iff_eq, ItemPath.compare_eq_lt, hid]
  constructor
  · rintro (h | ⟨hscore, h | ⟨hcanonicality, h | ⟨hpath, h⟩⟩⟩)
    · exact .score h
    · exact .canonicality hscore h
    · exact .segments hscore hcanonicality.symm h
    · exact .id hscore hpath h
  · intro h
    cases h with
    | score h => exact .inl h
    | canonicality hscore h => exact .inr ⟨hscore, .inl h⟩
    | segments hscore hcanonicality h =>
      exact .inr ⟨hscore, .inr ⟨hcanonicality.symm, .inl h⟩⟩
    | id hscore hpath h =>
      exact .inr ⟨hscore, .inr ⟨congrArg ItemPath.canonicality hpath.symm, .inr ⟨hpath, h⟩⟩⟩

instance : Std.TransCmp order :=
  inferInstanceAs <| Std.TransCmp <|
    compareLex (fun a b => compareOn (fun s : Suggestion => Binary64.rank s.score) b a) <|
      compareLex (fun a b => compareOn (fun s : Suggestion => s.path.canonicality) b a) <|
        compareLex (compareOn Suggestion.path) (compareOn Suggestion.id)

instance : Std.LawfulEqCmp order where
  eq_of_compare {a b} h := by
    simp only [order, Ordering.then_eq_eq, Std.LawfulEqOrd.compare_eq_iff_eq,
      Binary64.rank_inj] at h
    obtain ⟨aid, apath, ascore⟩ := a
    obtain ⟨bid, bpath, bscore⟩ := b
    obtain ⟨hscore, -, hpath, hid⟩ := h
    rw [Suggestion.mk.injEq]
    exact ⟨hid, hpath, hscore.symm⟩

theorem Outranks.ne (h : a.Outranks b) : a ≠ b := by
  rintro rfl
  have hself : a.order a = .eq := Std.ReflCmp.compare_self
  rw [order_eq_lt.2 h] at hself
  cases hself

theorem Outranks.asymm (h : a.Outranks b) : ¬ b.Outranks a := by
  intro hback
  have hswap : a.order b = (b.order a).swap := Std.OrientedCmp.eq_swap
  rw [order_eq_lt.2 h, order_eq_lt.2 hback] at hswap
  cases hswap

theorem outranks_of_isLE (h : (a.order b).isLE) (hne : a ≠ b) : a.Outranks b := by
  rcases Ordering.isLE_iff_eq_lt_or_eq_eq.1 h with hlt | heq
  · exact order_eq_lt.1 hlt
  · exact absurd (Std.LawfulEqCmp.eq_of_compare heq) hne

theorem isLE_order_or (a b : Suggestion) : ((a.order b).isLE || (b.order a).isLE) = true := by
  have hswap : b.order a = (a.order b).swap := Std.OrientedCmp.eq_swap
  rw [hswap]
  cases a.order b <;> rfl

/-- What an entry of the paths is as a suggestion. -/
def ofEntry (score : ItemPath → Float) (entry : ItemId × ItemSummary) : Suggestion :=
  { id := entry.1, path := entry.2.path, score := score entry.2.path }

/-- All of the suggestions, the better ones first. -/
def sort (suggestions : List Suggestion) : List Suggestion :=
  suggestions.mergeSort fun a b => (a.order b).isLE

theorem sort_perm (suggestions : List Suggestion) : (sort suggestions).Perm suggestions :=
  List.mergeSort_perm _ _

/-- If no suggestion is there twice, each outranks all that are sorted behind it. -/
theorem pairwise_sort {suggestions : List Suggestion} (h : suggestions.Nodup) :
    (sort suggestions).Pairwise Outranks := by
  have hsorted : (sort suggestions).Pairwise fun a b => (a.order b).isLE :=
    List.pairwise_mergeSort (fun _ _ _ => Std.TransCmp.isLE_trans) isLE_order_or suggestions
  exact hsorted.imp₂ (fun _ _ => outranks_of_isLE) ((sort_perm suggestions).nodup_iff.2 h)

end Suggestion

namespace Crate

variable {crate : Crate} {score : ItemPath → Float} {ranking : List Suggestion}

/-- Whether a list arranges the entries of the paths in such a way that each outranks all that come
after it. -/
structure IsRanking (crate : Crate) (score : ItemPath → Float) (ranking : List Suggestion) :
    Prop where
  mem_iff : ∀ suggestion, suggestion ∈ ranking ↔
    crate.pathOf? suggestion.id = some suggestion.path ∧
      suggestion.score = score suggestion.path
  pairwise : ranking.Pairwise Suggestion.Outranks

theorem IsRanking.nodup (h : crate.IsRanking score ranking) : ranking.Nodup :=
  h.pairwise.imp Suggestion.Outranks.ne

/-- There is no second arrangement of the same entries. -/
theorem IsRanking.eq {other : List Suggestion} (h : crate.IsRanking score ranking)
    (hother : crate.IsRanking score other) : other = ranking := by
  have hperm : other.Perm ranking := by
    rw [List.perm_ext_iff_of_nodup hother.nodup h.nodup]
    intro suggestion
    rw [hother.mem_iff, h.mem_iff]
  exact hperm.eq_of_pairwise (fun a b _ _ hab hba => absurd hba hab.asymm) hother.pairwise
    h.pairwise

theorem mem_map_ofEntry {suggestion : Suggestion} :
    suggestion ∈ crate.paths.toList.map (Suggestion.ofEntry score) ↔
      crate.pathOf? suggestion.id = some suggestion.path ∧
        suggestion.score = score suggestion.path := by
  rw [List.mem_map, pathOf?_eq_some_iff]
  constructor
  · rintro ⟨⟨id, summary⟩, hmem, rfl⟩
    exact ⟨⟨summary, hmem, rfl⟩, rfl⟩
  · rintro ⟨⟨summary, hmem, hpath⟩, hscore⟩
    refine ⟨(suggestion.id, summary), hmem, ?_⟩
    rw [Suggestion.ofEntry, hpath, ← hscore]

/-- In whichever order the entries of the paths are listed, sorting them gives a ranking. -/
theorem isRanking_sort {entries : List (ItemId × ItemSummary)}
    (h : entries.Perm crate.paths.toList) :
    crate.IsRanking score (Suggestion.sort (entries.map (Suggestion.ofEntry score))) where
  mem_iff suggestion := by
    rw [(Suggestion.sort_perm _).mem_iff, (h.map _).mem_iff, mem_map_ofEntry]
  pairwise := by
    refine Suggestion.pairwise_sort ?_
    have hkeys : (crate.paths.toList.map Prod.fst).Nodup :=
      (Table.ascending_toList crate.paths).nodup_keys
    have hids : ((entries.map (Suggestion.ofEntry score)).map Suggestion.id).Nodup := by
      rw [List.map_map]
      exact (h.map Prod.fst).nodup_iff.2 hkeys
    exact hids.of_map

/-- How suggestions are taken from the ranking of all paths under a score. -/
structure RankedBy (crate : Crate) (score : ItemPath → Float) (suggest : Nat → List Suggestion)
    (ranking : List Suggestion) : Prop where
  /-- There is one ranking and no other. -/
  isRanking_iff : ∀ other, crate.IsRanking score other ↔ other = ranking
  /-- Every entry of the paths occurs in it once. -/
  keys_perm : (ranking.map Suggestion.id).Perm crate.paths.keys
  /-- The suggestions are what it begins with, as many as there may be. -/
  take_eq : ∀ limit, suggest limit = ranking.take limit
  length_eq : ∀ limit, (suggest limit).length = min limit crate.paths.size
  /-- The order in which the paths are listed does not matter. -/
  sort_eq : ∀ (entries : List (ItemId × ItemSummary)) (limit : Nat),
    entries.Perm crate.paths.toList →
      (Suggestion.sort (entries.map (Suggestion.ofEntry score))).take limit = suggest limit
  /-- With a higher limit more suggestions follow. -/
  extends_of_le : ∀ k m, k ≤ m → suggest k <+: suggest m
  /-- What is left out is outranked by everything that is suggested. -/
  outranks_omitted : ∀ limit, ∀ a ∈ suggest limit, ∀ b ∈ ranking, b ∉ suggest limit →
    a.Outranks b

theorem rankedBy_suggestBy (crate : Crate) (score : ItemPath → Float) :
    crate.RankedBy score (crate.suggestBy score)
      (Suggestion.sort (crate.paths.toList.map (Suggestion.ofEntry score))) := by
  have hranking : crate.IsRanking score
      (Suggestion.sort (crate.paths.toList.map (Suggestion.ofEntry score))) :=
    isRanking_sort (.refl _)
  have htake (limit : Nat) : crate.suggestBy score limit =
      (Suggestion.sort (crate.paths.toList.map (Suggestion.ofEntry score))).take limit := rfl
  constructor
  · intro other
    constructor
    · exact hranking.eq
    · rintro rfl
      exact hranking
  · have hperm := (Suggestion.sort_perm
      (crate.paths.toList.map (Suggestion.ofEntry score))).map Suggestion.id
    rw [List.map_map] at hperm
    exact hperm.trans (.of_eq Std.ExtTreeMap.map_fst_toList_eq_keys)
  · exact htake
  · exact length_suggestBy crate score
  · intro entries limit hperm
    rw [hranking.eq (isRanking_sort hperm), htake]
  · intro k m hle
    rw [htake, htake]
    exact List.take_prefix_take_left hle
  · intro limit a ha b hb hnot
    rw [htake] at ha hnot
    have hpairwise := hranking.pairwise
    rw [← List.take_append_drop limit (Suggestion.sort _)] at hpairwise hb
    exact (List.pairwise_append.1 hpairwise).2.2 a ha b ((List.mem_append.1 hb).resolve_left hnot)

/-- Whatever the scores are, the suggestions are the top of the one ranking of all paths; so are the
suggestions for a text, which are scored by their similarity to it. -/
theorem suggestions_ranked (crate : Crate) :
    (∀ score, ∃ ranking, crate.RankedBy score (crate.suggestBy score) ranking) ∧
      ∀ text : String, ∃ ranking,
        crate.RankedBy (fun path => Similarity.jaroWinkler text.toList path.render.toList)
          (crate.suggest text) ranking :=
  ⟨fun score => ⟨_, rankedBy_suggestBy crate score⟩, fun _ => ⟨_, rankedBy_suggestBy crate _⟩⟩

end Crate

end CrateDocs
