import CrateDocs.Crate.Format
import CrateDocs.Proofs.Exactness.Entries

/-!
# The tables of a crate are read exactly

Summaries stand under identifiers, and external crates under numbers in decimal digits.
-/

namespace CrateDocs

open Reading

variable {v : Json} {r : Record v} {key : String}

theorem ItemSummary.read_eq_ok {summary : ItemSummary} :
    ItemSummary.read v = .ok summary ↔ v.Contains summary.toJson := by
  refine Record.asRecord_bind_eq_ok rfl fun r => ?_
  have hkind {kind} : r.field "kind" (Json.asVariant .itemKind ItemKind.ofName? ·) = .ok kind ↔
      Json.HasField r.members "kind" (.str kind.name) :=
    Record.field_eq_ok (fun _ _ => Json.asVariant_eq_ok ItemKind.ofName?_name) (by simp)
      fun _ => by simp
  obtain ⟨crateId, ⟨path⟩, kind⟩ := summary
  simp [r.contains_obj, ItemSummary.toJson, Json.ofNat, hkind]

/-- Whether a member is an entry of a table of summaries. -/
def ItemSummary.StandsIn (m : String × Json) (entry : ItemId × ItemSummary) : Prop :=
  entry.1.text = m.1 ∧ m.2.Contains entry.2.toJson

theorem ItemSummary.readEntry_eq_ok {entry : ItemId × ItemSummary} :
    ItemSummary.readEntry key v = .ok entry ↔ StandsIn (key, v) entry := by
  obtain ⟨⟨text⟩, summary⟩ := entry
  simp only [readEntry, bind_eq_ok, pure_eq_ok, read_eq_ok, Prod.mk.injEq, ItemId.mk.injEq,
    StandsIn]
  constructor
  · intro h
    rcases h with ⟨_, hsummary, rfl, rfl⟩
    exact ⟨rfl, hsummary⟩
  · intro h
    rcases h with ⟨rfl, hsummary⟩
    exact ⟨summary, hsummary, rfl, rfl⟩

theorem Record.summaries_eq_ok {summaries : List (ItemId × ItemSummary)} :
    r.entries key (ItemSummary.readEntry · ·) = .ok summaries ↔
      ∃ members, Json.member? r.members key = some (.obj members) ∧
        List.Forall₂ ItemSummary.StandsIn members summaries :=
  entries_eq_ok fun _ _ _ => ItemSummary.readEntry_eq_ok

theorem ExternalCrate.read_eq_ok {crate : ExternalCrate} :
    ExternalCrate.read v = .ok crate ↔ v.Contains crate.toJson := by
  refine Record.asRecord_bind_eq_ok rfl fun r => ?_
  obtain ⟨name, htmlRootUrl⟩ := crate
  simp [r.contains_obj, ExternalCrate.toJson]

/-- Whether a member is an entry of a table of external crates. -/
def ExternalCrate.StandsIn (m : String × Json) (entry : UInt32 × ExternalCrate) : Prop :=
  (Unsigned.ofText? UInt32.size m.1).map UInt32.ofNat = some entry.1 ∧
    m.2.Contains entry.2.toJson

theorem ExternalCrate.readEntry_eq_ok {entry : UInt32 × ExternalCrate} :
    ExternalCrate.readEntry key v = .ok entry ↔ StandsIn (key, v) entry := by
  obtain ⟨number, crate⟩ := entry
  unfold readEntry StandsIn
  split
  · rename_i n hn
    simp only [bind_eq_ok, pure_eq_ok, read_eq_ok, Prod.mk.injEq, hn, Option.map_some,
      Option.some.injEq]
    constructor
    · intro h
      rcases h with ⟨_, hcrate, rfl, rfl⟩
      exact ⟨rfl, hcrate⟩
    · intro h
      rcases h with ⟨rfl, hcrate⟩
      exact ⟨crate, hcrate, rfl, rfl⟩
  · rename_i hn
    simp [hn]

theorem Record.externalCrates_eq_ok {crates : List (UInt32 × ExternalCrate)} :
    r.entries key (ExternalCrate.readEntry · ·) = .ok crates ↔
      ∃ members, Json.member? r.members key = some (.obj members) ∧
        List.Forall₂ ExternalCrate.StandsIn members crates :=
  entries_eq_ok fun _ _ _ => ExternalCrate.readEntry_eq_ok

namespace Unsigned

theorem ofDigits?_toDigits (n : Nat) : ofDigits? (Nat.toDigits 10 n) = some n := by
  have hdigits : (Nat.toDigits 10 n).all Char.isDigit = true := by
    rw [List.all_eq_true]
    intro c hc
    exact Nat.isDigit_of_mem_toDigits (by omega) (by omega) hc
  have hempty : (Nat.toDigits 10 n).isEmpty = false := by
    rw [List.isEmpty_eq_false_iff]
    exact Nat.toDigits_ne_nil
  have hvalue := Nat.ofDigitChars_ten_toDigits (n := n)
  rw [Nat.ofDigitChars_eq_foldl] at hvalue
  unfold ofDigits?
  rw [hdigits, hempty]
  exact congrArg some hvalue

/-- A number is denoted by its decimal digits. -/
theorem ofText?_toString {bound n : Nat} (h : n < bound) :
    ofText? bound (toString n) = some n := by
  have hplus : ∀ digits, Nat.toDigits 10 n ≠ '+' :: digits := by
    intro digits heq
    have hdigit := Nat.isDigit_of_mem_toDigits (b := 10) (n := n) (c := '+') (by omega) (by omega)
      (heq ▸ List.mem_cons_self)
    exact absurd hdigit (by decide)
  unfold ofText?
  rw [Nat.toString_eq_repr, Nat.toList_repr]
  split
  · rename_i digits heq
    exact absurd heq (hplus digits)
  · rw [ofDigits?_toDigits, Option.bind_eq_bind, Option.bind_some]
    exact if_pos h

end Unsigned

end CrateDocs
