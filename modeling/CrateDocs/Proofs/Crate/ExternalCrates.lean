import Mathlib.Data.List.Induction
import CrateDocs.Proofs.Crate.Agreement
import CrateDocs.Proofs.Crate.Bare
import CrateDocs.Proofs.Unsigned.Spelling

/-!
# The table of external crates

External crates stand under numbers, and a number has many spellings. All of them are read, and of
the entries whose keys spell one number the table keeps the one with the greatest key.
-/

namespace CrateDocs

open Json Reading

namespace Reading

variable {ε α β : Type} {f : α → Except ε β} {as : List α}

theorem mapM_eq_ok_iff {bs : List β} :
    as.mapM f = .ok bs ↔
      (∀ a ∈ as, ∃ b, f a = .ok b) ∧ bs = as.filterMap fun a => (f a).toOption := by
  induction as generalizing bs with
  | nil =>
    rw [List.mapM_nil, pure_eq_ok]
    simp [eq_comm]
  | cons a as ih =>
    simp only [List.mapM_cons, bind_eq_ok, pure_eq_ok, ih, List.forall_mem_cons]
    constructor
    · rintro ⟨b, hb, _, ⟨hall, rfl⟩, rfl⟩
      refine ⟨⟨⟨b, hb⟩, hall⟩, ?_⟩
      rw [List.filterMap_cons_some (b := b) (by rw [hb]; rfl)]
    · rintro ⟨⟨⟨b, hb⟩, hall⟩, rfl⟩
      refine ⟨b, hb, _, ⟨hall, rfl⟩, ?_⟩
      rw [List.filterMap_cons_some (b := b) (by rw [hb]; rfl)]

/-- A traversal fails at the first element that fails. -/
theorem mapM_eq_error_iff {error : ε} :
    as.mapM f = .error error ↔
      ∃ before a after, as = before ++ a :: after ∧ (∀ b ∈ before, ∃ c, f b = .ok c) ∧
        f a = .error error := by
  induction as with
  | nil => simp [pure, Except.pure]
  | cons first as ih =>
    rw [List.mapM_cons, bind_eq_error]
    constructor
    · rintro (hfirst | ⟨b, hb, hrest⟩)
      · exact ⟨[], first, as, rfl, by simp, hfirst⟩
      · rw [bind_eq_error] at hrest
        rcases hrest with hrest | ⟨_, -, hpure⟩
        · obtain ⟨before, a, after, rfl, hbefore, ha⟩ := ih.1 hrest
          exact ⟨first :: before, a, after, rfl, List.forall_mem_cons.2 ⟨⟨b, hb⟩, hbefore⟩, ha⟩
        · cases hpure
    · rintro ⟨before, a, after, heq, hbefore, ha⟩
      cases before with
      | nil =>
        cases heq
        exact .inl ha
      | cons b before =>
        cases heq
        obtain ⟨⟨c, hc⟩, hbefore⟩ := List.forall_mem_cons.1 hbefore
        refine .inr ⟨c, hc, ?_⟩
        rw [ih.2 ⟨before, a, after, rfl, hbefore, ha⟩]
        rfl

theorem toOption_eq_some {x : Except ε α} {a : α} : x.toOption = some a ↔ x = .ok a := by
  cases x <;> simp [Except.toOption]

theorem toOption_within {segment : Segment} {reading : Reading α} :
    (reading.within segment).toOption = reading.toOption := by
  cases reading <;> rfl

theorem exists_within_eq_ok {segment : Segment} {reading : Reading α} :
    (∃ a, reading.within segment = .ok a) ↔ ∃ a, reading = .ok a := by
  simp only [within_eq_ok]

theorem within_eq_error {segment : Segment} {reading : Reading α} {fault : Fault} :
    reading.within segment = .error fault ↔
      ∃ inner, reading = .error inner ∧ fault = inner.within segment := by
  rw [within, mapError_eq_error]
  exact exists_congr fun inner => and_congr_right fun _ => eq_comm

end Reading

namespace ExternalCrate

open Unsigned

variable {key : String} {v : Json} {m : String × Json} {members : List (String × Json)}
  {crate : ExternalCrate} {number : UInt32} {fault : Fault}

/-- Whether a value is the record of an external crate: an object with a name, and with an address
unless that is absent or null. -/
def IsRecord (v : Json) (crate : ExternalCrate) : Prop :=
  ∃ fields, v = .obj fields ∧ member? fields "name" = some (.str crate.name) ∧
    member? fields "html_root_url" = crate.htmlRootUrl.map .str

/-- Whether a key spells a number of 32 bits. -/
def IsKey (key : String) : Prop :=
  ∃ n, n < UInt32.size ∧ Spells key n

def IsIntact (m : String × Json) : Prop :=
  IsKey m.1 ∧ ∃ crate, IsRecord m.2 crate

/-- Whether a member of the table is broken, and with which fault: its key is looked at first. -/
inductive IsBroken (m : String × Json) : Fault → Prop
  | key (hkey : ¬ IsKey m.1) : IsBroken m ⟨[], .nonNumericKey⟩
  | value {fault : Fault} (hkey : IsKey m.1) (hvalue : ExternalCrate.read m.2 = .error fault) :
      IsBroken m fault

theorem contains_toJson_iff : v.Contains crate.toJson ↔ IsRecord v crate := by
  have hname (fields : List (String × Json)) :
      HasField fields "name" (.str crate.name) ↔
        member? fields "name" = some (.str crate.name) := by
    rw [hasField_iff_contains (by simp) (by simp)]
    simp only [contains_str, exists_eq_right]
  have hurl (fields : List (String × Json)) :
      HasField fields "html_root_url" (.ofString? crate.htmlRootUrl) ↔
        member? fields "html_root_url" = crate.htmlRootUrl.map .str := by
    cases crate.htmlRootUrl with
    | none => exact hasField_null
    | some url =>
      rw [ofString?_eq_elim, Option.elim_some, hasField_iff_contains (by simp) (by simp)]
      simp only [contains_str, exists_eq_right]
      rfl
  constructor
  · intro h
    obtain ⟨fields, rfl⟩ := exists_members_of_contains h rfl
    rw [toJson, obj_contains_obj, containsFields_cons, containsFields_cons, hname, hurl] at h
    exact ⟨fields, rfl, h.1, h.2.1⟩
  · rintro ⟨fields, rfl, h, h'⟩
    rw [toJson, obj_contains_obj, containsFields_cons, containsFields_cons, hname, hurl]
    exact ⟨h, h', containsFields_nil⟩

theorem isKey_iff : IsKey key ↔ ∃ n, ofText? UInt32.size key = some n := by
  simp only [ofText?_eq_some_iff, and_comm]
  rfl

theorem IsRecord.eq {other : ExternalCrate} (h : IsRecord v crate) (hother : IsRecord v other) :
    crate = other := by
  have hread := read_eq_ok.2 (contains_toJson_iff.2 h)
  rw [read_eq_ok.2 (contains_toJson_iff.2 hother)] at hread
  cases hread
  rfl

theorem readEntry_eq_ok_iff :
    readEntry key v = .ok (number, crate) ↔ Spells key number.toNat ∧ IsRecord v crate := by
  rw [readEntry_eq_ok, StandsIn, contains_toJson_iff]
  refine and_congr_left fun _ => ?_
  simp only [Option.map_eq_some_iff, ofText?_eq_some_iff]
  constructor
  · rintro ⟨n, ⟨hspells, hlt⟩, rfl⟩
    rw [UInt32.toNat_ofNat_of_lt' hlt]
    exact hspells
  · intro h
    exact ⟨number.toNat, ⟨h, number.toNat_lt⟩, UInt32.ofNat_toNat⟩

theorem exists_readEntry_eq_ok_iff : (∃ entry, readEntry m.1 m.2 = .ok entry) ↔ IsIntact m := by
  rw [Prod.exists]
  simp only [readEntry_eq_ok_iff]
  constructor
  · rintro ⟨number, crate, hspells, hrecord⟩
    exact ⟨⟨number.toNat, number.toNat_lt, hspells⟩, crate, hrecord⟩
  · rintro ⟨⟨n, hlt, hspells⟩, crate, hrecord⟩
    refine ⟨.ofNat n, crate, ?_, hrecord⟩
    rw [UInt32.toNat_ofNat_of_lt' hlt]
    exact hspells

theorem readEntry_eq_error_iff : readEntry m.1 m.2 = .error fault ↔ IsBroken m fault := by
  unfold readEntry
  split
  · rename_i n hn
    have hkey : IsKey m.1 := isKey_iff.2 ⟨n, hn⟩
    rw [bind_eq_error]
    constructor
    · rintro (hvalue | ⟨_, -, hpure⟩)
      · exact .value hkey hvalue
      · cases hpure
    · rintro (hnone | ⟨-, hvalue⟩)
      · exact absurd hkey hnone
      · exact .inl hvalue
  · rename_i hnone
    have hkey : ¬ IsKey m.1 := by
      rw [isKey_iff, hnone]
      rintro ⟨n, hn⟩
      cases hn
    constructor
    · intro h
      cases h
      exact .key hkey
    · rintro (_ | ⟨hkey', -⟩)
      · rfl
      · exact absurd hkey' hkey

/-- The entries that are read from the members. -/
def entriesOf (members : List (String × Json)) : List (UInt32 × ExternalCrate) :=
  members.filterMap fun m => (readEntry m.1 m.2).toOption

theorem readEntries_eq_ok_iff {crates : List (UInt32 × ExternalCrate)} :
    (Json.obj members).readEntries (readEntry · ·) = .ok crates ↔
      (∀ m ∈ members, IsIntact m) ∧ crates = entriesOf members := by
  rw [Decode.readEntries_obj, mapM_eq_ok_iff]
  simp only [exists_within_eq_ok, exists_readEntry_eq_ok_iff, toOption_within]
  rfl

/-- With ascending keys the first fault is that of the least broken key. -/
theorem readEntries_eq_error_iff (hmembers : Table.Ascending members) :
    (Json.obj members).readEntries (readEntry · ·) = .error fault ↔
      ∃ m ∈ members, (∀ other ∈ members, compare other.1 m.1 = .lt → IsIntact other) ∧
        ∃ inner, IsBroken m inner ∧ fault = inner.within (.key m.1) := by
  rw [Decode.readEntries_obj, mapM_eq_error_iff]
  simp only [exists_within_eq_ok, exists_readEntry_eq_ok_iff, within_eq_error,
    readEntry_eq_error_iff]
  constructor
  · rintro ⟨before, m, after, rfl, hbefore, hbroken⟩
    refine ⟨m, List.mem_append_right _ List.mem_cons_self, fun other hother hlt => ?_, hbroken⟩
    rcases List.mem_append.1 hother with hother | hother
    · exact hbefore other hother
    · rcases List.mem_cons.1 hother with rfl | hother
      · rw [Std.ReflOrd.compare_self] at hlt
        cases hlt
      · have hgt := (List.pairwise_cons.1 (List.pairwise_append.1 hmembers).2.1).1 other hother
        rw [Std.OrientedOrd.eq_swap, hgt] at hlt
        cases hlt
  · rintro ⟨m, hm, hearlier, hbroken⟩
    obtain ⟨before, after, rfl⟩ := List.append_of_mem hm
    refine ⟨before, m, after, rfl, fun other hother => ?_, hbroken⟩
    exact hearlier other (List.mem_append_left _ hother)
      ((List.pairwise_append.1 hmembers).2.2 other hother m List.mem_cons_self)

/-- Whether a crate is the record under the greatest of the keys that spell a number. -/
def Prevails (members : List (String × Json)) (n : Nat) (crate : ExternalCrate) : Prop :=
  ∃ m ∈ members, IsGreatest (members.map Prod.fst) n m.1 ∧ IsRecord m.2 crate

section

variable {last : String × Json} {n : Nat}

theorem prevails_iff_of_pos (hn : 0 < n) (hplain : toString n ∈ members.map Prod.fst) :
    Prevails members n crate ↔ ∃ v, (toString n, v) ∈ members ∧ IsRecord v crate := by
  unfold Prevails
  simp only [isGreatest_iff_of_pos hn hplain]
  constructor
  · rintro ⟨⟨_, v⟩, hm, rfl, hrecord⟩
    exact ⟨v, hm, hrecord⟩
  · rintro ⟨v, hm, hrecord⟩
    exact ⟨_, hm, rfl, hrecord⟩

theorem prevails_zero_iff :
    Prevails members 0 crate ↔ ∃ m ∈ members, IsRecord m.2 crate ∧
      (IsLongestZeros (members.map Prod.fst) "" m.1 ∨
        (∀ k, 0 < k → zeros "" k ∉ members.map Prod.fst) ∧
          IsLongestZeros (members.map Prod.fst) "+" m.1) := by
  unfold Prevails
  simp only [isGreatest_zero_iff, and_comm]

/-- A member above all others takes the place of those that have its number. -/
theorem prevails_concat_of_spells (hlast : Spells last.1 n)
    (hbelow : ∀ other ∈ members.map Prod.fst, compare other last.1 = .lt) :
    Prevails (members ++ [last]) n crate ↔ IsRecord last.2 crate := by
  unfold Prevails
  rw [List.map_append, List.map_singleton]
  simp only [isGreatest_concat_of_spells hlast hbelow]
  constructor
  · rintro ⟨m, hm, heq, hcrate⟩
    rcases List.mem_append.1 hm with hm | hm
    · have hlt := hbelow m.1 (List.mem_map_of_mem hm)
      rw [heq, Std.ReflOrd.compare_self] at hlt
      cases hlt
    · rwa [List.mem_singleton.1 hm] at hcrate
  · intro hcrate
    exact ⟨last, List.mem_append_right _ List.mem_cons_self, rfl, hcrate⟩

theorem prevails_concat_of_not_spells (hlast : ¬ Spells last.1 n) :
    Prevails (members ++ [last]) n crate ↔ Prevails members n crate := by
  unfold Prevails
  rw [List.map_append, List.map_singleton]
  simp only [isGreatest_concat_of_not_spells hlast]
  constructor
  · rintro ⟨m, hm, hgreatest, hcrate⟩
    rcases List.mem_append.1 hm with hm | hm
    · exact ⟨m, hm, hgreatest, hcrate⟩
    · rw [List.mem_singleton.1 hm] at hgreatest
      exact absurd hgreatest.spells hlast
  · rintro ⟨m, hm, h⟩
    exact ⟨m, List.mem_append_left _ hm, h⟩

theorem entriesOf_concat {entry : UInt32 × ExternalCrate}
    (h : readEntry last.1 last.2 = .ok entry) :
    entriesOf (members ++ [last]) = entriesOf members ++ [entry] := by
  rw [entriesOf, List.filterMap_append, List.filterMap_cons_some (b := entry) (by rw [h]; rfl)]
  rfl

end

/-- The greatest of the keys that spell a number decides what the table has under it. -/
theorem getElem?_ofEntries_iff (hmembers : Table.Ascending members)
    (hintact : ∀ m ∈ members, IsIntact m) :
    (Table.ofEntries (entriesOf members))[number]? = some crate ↔
      Prevails members number.toNat crate := by
  induction members using List.reverseRecOn with
  | nil => simp [entriesOf, Table.ofEntries, Prevails]
  | append_singleton members last ih =>
    obtain ⟨hbefore, -, hlast⟩ := List.pairwise_append.1 hmembers
    obtain ⟨⟨given, record⟩, hentry⟩ := exists_readEntry_eq_ok_iff.2
      (hintact last (List.mem_append_right _ List.mem_cons_self))
    obtain ⟨hspells, hrecord⟩ := readEntry_eq_ok_iff.1 hentry
    rw [entriesOf_concat hentry, Table.ofEntries_concat, Std.ExtTreeMap.getElem?_insert]
    by_cases hnumber : given = number
    · have hbelow : ∀ other ∈ members.map Prod.fst, compare other last.1 = .lt := by
        intro other hother
        obtain ⟨m, hm, rfl⟩ := List.mem_map.1 hother
        exact hlast m hm last List.mem_cons_self
      subst hnumber
      rw [if_pos Std.ReflOrd.compare_self, prevails_concat_of_spells hspells hbelow]
      constructor
      · intro h
        cases h
        exact hrecord
      · intro hcrate
        rw [hrecord.eq hcrate]
    · have hother : ¬ Spells last.1 number.toNat := fun h =>
        hnumber (UInt32.toNat_inj.1 (hspells.eq h))
      rw [if_neg fun heq => hnumber (Std.LawfulEqOrd.eq_of_compare heq),
        prevails_concat_of_not_spells hother]
      exact ih hbefore fun m hm => hintact m (List.mem_append_left _ hm)

theorem mem_ofEntries_iff (hintact : ∀ m ∈ members, IsIntact m) :
    number ∈ Table.ofEntries (entriesOf members) ↔ ∃ m ∈ members, Spells m.1 number.toNat := by
  rw [Table.ofEntries, Std.ExtTreeMap.mem_ofList, List.contains_iff_mem, List.mem_map]
  constructor
  · rintro ⟨⟨number, crate⟩, hentry, rfl⟩
    obtain ⟨m, hm, hread⟩ := List.mem_filterMap.1 hentry
    exact ⟨m, hm, (readEntry_eq_ok_iff.1 (toOption_eq_some.1 hread)).1⟩
  · rintro ⟨m, hm, hspells⟩
    obtain ⟨-, crate, hrecord⟩ := hintact m hm
    have hread := readEntry_eq_ok_iff.2 ⟨hspells, hrecord⟩
    refine ⟨(number, crate), List.mem_filterMap.2 ⟨m, hm, ?_⟩, rfl⟩
    rw [hread]
    rfl

/-- How a decoding settles the members of the table of external crates. -/
structure Settled (mode : Mode) (document : Json) (members : List (String × Json)) : Prop where
  /-- The table is read when all its members are intact. -/
  run_eq_ok_iff :
    Decode.Check.externalCrates.run mode document = .ok () ↔ ∀ m ∈ members, IsIntact m
  run_of_decode : ∀ decoded, decode mode document = .ok decoded →
    Decode.Check.externalCrates.run mode document = .ok ()
  /-- Otherwise it fails with the fault of the least broken key. -/
  run_eq_error_iff : ∀ error, Decode.Check.externalCrates.run mode document = .error error ↔
    ∃ m ∈ members, (∀ other ∈ members, compare other.1 m.1 = .lt → IsIntact other) ∧
      ∃ inner, IsBroken m inner ∧
        error = .fault ((inner.within (.key m.1)).within (.key "external_crates"))
  decode_eq_error : ∀ error, Decode.Check.externalCrates.run mode document = .error error →
    (∀ check ∈ Decode.Check.externalCrates.earlier, check.run mode document = .ok ()) →
    decode mode document = .error error
  /-- A number has an entry when a key spells it. -/
  mem_iff : ∀ decoded, decode mode document = .ok decoded → ∀ number : UInt32,
    number ∈ decoded.crate.externalCrates ↔ ∃ m ∈ members, Spells m.1 number.toNat
  /-- The entry is the one under the greatest key that spells the number. -/
  getElem?_iff : ∀ decoded, decode mode document = .ok decoded →
    ∀ (number : UInt32) crate,
      decoded.crate.externalCrates[number]? = some crate ↔ Prevails members number.toNat crate
  /-- The plain digits of a positive number win over its other spellings. -/
  getElem?_iff_of_pos : ∀ decoded, decode mode document = .ok decoded → ∀ number : UInt32,
    0 < number.toNat → toString number.toNat ∈ members.map Prod.fst → ∀ crate,
      (decoded.crate.externalCrates[number]? = some crate ↔
        ∃ v, (toString number.toNat, v) ∈ members ∧ IsRecord v crate)
  /-- For zero the longest run of zeros wins, and one without a sign over those with a sign. -/
  getElem?_zero_iff : ∀ decoded, decode mode document = .ok decoded → ∀ crate,
    decoded.crate.externalCrates[(0 : UInt32)]? = some crate ↔
      ∃ m ∈ members, IsRecord m.2 crate ∧
        (IsLongestZeros (members.map Prod.fst) "" m.1 ∨
          (∀ k, 0 < k → zeros "" k ∉ members.map Prod.fst) ∧
            IsLongestZeros (members.map Prod.fst) "+" m.1)

variable {document : Json} {mode : Mode}

theorem entries_of_member? {r : Record document} {α : Type} (read : String → Json → Reading α)
    (h : member? r.members key = some v) :
    r.entries key (read · ·) = (v.readEntries (read · ·)).within (.key key) := by
  obtain ⟨part, rfl⟩ := Record.exists_part h
  unfold Record.entries Record.field Record.required
  rw [Record.get?_eq_some.2 h]
  rfl

/-- The check of the table depends on its members only. -/
theorem run_eq_outcome
    (hmember : Decode.field? document "external_crates" = some (.obj members)) :
    Decode.Check.externalCrates.run mode document = outcome (liftM
      (((Json.obj members).readEntries (readEntry · ·)).within (.key "external_crates"))) := by
  cases document with
  | obj fields =>
    have hentries := entries_of_member? (r := ⟨fields, rfl⟩) readEntry hmember
    rw [Decode.Check.run_eq_ofRecord mode ⟨fields, rfl⟩, Decode.Check.ofRecord, hentries]
  | _ => cases hmember

theorem run_eq_ok_iff
    (hmember : Decode.field? document "external_crates" = some (.obj members)) :
    Decode.Check.externalCrates.run mode document = .ok () ↔ ∀ m ∈ members, IsIntact m := by
  rw [run_eq_outcome hmember, outcome_eq_ok]
  simp only [Decode.liftM_eq_ok, within_eq_ok, readEntries_eq_ok_iff]
  constructor
  · rintro ⟨_, h, -⟩
    exact h
  · intro h
    exact ⟨_, h, rfl⟩

theorem run_eq_error_iff {error : DecodeError}
    (hmember : Decode.field? document "external_crates" = some (.obj members))
    (hmembers : Table.Ascending members) :
    Decode.Check.externalCrates.run mode document = .error error ↔
      ∃ m ∈ members, (∀ other ∈ members, compare other.1 m.1 = .lt → IsIntact other) ∧
        ∃ inner, IsBroken m inner ∧
          error = .fault ((inner.within (.key m.1)).within (.key "external_crates")) := by
  rw [run_eq_outcome hmember, outcome_eq_error, Decode.liftM_eq_error]
  constructor
  · rintro ⟨fault, hfault, rfl⟩
    obtain ⟨inner, hinner, rfl⟩ := within_eq_error.1 hfault
    obtain ⟨m, hm, hearlier, inner, hbroken, rfl⟩ := (readEntries_eq_error_iff hmembers).1 hinner
    exact ⟨m, hm, hearlier, inner, hbroken, rfl⟩
  · rintro ⟨m, hm, hearlier, inner, hbroken, rfl⟩
    have hinner := (readEntries_eq_error_iff hmembers).2 ⟨m, hm, hearlier, inner, hbroken, rfl⟩
    exact ⟨_, within_eq_error.2 ⟨_, hinner, rfl⟩, rfl⟩

theorem table_of_decode {decoded : Decoded} (hdecode : decode mode document = .ok decoded)
    (hmember : Decode.field? document "external_crates" = some (.obj members)) :
    (∀ m ∈ members, IsIntact m) ∧
      decoded.crate.externalCrates = .ofEntries (entriesOf members) := by
  obtain ⟨r, crates, results, summaries, h⟩ := decode_eq_ok.1 hdecode
  have hcrates := h.externalCrates
  rw [Decode.field?_eq r] at hmember
  rw [entries_of_member? readEntry hmember, within_eq_ok, readEntries_eq_ok_iff] at hcrates
  obtain ⟨hintact, rfl⟩ := hcrates
  exact ⟨hintact, h.externalCrates_eq⟩

theorem getElem?_of_decode {decoded : Decoded} (hdecode : decode mode document = .ok decoded)
    (hmember : Decode.field? document "external_crates" = some (.obj members))
    (hmembers : Table.Ascending members) :
    decoded.crate.externalCrates[number]? = some crate ↔ Prevails members number.toNat crate := by
  obtain ⟨hintact, htable⟩ := table_of_decode hdecode hmember
  rw [htable, getElem?_ofEntries_iff hmembers hintact]

/-- In a decoding colliding entries are settled by the order of their keys. -/
theorem settled_of_ascending
    (hmember : Decode.field? document "external_crates" = some (.obj members))
    (hmembers : Table.Ascending members) : Settled mode document members := by
  constructor
  case run_eq_ok_iff => exact run_eq_ok_iff hmember
  case run_of_decode =>
    intro decoded hdecode
    exact (run_eq_ok_iff hmember).2 (table_of_decode hdecode hmember).1
  case run_eq_error_iff =>
    intro error
    exact run_eq_error_iff hmember hmembers
  case decode_eq_error =>
    intro error herror hearlier
    exact decode_eq_error_iff.2 ⟨.externalCrates, by decide, hearlier, herror⟩
  case mem_iff =>
    intro decoded hdecode number
    obtain ⟨hintact, htable⟩ := table_of_decode hdecode hmember
    rw [htable, mem_ofEntries_iff hintact]
  case getElem?_iff =>
    intro decoded hdecode number crate
    exact getElem?_of_decode hdecode hmember hmembers
  case getElem?_iff_of_pos =>
    intro decoded hdecode number hpos hplain crate
    rw [getElem?_of_decode hdecode hmember hmembers, prevails_iff_of_pos hpos hplain]
  case getElem?_zero_iff =>
    intro decoded hdecode crate
    rw [getElem?_of_decode hdecode hmember hmembers, UInt32.toNat_zero, prevails_zero_iff]

/-- External crates under several spellings of two numbers. -/
def respellings : List (String × Json) :=
  let named (key name : String) : String × Json := (key, .obj [("name", .str name)])
  [named "+0" "signed", named "+7" "plus", named "0" "zero", named "00" "zeros",
    named "007" "padded", named "7" "plain"]

def respelledCrates : Json :=
  BareCrate.document {
    externalCrates := respellings
    index := [BareItem.entry { id := "0", inner := bareModule [] }] }

theorem settled_respelledCrates :
    ∃ decoded, decode .strict respelledCrates = .ok decoded ∧
      decoded.crate.externalCrates[(7 : UInt32)]? = some ⟨"plain", none⟩ ∧
      decoded.crate.externalCrates[(0 : UInt32)]? = some ⟨"zeros", none⟩ := by
  have hplain : ("7", .obj [("name", .str "plain")]) ∈ respellings := by simp [respellings]
  have hzeros : ("00", .obj [("name", .str "zeros")]) ∈ respellings := by simp [respellings]
  have h : decode .strict respelledCrates = .ok _ := rfl
  have hmembers : Table.Ascending respellings := by
    rw [Table.Ascending]
    decide +kernel
  have hsettled : Settled .strict respelledCrates respellings :=
    settled_of_ascending rfl hmembers
  refine ⟨_, h, ?_, ?_⟩
  · refine (hsettled.getElem?_iff_of_pos _ h 7 (by decide) (by decide +kernel) _).2 ?_
    exact ⟨_, hplain, _, rfl, rfl, rfl⟩
  · refine (hsettled.getElem?_zero_iff _ h _).2 ?_
    refine ⟨_, hzeros, ⟨_, rfl, rfl, rfl⟩, .inl ⟨2, by omega, rfl, by decide +kernel, ?_⟩⟩
    intro j hj
    -- No key is longer than three characters, and none is three zeros.
    have hlength : ∀ key ∈ respellings.map Prod.fst, key.length ≤ 3 := by decide +kernel
    have hle := hlength _ hj
    rw [← String.length_toList, toList_zeros, List.length_append, List.length_replicate] at hle
    have hthree : zeros "" 3 ∉ respellings.map Prod.fst := by decide +kernel
    have hne : j ≠ 3 := by
      rintro rfl
      exact hthree hj
    omega

end ExternalCrate

end CrateDocs
