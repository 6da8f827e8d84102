import CrateDocs.Proofs.Exactness.Crate
import CrateDocs.Proofs.Faults.Decode

/-!
# Entries of the index are isolated

Each entry of the index is read on its own. What a broken entry costs is the entry itself and one
report that names it, and what is done to one entry is not felt by the others. The one phase that
looks at a particular entry is the check of the root.
-/

namespace CrateDocs

open Reading

namespace Json

/-- The members with another value under a key, wherever the key occurs. -/
def replaceMember (key : String) (value : Json) (members : List (String × Json)) :
    List (String × Json) :=
  members.map fun m => if m.1 = key then (key, value) else m

/-- The same document with other entries in its index. -/
def withIndex (others : List (String × Json)) : Json → Json
  | .obj members => .obj (replaceMember "index" (.obj others) members)
  | v => v

variable {members : List (String × Json)} {key name : String} {value : Json}

theorem lookup_replaceMember :
    (replaceMember key value members).lookup name =
      if name = key then (members.lookup name).map fun _ => value else members.lookup name := by
  unfold replaceMember
  induction members with
  | nil => simp
  | cons m rest ih =>
    obtain ⟨first, w⟩ := m
    rw [List.map_cons, List.lookup_cons]
    by_cases hname : name = first
    · subst hname
      by_cases hkey : name = key <;> simp [hkey]
    · have hother : (name == first) = false := beq_eq_false_iff_ne.2 hname
      by_cases hkey : first = key
      · subst hkey
        simp [List.lookup_cons, hother, hname, ih]
      · simp [List.lookup_cons, hother, hkey, ih]

theorem member?_replaceMember_of_ne (h : name ≠ key) :
    member? (replaceMember key value members) name = member? members name := by
  rw [member?, lookup_replaceMember, if_neg h, member?]

theorem member?_replaceMember_self {w : Json} (h : member? members key = some w)
    (hvalue : value ≠ .null) :
    member? (replaceMember key value members) key = some value := by
  have hlookup : ∃ found, members.lookup key = some found := by
    unfold member? at h
    split at h
    · cases h
    · exact ⟨w, h⟩
  obtain ⟨found, hlookup⟩ := hlookup
  rw [member?, lookup_replaceMember, if_pos rfl, hlookup]
  cases value with
  | null => exact absurd rfl hvalue
  | _ => rfl

theorem hasField_replaceMember {expected : Json} (h : name ≠ key) :
    HasField (replaceMember key value members) name expected ↔
      HasField members name expected := by
  rw [HasField, HasField, member?_replaceMember_of_ne h]

end Json

namespace Decode

variable {members others : List (String × Json)} {item : Item} {id : ItemId}

/-- Whether a member of the index is read as an item. -/
def isIntact (m : String × Json) : Bool :=
  (entry m.1 m.2).isOk

def intact (members : List (String × Json)) : List (String × Json) :=
  members.filter isIntact

def broken (members : List (String × Json)) : List (String × Json) :=
  members.filter fun m => !isIntact m

/-- The index that is read from the given members. -/
def readIndex (members : List (String × Json)) : Table ItemId Item :=
  indexOf (kept (members.map result))

theorem kept_map_result :
    kept (members.map result) = members.filterMap fun m => (entry m.1 m.2).toOption := by
  unfold kept
  rw [List.filterMap_map]
  refine List.filterMap_congr fun m _ => ?_
  rw [Function.comp_apply, result]
  cases entry m.1 m.2 <;> rfl

/-- Broken members leave no trace in the index. -/
theorem readIndex_intact : readIndex (intact members) = readIndex members := by
  have hkept : kept ((intact members).map result) = kept (members.map result) := by
    rw [kept_map_result, kept_map_result, intact, List.filterMap_filter]
    refine List.filterMap_congr fun m _ => ?_
    unfold isIntact
    cases entry m.1 m.2 <;> rfl
  rw [readIndex, hkept, readIndex]

theorem toOption_entry {key : String} {v : Json} :
    (entry key v).toOption = some item ↔ entry key v = .ok item := by
  cases entry key v <;> simp [Except.toOption]

theorem ascending_kept (h : Table.Ascending members) :
    Table.Ascending ((kept (members.map result)).map fun item => (item.id, item)) := by
  rw [Table.Ascending, List.pairwise_map, kept_map_result, List.pairwise_filterMap]
  refine h.imp fun {a b} hlt item hitem other hother => ?_
  have hid : item.id = ⟨a.1⟩ := id_of_entry (toOption_entry.1 hitem)
  have hid' : other.id = ⟨b.1⟩ := id_of_entry (toOption_entry.1 hother)
  rw [hid, hid']
  exact hlt

/-- The index holds the items of the intact members: they stand under the identifiers that they
bear, so that none is written over another. -/
theorem getElem?_readIndex (h : Table.Ascending members) :
    (readIndex members)[id]? = some item ↔
      ∃ v, (id.text, v) ∈ members ∧ entry id.text v = .ok item := by
  rw [readIndex, indexOf, Table.getElem?_ofEntries (ascending_kept h), kept_map_result]
  simp only [List.mem_map, List.mem_filterMap, toOption_entry, Prod.mk.injEq]
  constructor
  · intro h
    rcases h with ⟨_, ⟨⟨key, v⟩, hmem, hentry⟩, rfl, rfl⟩
    rw [id_of_entry hentry]
    exact ⟨v, hmem, hentry⟩
  · intro h
    rcases h with ⟨v, hmem, hentry⟩
    exact ⟨item, ⟨(id.text, v), hmem, hentry⟩, id_of_entry hentry, rfl⟩

theorem ascending_broken (h : Table.Ascending members) : Table.Ascending (broken members) :=
  h.filter _

/-- Each broken member is reported once, in the order of the members. -/
theorem forall₂_dropped (members : List (String × Json)) :
    List.Forall₂ (fun m problem => result m = .error problem) (broken members)
      (dropped (members.map result)) := by
  induction members with
  | nil => exact .nil
  | cons m rest ih =>
    cases hentry : entry m.1 m.2 with
    | ok item =>
      have hresult : result m = .ok item := by rw [result, hentry]; rfl
      have hintact : isIntact m = true := by rw [isIntact, hentry]; rfl
      simpa [broken, dropped, hresult, hintact] using ih
    | error error =>
      have hresult : result m =
          .error ((error.within (.key m.1)).within (.key "index")) := by rw [result, hentry]; rfl
      have hbroken : isIntact m = false := by rw [isIntact, hentry]; rfl
      simpa [broken, dropped, hresult, hbroken] using ih

end Decode

/-- The path of a fault inside an entry of the index goes on from the key of the entry. -/
theorem Fault.path_eq_of_entry {fault : Fault} {key text : String} {rest : Location}
    (hlocation : fault.location = .key "index" :: .key key :: rest) (htext : rest.SpelledBy text) :
    fault.path = "$.index." ++ key ++ text := by
  rw [path, hlocation, Location.render_eq_iff.2 (.key "index" (.key key htext))]
  simp only [String.append_assoc]
  rfl

/-- Whether an error is one of an entry of the index: it says that an item with another identifier
stands under the key, or it is a fault whose path leads to the entry, and perhaps further. -/
def DecodeError.Names (key : String) : DecodeError → Prop
  | .keyMismatch named _ => named = ⟨key⟩
  | .fault f =>
    f.cause ≠ .nonNumericKey ∧ ∃ (rest : Location) (text : String),
      f.location = .key "index" :: .key key :: rest ∧ rest.SpelledBy text ∧
        f.path = "$.index." ++ key ++ text
  | .malformed | .unsupportedVersion _ | .danglingReference _ _ | .invalidRoot _ _ => False

theorem DecodeError.isFatal_of_names {key : String} {error : DecodeError} (h : error.Names key) :
    error.isFatal = false := by
  cases error with
  | keyMismatch | fault | danglingReference => rfl
  | malformed | unsupportedVersion | invalidRoot => cases h

theorem Decode.names_of_result_eq_error {m : String × Json} {problem : DecodeError}
    (h : result m = .error problem) : problem.Names m.1 := by
  obtain ⟨error, herror, rfl⟩ := mapError_eq_error.1 h
  rcases pointsInto_of_entry_eq_error herror with ⟨fault, rfl, w, -, hcause⟩ | ⟨id, rfl⟩
  · have htext := Location.spelledBy_join fault.location
    refine ⟨?_, _, _, rfl, htext, Fault.path_eq_of_entry rfl htext⟩
    intro hkey
    rw [show fault.cause = .nonNumericKey from hkey] at hcause
    exact hcause
  · rfl

namespace Decode

variable {members others : List (String × Json)} {id : ItemId} {mode : Mode} {document : Json}
  {decoded : Decoded} {r : Record document} {crates : List (UInt32 × ExternalCrate)}
  {results : List (Except DecodeError Item)} {summaries : List (ItemId × ItemSummary)}

/-- What comes of the same document with other entries in its index. Nothing but the index and the
reports is affected, as long as the root is a module there. -/
theorem Succeeds.decode_withIndex (h : Succeeds mode r crates results summaries decoded)
    (others : List (String × Json)) {crate : Crate}
    (hcrate : crate = { decoded.crate with index := readIndex others })
    (hroot : crate.checkRoot = .ok ()) :
    decode .lenient (document.withIndex others) =
      .ok ⟨crate, dropped (others.map result) ++ crate.danglingReferences⟩ := by
  obtain ⟨fields, rfl⟩ := r
  subst hcrate
  -- Every phase but that of the index asks for fields that are still the same.
  have hmember {name : String} (hne : name ≠ "index") :
      Json.member? (Json.replaceMember "index" (.obj others) fields) name =
        Json.member? fields name :=
    Json.member?_replaceMember_of_ne hne
  have hfield {name : String} {expected : Json} (hne : name ≠ "index")
      (hfield : Json.HasField fields name expected) :
      Json.HasField (Json.replaceMember "index" (.obj others) fields) name expected :=
    (Json.hasField_replaceMember hne).2 hfield
  obtain ⟨members, hindex, -⟩ := entries_eq_ok.1 h.entries
  have hothers : Json.member? (Json.replaceMember "index" (.obj others) fields) "index" =
      some (.obj others) :=
    Json.member?_replaceMember_self hindex (by simp)
  refine decode_eq_ok.2 ⟨⟨_, rfl⟩, crates, others.map result, summaries, ?_⟩
  exact {
    version := version_eq_ok.2 ((version_eq_ok.1 h.version).imp_right (hfield (by simp)))
    presence := by
      refine presence_eq_ok.2 fun field hmem => ?_
      by_cases heq : field = "index"
      · rw [heq, hothers]
        rfl
      · rw [hmember heq]
        exact presence_eq_ok.1 h.presence field hmem
    root := (Record.id_eq_ok (by simp)).2
      (hfield (by simp) ((Record.id_eq_ok (by simp)).1 h.root))
    includesPrivate := (Record.bool_eq_ok (by simp)).2
      (hfield (by simp) ((Record.bool_eq_ok (by simp)).1 h.includesPrivate))
    crateVersion := (Record.string?_eq_ok (by simp)).2
      (hfield (by simp) ((Record.string?_eq_ok (by simp)).1 h.crateVersion))
    externalCrates := by
      rw [Record.externalCrates_eq_ok, hmember (by simp)]
      exact Record.externalCrates_eq_ok.1 h.externalCrates
    entries := entries_eq_ok.2 ⟨others, hothers, rfl⟩
    paths := by
      rw [Record.summaries_eq_ok, hmember (by simp)]
      exact Record.summaries_eq_ok.1 h.paths
    externalCrates_eq := h.externalCrates_eq
    index_eq := rfl
    paths_eq := h.paths_eq
    tolerate_dropped := rfl
    tolerate_dangling := rfl
    checkRoot := hroot
    diagnostics_eq := rfl }

/-- What is done to one member of the index is not felt at other keys. -/
theorem getElem?_readIndex_of_ne {key : String} (hmembers : Table.Ascending members)
    (hothers : Table.Ascending others) (hagree : ∀ m, m.1 ≠ key → (m ∈ others ↔ m ∈ members))
    (hid : id.text ≠ key) : (readIndex others)[id]? = (readIndex members)[id]? := by
  refine Option.ext fun item => ?_
  rw [getElem?_readIndex hothers, getElem?_readIndex hmembers]
  simp only [hagree (id.text, _) hid]

theorem dropped_intact : dropped ((intact members).map result) = [] := by
  have hnone : broken (intact members) = [] := by
    rw [broken, intact, List.filter_filter]
    simp
  have h := forall₂_dropped (intact members)
  rw [hnone, List.forall₂_nil_left_iff] at h
  exact h

/-- How the members of an index and the result of a decoding are related. -/
structure Isolated (document : Json) (members : List (String × Json)) (decoded : Decoded) :
    Prop where
  /-- The index holds the members that are read on their own, and nothing else. -/
  index : ∀ {id : ItemId} {item : Item}, decoded.crate.index[id]? = some item ↔
    ∃ v, (id.text, v) ∈ members ∧ entry id.text v = .ok item
  /-- The others are reported first, one by one in the order of their keys. -/
  reports : Table.Ascending (broken members) ∧
    ∃ problems, decoded.diagnostics = problems ++ decoded.crate.danglingReferences ∧
      List.Forall₂
        (fun m problem => result m = .error problem ∧ problem.Names m.1 ∧ problem.isFatal = false)
        (broken members) problems
  /-- The same crate comes of the document without them. -/
  intact : decode .lenient (document.withIndex (intact members)) =
    .ok ⟨decoded.crate, decoded.crate.danglingReferences⟩
  /-- If anything but the root is replaced, added or deleted, the document is still decoded, and
  every other item is kept. -/
  edited : ∀ {key : String} {others : List (String × Json)}, key ≠ decoded.crate.root.text →
    Table.Ascending others → (∀ m, m.1 ≠ key → (m ∈ others ↔ m ∈ members)) →
    ∃ edited, decode .lenient (document.withIndex others) = .ok edited ∧
      edited.crate = { decoded.crate with index := edited.crate.index } ∧
      ∀ id : ItemId, id.text ≠ key → edited.crate.index[id]? = decoded.crate.index[id]?

theorem Succeeds.isolated (h : Succeeds .lenient r crates (members.map result) summaries decoded)
    (hmembers : Table.Ascending members) : Isolated document members decoded where
  index := by
    rw [h.index_eq]
    exact getElem?_readIndex hmembers
  reports := by
    refine ⟨ascending_broken hmembers, _, h.diagnostics_eq, ?_⟩
    refine (forall₂_dropped members).imp fun m problem hproblem => ?_
    have hnames := names_of_result_eq_error hproblem
    exact ⟨hproblem, hnames, DecodeError.isFatal_of_names hnames⟩
  intact := by
    have hcrate : decoded.crate =
        { decoded.crate with index := readIndex (Decode.intact members) } := by
      rw [readIndex_intact, readIndex, ← h.index_eq]
    have hdecode := h.decode_withIndex _ hcrate h.checkRoot
    rwa [dropped_intact, List.nil_append] at hdecode
  edited := by
    intro key others hkey hothers hagree
    have hindex {id : ItemId} (hid : id.text ≠ key) :
        (readIndex others)[id]? = decoded.crate.index[id]? := by
      rw [h.index_eq]
      exact getElem?_readIndex_of_ne hmembers hothers hagree hid
    have hroot : { decoded.crate with index := readIndex others }.checkRoot = .ok () := by
      rw [Crate.checkRoot_eq_ok, hindex hkey.symm, ← Crate.checkRoot_eq_ok]
      exact h.checkRoot
    exact ⟨_, h.decode_withIndex others rfl hroot, rfl, fun id hid => hindex hid⟩

end Decode

/-- In every document that is decoded leniently, the entries of the index are isolated. -/
theorem isolated_of_decode {document : Json} {decoded : Decoded} (hdocument : document.Canonical)
    (h : decode .lenient document = .ok decoded) :
    ∃ fields members, document = .obj fields ∧
      Json.member? fields "index" = some (.obj members) ∧
      Decode.Isolated document members decoded := by
  obtain ⟨⟨fields, rfl⟩, crates, results, summaries, h⟩ := decode_eq_ok.1 h
  obtain ⟨members, hmember, rfl⟩ := Decode.entries_eq_ok.1 h.entries
  exact ⟨fields, members, rfl, hmember, h.isolated (hdocument.member? hmember).1⟩

/-- A crate with two broken entries: one is not an object, and one stands under a wrong key. -/
def strayEntries : Json :=
  BareCrate.document {
    index := [
      BareItem.entry { id := "0", inner := bareModule ["1"] },
      ("1", .str "absent"),
      ("2", .obj (BareItem.members { id := "0", inner := [("tag", .str "ForeignType")] }))] }

theorem isolated_strayEntries :
    ∃ decoded fields members, decode .lenient strayEntries = .ok decoded ∧
      decoded.diagnostics =
        [.fault ⟨[.key "index", .key "1"], .mismatch .object .string⟩, .keyMismatch ⟨"2"⟩ ⟨"0"⟩,
          .danglingReference ⟨"1"⟩ ⟨"0"⟩] ∧
      Fault.path ⟨[.key "index", .key "1"], .mismatch .object .string⟩ = "$.index.1" ∧
      Json.member? fields "index" = some (.obj members) ∧
      Decode.Isolated strayEntries members decoded := by
  have hcanonical : strayEntries.Canonical := by
    have hmodule := BareItem.canonical_members ⟨"0", _, []⟩ (canonical_bareModule ["1"]) trivial
    have hforeign := BareItem.canonical_members ⟨"0", _, []⟩ (canonical_tag "ForeignType") trivial
    refine BareCrate.canonical_document _ canonical_empty ⟨?_, hmodule, trivial, hforeign, trivial⟩
      canonical_empty trivial
    simp [Table.Ascending, BareItem.entry]
    decide
  have h : decode .lenient strayEntries = .ok _ := rfl
  obtain ⟨fields, members, -, hmember, hisolated⟩ := isolated_of_decode hcanonical h
  exact ⟨_, fields, members, h, by decide +kernel, by decide +kernel, hmember, hisolated⟩

end CrateDocs
