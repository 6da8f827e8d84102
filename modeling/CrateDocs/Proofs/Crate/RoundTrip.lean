import Mathlib.Data.List.Perm.Basic
import CrateDocs.Proofs.Crate.Bare
import CrateDocs.Proofs.Crate.Decode
import CrateDocs.Proofs.Crate.Strictness
import CrateDocs.Proofs.Exactness.Crate

/-!
# Documents of crates are decoded to these crates

The document of a crate holds what is written for its fields in canonical form. Each phase of
decoding finds there what the crate has, as long as the crate is well formed.
-/

namespace CrateDocs

open Json Reading

variable {crate : Crate}

namespace Crate

/-- The fields of a crate in the order of their declaration. -/
def members (crate : Crate) : List (String × Json) :=
  [("root", crate.root.toJson), ("crate_version", .ofString? crate.version),
    ("includes_private", .bool crate.includesPrivate),
    ("index", .obj (crate.index.toList.map fun (id, item) => (id.text, item.toJson))),
    ("paths", .obj (crate.paths.toList.map fun (id, summary) => (id.text, summary.toJson))),
    ("external_crates", .obj (crate.externalCrates.toList.map fun (number, external) =>
      (toString number.toNat, external.toJson))),
    ("format_version", .ofNat crate.formatVersion.toNat)]

theorem nodup_members (crate : Crate) : (crate.members.map Prod.fst).Nodup := by
  simp [members]

theorem encode_eq (crate : Crate) :
    crate.encode = .obj (sortMembers (canonicalMembers crate.members)) := by
  rw [encode, toJson, canonical, members]

theorem members_record (r : Record crate.encode) :
    r.members = sortMembers (canonicalMembers crate.members) :=
  (Json.obj.inj (crate.encode_eq.symm.trans r.eq_obj)).symm

/-- A field that is written regularly is found in the document. -/
theorem hasField_record (r : Record crate.encode) {key : String} {v : Json}
    (hm : (key, v) ∈ crate.members) (hv : v.Regular) (hnames : HoldsNames (some key) v) :
    HasField r.members key v := by
  have h := hasField_sortMembers crate.nodup_members hm (hv.containsAt_canonical hnames)
  rwa [← members_record r] at h

/-- A table is found in the document with its entries in ascending order of their keys. -/
theorem member?_record (r : Record crate.encode) {key : String} {table : List (String × Json)}
    (hm : (key, .obj table) ∈ crate.members) :
    member? r.members key = some (.obj (sortMembers (canonicalMembers table))) := by
  rw [members_record, member?_sortMembers crate.nodup_members hm nofun, canonical]

/-- The entries of a table in a document are those of the table, possibly in another order. -/
theorem exists_forall₂_table {β : Type} {entries : List β} {p : String × Json → β → Prop}
    (key : β → String) (write : β → Json) (hnodup : (entries.map key).Nodup)
    (hp : ∀ b ∈ entries, p (key b, (write b).canonical) b) :
    ∃ bs : List β, bs.Perm entries ∧
      List.Forall₂ p
        (sortMembers (canonicalMembers (entries.map fun b => (key b, write b)))) bs := by
  have hkeys : ((canonicalMembers (entries.map fun b => (key b, write b))).map
      Prod.fst).Nodup := by
    rw [map_fst_canonicalMembers, List.map_map]
    exact hnodup
  have hentries : List.Forall₂ p
      (canonicalMembers (entries.map fun b => (key b, write b))) entries := by
    rw [canonicalMembers_eq_map, List.map_map, List.forall₂_map_left_iff, List.forall₂_same]
    exact hp
  obtain ⟨bs, hbs, hperm⟩ := List.perm_comp_forall₂ (sortMembers_perm hkeys) hentries
  exact ⟨bs, hperm, hbs⟩

end Crate

namespace Decode

theorem map_result {members : List (String × Json)} {entries : List (ItemId × Item)}
    (h : List.Forall₂ (fun m e => entry m.1 m.2 = .ok e.2) members entries) :
    members.map result = (entries.map Prod.snd).map .ok := by
  induction h with
  | nil => rfl
  | cons hentry _ ih =>
    rw [List.map_cons, ih, result, hentry]
    rfl

theorem kept_map_ok (items : List Item) : kept (items.map .ok) = items := by
  unfold kept
  rw [List.filterMap_map]
  exact List.filterMap_some

theorem dropped_map_ok (items : List Item) : dropped (items.map .ok) = [] := by
  unfold dropped
  rw [List.filterMap_map]
  exact List.filterMap_eq_nil_iff.2 fun _ _ => rfl

end Decode

namespace Crate

open Decode

theorem text_injective : Function.Injective ItemId.text := by
  rintro ⟨a⟩ ⟨b⟩ heq
  exact congrArg ItemId.mk heq

theorem digits_injective : Function.Injective fun number : UInt32 => toString number.toNat := by
  intro a b heq
  have ha := Unsigned.ofText?_toString a.toNat_lt
  have hb := Unsigned.ofText?_toString b.toNat_lt
  simp only at heq
  rw [heq, hb, Option.some.injEq] at ha
  exact UInt32.toNat_inj.1 ha.symm

/-- The keys under which a table is written differ. -/
theorem nodup_keys {κ α : Type} [Ord κ] [Std.TransOrd κ] {table : Table κ α} {key : κ → String}
    (hkey : Function.Injective key) : (table.toList.map fun e => key e.1).Nodup := by
  have h := (Table.ascending_toList table).nodup_keys.map hkey
  rwa [List.map_map] at h

/-- The items of a crate are read back from the index of its document. -/
theorem exists_entries (h : crate.WellFormed) (r : Record crate.encode) :
    ∃ items : List Item, entries r = .ok (items.map .ok) ∧
      indexOf items = crate.index := by
  have hentry : ∀ e ∈ crate.index.toList, entry e.1.text e.2.toJson.canonical = .ok e.2 := by
    intro e he
    rw [← h.id_eq (Table.mem_toList_iff.1 he)]
    exact entry_of_contains (canonical_canonical _) e.2.regular_toJson.contains_canonical
  obtain ⟨entries, hperm, hentries⟩ := exists_forall₂_table
    (p := fun m e => entry m.1 m.2 = .ok e.2) (fun e : ItemId × Item => e.1.text) (·.2.toJson)
    (nodup_keys text_injective) hentry
  refine ⟨entries.map Prod.snd, ?_, ?_⟩
  · exact entries_eq_ok.2 ⟨_, member?_record r (by simp [members]), (map_result hentries).symm⟩
  · have hids : (entries.map Prod.snd).map (fun item => (item.id, item)) = entries := by
      rw [List.map_map]
      refine (List.map_congr_left fun e he => ?_).trans (List.map_id _)
      have hitem := Table.mem_toList_iff.1 (hperm.mem_iff.1 he)
      exact Prod.ext (h.id_eq hitem) rfl
    rw [indexOf, hids, Table.ofEntries_of_perm hperm]

/-- So are the summaries from its paths. -/
theorem exists_summaries (r : Record crate.encode) :
    ∃ summaries, r.entries "paths" (ItemSummary.readEntry · ·) = .ok summaries ∧
      Table.ofEntries summaries = crate.paths := by
  have hentry : ∀ e ∈ crate.paths.toList,
      ItemSummary.StandsIn (e.1.text, e.2.toJson.canonical) e :=
    fun e _ => ⟨rfl, e.2.regular_toJson.contains_canonical⟩
  obtain ⟨summaries, hperm, hsummaries⟩ := exists_forall₂_table
    (fun e : ItemId × ItemSummary => e.1.text) (·.2.toJson) (nodup_keys text_injective) hentry
  refine ⟨summaries, ?_, Table.ofEntries_of_perm hperm⟩
  exact Record.summaries_eq_ok.2 ⟨_, member?_record r (by simp [members]), hsummaries⟩

/-- So are the external crates, although their numbers are in another order as texts. -/
theorem exists_externalCrates (r : Record crate.encode) :
    ∃ crates, r.entries "external_crates" (ExternalCrate.readEntry · ·) = .ok crates ∧
      Table.ofEntries crates = crate.externalCrates := by
  have hentry : ∀ e ∈ crate.externalCrates.toList,
      ExternalCrate.StandsIn (toString e.1.toNat, e.2.toJson.canonical) e := by
    intro e _
    refine ⟨?_, e.2.regular_toJson.contains_canonical⟩
    rw [Unsigned.ofText?_toString e.1.toNat_lt, Option.map_some, UInt32.ofNat_toNat]
  obtain ⟨crates, hperm, hcrates⟩ := exists_forall₂_table
    (fun e : UInt32 × ExternalCrate => toString e.1.toNat) (·.2.toJson)
    (nodup_keys digits_injective) hentry
  refine ⟨crates, ?_, Table.ofEntries_of_perm hperm⟩
  exact Record.externalCrates_eq_ok.2 ⟨_, member?_record r (by simp [members]), hcrates⟩

/-- The document of a well-formed crate is decoded to the crate. -/
theorem decode_encode (h : crate.WellFormed) :
    decode .lenient crate.encode = .ok ⟨crate, crate.danglingReferences⟩ := by
  obtain ⟨r⟩ : Nonempty (Record crate.encode) := ⟨⟨_, crate.encode_eq⟩⟩
  obtain ⟨items, hitems, hindex⟩ := exists_entries h r
  obtain ⟨summaries, hsummaries, hpaths⟩ := exists_summaries r
  obtain ⟨crates, hcrates, hexternal⟩ := exists_externalCrates r
  have hversion : HasField r.members "format_version" (.ofNat crate.formatVersion.toNat) :=
    hasField_record r (by simp [members]) trivial (by simp)
  have hcrateVersion : HasField r.members "crate_version" (.ofString? crate.version) :=
    hasField_record r (by simp [members]) (by cases crate.version <;> trivial) (by simp)
  have hprivate : HasField r.members "includes_private" (.bool crate.includesPrivate) :=
    hasField_record r (by simp [members]) trivial (by simp)
  have hroot : HasField r.members "root" crate.root.toJson :=
    hasField_record r (by simp [members]) trivial (by simp)
  have hpresence : ∀ field ∈ requiredFields, (member? r.members field).isSome := by
    have hfields : ∀ field ∈ requiredFields, ∃ v, (field, v) ∈ crate.members ∧ v ≠ .null := by
      simp [requiredFields, members, ItemId.toJson]
    intro field hfield
    obtain ⟨v, hv, hnull⟩ := hfields field hfield
    rw [members_record, member?_sortMembers crate.nodup_members hv hnull]
    rfl
  refine decode_eq_ok.2 ⟨r, crates, items.map .ok, summaries, ?_⟩
  exact {
    version := version_eq_ok.2 ⟨h.formatVersion_eq, h.formatVersion_eq ▸ hversion⟩
    presence := presence_eq_ok.2 hpresence
    root := (Record.id_eq_ok (by simp)).2 hroot
    includesPrivate := (Record.bool_eq_ok (by simp)).2 hprivate
    crateVersion := (Record.string?_eq_ok (by simp)).2 (ofString?_eq_elim _ ▸ hcrateVersion)
    externalCrates := hcrates
    entries := hitems
    paths := hsummaries
    externalCrates_eq := hexternal.symm
    index_eq := by rw [kept_map_ok, hindex]
    paths_eq := hpaths.symm
    tolerate_dropped := rfl
    tolerate_dangling := rfl
    checkRoot := checkRoot_eq_ok.2 h.root_isModule
    diagnostics_eq := by rw [dropped_map_ok, List.nil_append] }

end Crate

/-- Whether an error reports a dangling reference. -/
def DecodeError.isDangling : DecodeError → Bool
  | .danglingReference _ _ => true
  | .malformed | .fault _ | .unsupportedVersion _ | .invalidRoot _ _ | .keyMismatch _ _ => false

theorem filter_isDangling {decoded : Decoded} {mode : Mode} {document : Json}
    (h : decode mode document = .ok decoded) :
    decoded.diagnostics.filter DecodeError.isDangling = decoded.crate.danglingReferences := by
  obtain ⟨problems, hdiagnostics, hproblems⟩ := diagnostics_of_decode h
  have hnone : problems.filter DecodeError.isDangling = [] := by
    rw [List.filter_eq_nil_iff]
    intro error herror hdangling
    cases error with
    | danglingReference id referrer => exact hproblems id referrer herror
    | _ => cases hdangling
  have hall : decoded.crate.danglingReferences.filter DecodeError.isDangling =
      decoded.crate.danglingReferences := by
    rw [List.filter_eq_self]
    intro error herror
    obtain ⟨mention, -, rfl⟩ := List.mem_map.1 herror
    rfl
  rw [hdiagnostics, List.filter_append, hnone, hall, List.nil_append]

/-- A well-formed crate is read back from its document, and every crate that comes of a decoding is
well formed, so that it survives any number of round trips. -/
theorem decode_roundTrip :
    (∀ crate : Crate, crate.WellFormed →
      decode .lenient crate.encode = .ok ⟨crate, crate.danglingReferences⟩ ∧
        ((∃ diagnostics, decode .strict crate.encode = .ok ⟨crate, diagnostics⟩) ↔
          crate.danglingReferences = [])) ∧
    ∀ (mode : Mode) (document : Json) (decoded : Decoded), decode mode document = .ok decoded →
      decoded.crate.WellFormed ∧
        ∃ again, decode mode decoded.crate.encode = .ok again ∧
          again.crate = decoded.crate ∧
          again.crate.encode = decoded.crate.encode ∧
          again.diagnostics = decoded.diagnostics.filter DecodeError.isDangling := by
  constructor
  · intro crate h
    refine ⟨crate.decode_encode h, ?_⟩
    simp only [(firstIsFatal_decode _).ok_iff, crate.decode_encode h, Except.ok.injEq,
      Decoded.mk.injEq, true_and, exists_eq_left]
  · rintro mode document ⟨crate, diagnostics⟩ h
    have hwell := wellFormed_of_decode h
    refine ⟨hwell, ⟨crate, crate.danglingReferences⟩, ?_, rfl, rfl, ?_⟩
    · cases mode with
      | lenient => exact crate.decode_encode hwell
      | strict =>
        obtain ⟨rfl, -⟩ := (firstIsFatal_decode document).ok_iff.1 h
        have hnone : crate.danglingReferences = [] := (filter_isDangling h).symm
        rw [(firstIsFatal_decode _).ok_iff, crate.decode_encode hwell, hnone]
        exact ⟨rfl, rfl⟩
    · exact (filter_isDangling h).symm

/-- A crate whose only module has a member that is left out, for it stands under a wrong key. -/
def misplacedMember : Json :=
  BareCrate.document {
    index := [
      BareItem.entry { id := "0", inner := bareModule ["1"] },
      ("1", .obj (BareItem.members {
        id := "2"
        inner := [
          ("glob", .bool false), ("id", .str "3"), ("name", .str "a"), ("source", .str "b::a"),
          ("tag", .str "Import")] }))] }

theorem decode_misplacedMember :
    ∃ decoded again, decode .lenient misplacedMember = .ok decoded ∧
      decoded.diagnostics.length = 2 ∧
      decode .lenient decoded.crate.encode = .ok again ∧
      again.crate = decoded.crate ∧
      again.diagnostics = [.danglingReference ⟨"1"⟩ ⟨"0"⟩] ∧
      ¬ ∃ diagnostics, decode .strict decoded.crate.encode = .ok ⟨decoded.crate, diagnostics⟩ := by
  have h : decode .lenient misplacedMember = .ok _ := rfl
  obtain ⟨hwell, again, hagain, hcrate, -, hdiagnostics⟩ := decode_roundTrip.2 _ _ _ h
  refine ⟨_, again, h, by decide +kernel, hagain, hcrate, ?_, ?_⟩
  · rw [hdiagnostics]
    decide +kernel
  · rw [(decode_roundTrip.1 _ hwell).2]
    decide +kernel

end CrateDocs
