import CrateDocs.Proofs.Crate.Isolation
import CrateDocs.Proofs.Crate.RoundTrip
import CrateDocs.Proofs.Json.RoundTrip
import CrateDocs.Proofs.Json.WrittenNumbers

/-!
# Documents of decoded crates nest no deeper

What is read of an item nests no deeper when it is written again: its fields are contained in the
value that it was read from, and its links are a table of texts. The same goes for whole crates. So
a crate that was read from a text can be written as a text that is not too deep to be read again.
-/

namespace CrateDocs

open Json Reading

section Item

variable {v : Json} {id : ItemId} {item : Item}

/-- The written form of a field that has been read nests no deeper than the field. -/
theorem Record.depth_le_of_hasField {r : Record v} {key : String} {e : Json}
    (hkey : key ∉ specialKeys) (he : e.Regular) (h : HasField r.members key e) :
    e.depth ≤ depthOfMembers r.members := by
  have hne : key ≠ "provided_trait_methods" := fun heq => hkey (by simp [heq])
  exact he.depth_le_of_hasField (holdsNames_of_ne hne e) h

theorem Record.depth_links_le {r : Record v} {entries : List (String × ItemId)}
    (h : r.entries "links" (fun text target => Item.readLink text target) = .ok entries)
    (links : Table String ItemId) :
    (obj (links.toList.map fun (text, id) => (text, id.toJson))).depth ≤
      depthOfMembers r.members := by
  have hmember := Record.readLinks_eq_ok.1 h
  refine Nat.le_trans (depth_obj_le.2 ?_) (depth_le_depthOfMembers (mem_of_member? hmember))
  exact List.forall_mem_map.2 fun _ _ => Nat.zero_le _

theorem Json.depth_ofString? (s : Option String) : (ofString? s).depth = 0 := by
  cases s <;> rfl

/-- An item is written no deeper than the record that it is read from. -/
theorem Item.depth_toJson_le {r : Record v} (h : Item.ofRecord id r = .ok item) :
    item.toJson.depth ≤ v.depth := by
  simp only [Item.ofRecord, bind_eq_ok, pure_eq_ok] at h
  obtain ⟨crateId, -, name, -, span, hspan, visibility, hvisibility, docs, -, entries, hlinks,
    attrs, hattrs, deprecation, hdeprecation, payload, hpayload, rfl⟩ := h
  replace hspan := Record.depth_le_of_hasField (by simp)
    (regular_elim.2 fun span _ => span.regular_toJson) ((Record.span?_eq_ok (by simp)).1 hspan)
  replace hvisibility := Record.depth_le_of_hasField (by simp) visibility.regular_toJson
    ((Record.visibility_eq_ok (by simp)).1 hvisibility)
  replace hlinks := Record.depth_links_le hlinks (.ofEntries entries)
  replace hattrs := Record.depth_le_of_hasField (by simp) (regular_ofStrings attrs)
    ((Record.strings_eq_ok (by simp)).1 hattrs)
  replace hdeprecation := Record.depth_le_of_hasField (by simp)
    (regular_elim.2 fun deprecation _ => deprecation.regular_toJson)
    ((Record.deprecation?_eq_ok (by simp)).1 hdeprecation)
  replace hpayload := Record.depth_le_of_hasField (by simp) payload.regular_toJson
    ((Record.payload_eq_ok (by simp)).1 hpayload)
  obtain ⟨members, rfl⟩ := r
  refine depth_obj_le.2 ?_
  simp only [List.forall_mem_cons, depth_ofString?]
  cases span <;> cases deprecation <;>
    exact ⟨Nat.zero_le _, Nat.zero_le _, Nat.zero_le _, hspan, hvisibility, Nat.zero_le _, hlinks,
      hattrs, hdeprecation, hpayload, List.forall_mem_nil _⟩

theorem Decode.depth_toJson_le {key : String} (h : entry key v = .ok item) :
    item.toJson.depth ≤ v.depth := by
  obtain ⟨r, -, hitem⟩ := entry_eq_ok.1 h
  exact item.depth_toJson_le hitem

end Item

section Table

variable {κ α : Type} [Ord κ] [Std.TransOrd κ] {members : List (String × Json)} {write : α → Json}

/-- A table is written no deeper than an object that has, for each value in the table, a member
that is no less deep. -/
theorem Table.depth_le {table : Table κ α} (key : κ → String)
    (h : ∀ e ∈ table.toList, ∃ m ∈ members, (write e.2).depth ≤ m.2.depth) :
    (obj (table.toList.map fun e => (key e.1, write e.2))).depth ≤ (obj members).depth := by
  refine depth_obj_le.2 (List.forall_mem_map.2 fun e he => ?_)
  obtain ⟨m, hm, hle⟩ := h e he
  exact Nat.le_trans hle (depth_le_depthOfMembers hm)

theorem exists_mem_of_forall₂ {α β : Type} {p : α → β → Prop} {as : List α} {bs : List β}
    (h : List.Forall₂ p as bs) {b : β} (hb : b ∈ bs) : ∃ a ∈ as, p a b := by
  induction h with
  | nil => cases hb
  | @cons a _ as _ hab _ ih =>
    rcases List.mem_cons.1 hb with rfl | hb
    · exact ⟨a, List.mem_cons_self, hab⟩
    · obtain ⟨c, hc, hcb⟩ := ih hb
      exact ⟨c, List.mem_cons_of_mem a hc, hcb⟩

/-- A table that is made from entries, one for each member of an object. -/
theorem Table.depth_ofEntries_le [Std.LawfulEqOrd κ] {entries : List (κ × α)}
    {p : String × Json → κ × α → Prop} (key : κ → String) (h : List.Forall₂ p members entries)
    (hp : ∀ m e, p m e → (write e.2).depth ≤ m.2.depth) :
    (obj ((ofEntries entries).toList.map fun e => (key e.1, write e.2))).depth ≤
      (obj members).depth := by
  refine depth_le key fun e he => ?_
  have hmem := mem_of_getElem?_ofEntries (mem_toList_iff.1 he)
  obtain ⟨m, hm, hpm⟩ := exists_mem_of_forall₂ h hmem
  exact ⟨m, hm, hp m e hpm⟩

end Table

section Crate

variable {mode : Mode} {document : Json} {decoded : Decoded}

namespace Decode.Succeeds

variable {r : Record document} {crates : List (UInt32 × ExternalCrate)}
  {results : List (Except DecodeError Item)} {summaries : List (ItemId × ItemSummary)}

theorem depth_index_le (h : Succeeds mode r crates results summaries decoded) :
    (obj (decoded.crate.index.toList.map fun (id, item) => (id.text, item.toJson))).depth ≤
      depthOfMembers r.members := by
  obtain ⟨members, hmember, rfl⟩ := entries_eq_ok.1 h.entries
  refine Nat.le_trans (Table.depth_le ItemId.text ?_)
    (depth_le_depthOfMembers (mem_of_member? hmember))
  rintro ⟨id, item⟩ he
  rw [h.index_eq, Table.mem_toList_iff] at he
  have hkept := (mem_of_getElem?_indexOf he).1
  rw [kept_map_result, List.mem_filterMap] at hkept
  obtain ⟨m, hm, hentry⟩ := hkept
  exact ⟨m, hm, depth_toJson_le (toOption_entry.1 hentry)⟩

theorem depth_paths_le (h : Succeeds mode r crates results summaries decoded) :
    (obj (decoded.crate.paths.toList.map fun (id, summary) => (id.text, summary.toJson))).depth ≤
      depthOfMembers r.members := by
  obtain ⟨members, hmember, hentries⟩ := Record.summaries_eq_ok.1 h.paths
  rw [h.paths_eq]
  exact Nat.le_trans
    (Table.depth_ofEntries_le ItemId.text hentries fun _ e hm => e.2.regular_toJson.depth_le hm.2)
    (depth_le_depthOfMembers (mem_of_member? hmember))

theorem depth_externalCrates_le (h : Succeeds mode r crates results summaries decoded) :
    (obj (decoded.crate.externalCrates.toList.map fun (number, external) =>
      (toString number.toNat, external.toJson))).depth ≤ depthOfMembers r.members := by
  obtain ⟨members, hmember, hentries⟩ := Record.externalCrates_eq_ok.1 h.externalCrates
  rw [h.externalCrates_eq]
  exact Nat.le_trans
    (Table.depth_ofEntries_le (fun number : UInt32 => toString number.toNat) hentries
      fun _ e hm => e.2.regular_toJson.depth_le hm.2)
    (depth_le_depthOfMembers (mem_of_member? hmember))

theorem depth_toJson_le (h : Succeeds mode r crates results summaries decoded) :
    decoded.crate.toJson.depth ≤ document.depth := by
  have hindex := h.depth_index_le
  have hpaths := h.depth_paths_le
  have hcrates := h.depth_externalCrates_le
  obtain ⟨members, rfl⟩ := r
  refine depth_obj_le.2 ?_
  simp only [List.forall_mem_cons, depth_ofString?]
  exact ⟨Nat.zero_le _, Nat.zero_le _, Nat.zero_le _, hindex, hpaths, hcrates, Nat.zero_le _,
    List.forall_mem_nil _⟩

end Decode.Succeeds

/-- The document of a decoded crate nests no deeper than the document that it was decoded from. -/
theorem depth_encode_le (h : decode mode document = .ok decoded) :
    decoded.crate.encode.depth ≤ document.depth := by
  obtain ⟨r, crates, results, summaries, h⟩ := decode_eq_ok.1 h
  exact Nat.le_trans (depth_canonical_le _) h.depth_toJson_le

end Crate

section Text

variable {mode : Mode} {document : Json} {decoded : Decoded}

/-- A crate that was read in a mode is read again from its document in the same mode. -/
theorem decode_encode_of_decode (h : decode mode document = .ok decoded) :
    decode mode decoded.crate.encode = .ok ⟨decoded.crate, decoded.crate.danglingReferences⟩ := by
  have hlenient := decoded.crate.decode_encode (wellFormed_of_decode h)
  cases mode with
  | lenient => exact hlenient
  | strict =>
    have hdiagnostics := ((firstIsFatal_decode document).ok_iff.1 h).1
    have hnone : decoded.crate.danglingReferences = [] := by
      rw [← filter_isDangling h, hdiagnostics]
      rfl
    rw [(firstIsFatal_decode _).ok_iff, hlenient, hnone]
    exact ⟨rfl, rfl⟩

/-- The text of the document of a crate is read to the document, if it was decoded from a document
that nests within the limit. -/
theorem ofTextWithin?_render_encode {limit : Nat} (h : decode mode document = .ok decoded)
    (hdepth : document.depth ≤ limit) :
    ofTextWithin? limit decoded.crate.encode.render = some decoded.crate.encode :=
  ofTextWithin?_render (canonical_canonical _) decoded.crate.integral_encode
    (Nat.le_trans (depth_encode_le h) hdepth)

theorem decodeText_render_encode (h : decode mode document = .ok decoded)
    (hdepth : document.depth ≤ depthLimit) :
    decodeText mode decoded.crate.encode.render =
      .ok ⟨decoded.crate, decoded.crate.danglingReferences⟩ := by
  rw [decodeText, ofText?, ofTextWithin?_render_encode h hdepth]
  exact decode_encode_of_decode h

end Text

/-- The document of a decoded crate nests no deeper than the document that it was decoded from. So
whatever was read from a text, or from the bytes of one, is read again from the text of its
document, and as the same crate. -/
theorem encode_nests_no_deeper :
    (∀ (mode : Mode) (document : Json) (decoded : Decoded), decode mode document = .ok decoded →
      decoded.crate.encode.depth ≤ document.depth) ∧
    (∀ (mode : Mode) (text : String) (decoded : Decoded), decodeText mode text = .ok decoded →
      decodeText mode decoded.crate.encode.render =
        .ok ⟨decoded.crate, decoded.crate.danglingReferences⟩) ∧
    ∀ (mode : Mode) (bytes : ByteArray) (decoded : Decoded), decodeBytes mode bytes = .ok decoded →
      decodeBytes mode decoded.crate.encode.render.toUTF8 =
        .ok ⟨decoded.crate, decoded.crate.danglingReferences⟩ := by
  refine ⟨fun _ _ _ => depth_encode_le, ?_, ?_⟩
  · intro mode text decoded h
    unfold decodeText at h
    split at h
    · rename_i document hdocument
      exact decodeText_render_encode h (depth_le_of_ofTextWithin? hdocument)
    · cases h
  · intro mode bytes decoded h
    rw [decodeBytes_toUTF8]
    unfold decodeBytes ofBytes? at h
    split at h
    · rename_i document hdocument
      rw [Option.bind_eq_bind, Option.bind_eq_some_iff] at hdocument
      obtain ⟨text, -, hdocument⟩ := hdocument
      exact decodeText_render_encode h (depth_le_of_ofTextWithin? hdocument)
    · cases h

/-- A crate of one module with a remark that the format does not know. -/
def remarkedModule : Json :=
  BareCrate.document {
    index := [("0", .obj (("aside", .arr [.arr [.arr [.arr []]]]) ::
      BareItem.members { id := "0", inner := bareModule [] }))] }

def remarkedModuleText : String :=
  "\x7b\"root\": \"0\", \"format_version\": 17, \"includes_private\": false,
    \"index\": \x7b\"0\": \x7b\"id\": \"0\", \"crate_id\": 0, \"attrs\": [],
    \"inner\": \x7b\"tag\": \"Module\", \"is_crate\": true, \"is_stripped\": false,
    \"items\": []\x7d, \"links\": \x7b\x7d, \"aside\": [[[[]]]],
    \"visibility\": \x7b\"tag\": \"Public\"\x7d\x7d\x7d,
    \"paths\": \x7b\x7d, \"external_crates\": \x7b\x7d\x7d"

set_option maxRecDepth 10000 in
/-- A remark is left out, so that the text that is written nests less deep than the one before. -/
theorem encode_nests_no_deeper_remarkedModule :
    ∃ decoded, decode .lenient remarkedModule = .ok decoded ∧
      decoded.crate.encode.depth = 5 ∧ remarkedModule.depth = 7 ∧
      decoded.crate.encode.depth ≤ remarkedModule.depth ∧
      decodeText .lenient remarkedModuleText = .ok decoded ∧
      decodeText .lenient decoded.crate.encode.render = .ok ⟨decoded.crate, []⟩ ∧
      decodeBytes .lenient remarkedModuleText.toUTF8 = .ok decoded ∧
      decodeBytes .lenient decoded.crate.encode.render.toUTF8 = .ok ⟨decoded.crate, []⟩ := by
  obtain ⟨decoded, h, hdepth, hnone⟩ : ∃ decoded, decode .lenient remarkedModule = .ok decoded ∧
      decoded.crate.encode.depth = 5 ∧ decoded.crate.danglingReferences = [] :=
    ⟨_, rfl, by decide +kernel, by decide +kernel⟩
  have hchars : remarkedModuleText.toList = _ := String.toList_ofList
  have hparsed : ofText? remarkedModuleText = some remarkedModule := by
    unfold ofText? ofTextWithin? Lexeme.ofText?
    rw [hchars]
    decide +kernel
  have htext : decodeText .lenient remarkedModuleText = .ok decoded := by
    rw [decodeText, hparsed]
    exact h
  have hbytes : decodeBytes .lenient remarkedModuleText.toUTF8 = .ok decoded := by
    rw [decodeBytes_toUTF8, htext]
  obtain ⟨hle, hagain, hagain'⟩ := encode_nests_no_deeper
  rw [← hnone]
  exact ⟨decoded, h, hdepth, by decide +kernel, hle _ _ _ h, htext, hagain _ _ _ htext, hbytes,
    hagain' _ _ _ hbytes⟩

end CrateDocs
