import CrateDocs.Proofs.Crate.Entry

/-!
# What a successful decoding comes to

A document is decoded into a crate when every phase succeeds; the crate and the reports are then
put together from what the phases have found.
-/

namespace CrateDocs

open Reading

variable {mode : Mode} {document : Json} {decoded : Decoded}

namespace Decode

variable {results : List (Except DecodeError Item)} {item : Item} {id : ItemId}

theorem mem_dropped {error : DecodeError} : error ∈ dropped results ↔ .error error ∈ results := by
  unfold dropped
  rw [List.mem_filterMap]
  constructor
  · intro h
    rcases h with ⟨result, hmem, h⟩
    cases result with
    | ok item => cases h
    | error other =>
      cases h
      exact hmem
  · intro h
    exact ⟨_, h, rfl⟩

theorem mem_of_getElem?_indexOf {items : List Item} (h : (indexOf items)[id]? = some item) :
    item ∈ items ∧ item.id = id := by
  have hmem := Table.mem_of_getElem?_ofEntries h
  obtain ⟨other, hother, heq⟩ := List.mem_map.1 hmem
  cases heq
  exact ⟨hother, rfl⟩

/-- What a member of the index comes to, its error seen from the document. -/
def result (m : String × Json) : Except DecodeError Item :=
  (entry m.1 m.2).mapError fun error => (error.within (.key m.1)).within (.key "index")

theorem entries_eq_ok {r : Record document} :
    entries r = .ok results ↔
      ∃ members, Json.member? r.members "index" = some (.obj members) ∧
        results = members.map result := by
  have hfield (members : List (String × Json)) :
      (r.field "index" fun index => return (← index.val.asRecord).members) = .ok members ↔
        ∃ w, Json.member? r.members "index" = some w ∧ w = .obj members := by
    refine Record.field_eq_ok_iff_exists (p := fun w members => w = .obj members) ?_
    intro w members
    simp only [bind_eq_ok, pure_eq_ok, Json.asRecord_eq_ok]
    constructor
    · intro h
      rcases h with ⟨record, hw, rfl⟩
      exact hw
    · intro hw
      exact ⟨⟨members, hw⟩, hw, rfl⟩
  unfold entries
  simp only [bind_eq_ok, pure_eq_ok, hfield, exists_eq_right]
  constructor
  · intro h
    rcases h with ⟨members, hmember, rfl⟩
    exact ⟨members, hmember, rfl⟩
  · intro h
    rcases h with ⟨members, hmember, rfl⟩
    exact ⟨members, hmember, rfl⟩

/-- A broken entry is reported by its wrong key, or by the fault of one of the readings that make
up the reading of an entry. -/
theorem eq_of_entry_eq_error {key : String} {v : Json} {error : DecodeError}
    (h : entry key v = .error error) :
    (∃ fault, error = .fault fault ∧ (v.asRecord = .error fault ∨
      ∃ r : Record v, r.id "id" = .error fault ∨ ∃ id, Item.ofRecord id r = .error fault)) ∨
      ∃ id, error = .keyMismatch ⟨key⟩ id := by
  simp only [entry, bind_eq_error, liftM_eq_error] at h
  rcases h with ⟨fault, hfault, rfl⟩ | ⟨r, -, ⟨fault, hfault, rfl⟩ | ⟨id, -, h⟩⟩
  · exact .inl ⟨fault, rfl, .inl hfault⟩
  · exact .inl ⟨fault, rfl, .inr ⟨r, .inl hfault⟩⟩
  · split at h
    · obtain ⟨fault, hfault, rfl⟩ := liftM_eq_error.1 h
      exact .inl ⟨fault, rfl, .inr ⟨r, .inr ⟨id, hfault⟩⟩⟩
    · cases h
      exact .inr ⟨id, rfl⟩

/-- A broken entry is never reported as a dangling reference. -/
theorem danglingReference_notMem_dropped {r : Record document} (h : entries r = .ok results)
    (id referrer : ItemId) : .danglingReference id referrer ∉ dropped results := by
  obtain ⟨members, -, rfl⟩ := entries_eq_ok.1 h
  intro hmem
  obtain ⟨m, -, heq⟩ := List.mem_map.1 (mem_dropped.1 hmem)
  obtain ⟨error, herror, heq⟩ := mapError_eq_error.1 heq
  rcases eq_of_entry_eq_error herror with ⟨fault, rfl, -⟩ | ⟨id, rfl⟩
  · cases heq
  · cases heq

/-- Every required field has to be there. -/
theorem presence_eq_ok {r : Record document} :
    presence r = .ok () ↔ ∀ field ∈ requiredFields, (Json.member? r.members field).isSome := by
  have hfield (field : String) :
      (do let _ ← r.required field; return () : Reading Unit) = .ok () ↔
        (Json.member? r.members field).isSome := by
    simp only [bind_eq_ok, pure_eq_ok, and_true, Record.required_eq_ok,
      Option.isSome_iff_exists]
    constructor
    · intro h
      rcases h with ⟨w, hw⟩
      exact ⟨w.val, hw⟩
    · intro h
      rcases h with ⟨w, hw⟩
      obtain ⟨part, rfl⟩ := Record.exists_part hw
      exact ⟨part, hw⟩
  unfold presence
  induction requiredFields with
  | nil => simp [List.forM]
  | cons field fields ih =>
    rw [List.forM, bind_eq_ok, List.forall_mem_cons, ← hfield]
    constructor
    · intro h
      rcases h with ⟨_, h, hs⟩
      exact ⟨h, ih.1 hs⟩
    · intro h
      rcases h with ⟨h, hs⟩
      exact ⟨(), h, ih.2 hs⟩

/-- What the phases of a successful decoding find, and how its result is put together. -/
structure Succeeds (mode : Mode) (r : Record document)
    (crates : List (UInt32 × ExternalCrate)) (results : List (Except DecodeError Item))
    (summaries : List (ItemId × ItemSummary)) (decoded : Decoded) : Prop where
  version : version r = .ok decoded.crate.formatVersion
  presence : presence r = .ok ()
  root : r.id "root" = .ok decoded.crate.root
  includesPrivate : r.bool "includes_private" = .ok decoded.crate.includesPrivate
  crateVersion : r.string? "crate_version" = .ok decoded.crate.version
  externalCrates : r.entries "external_crates" (ExternalCrate.readEntry · ·) = .ok crates
  entries : entries r = .ok results
  paths : r.entries "paths" (ItemSummary.readEntry · ·) = .ok summaries
  externalCrates_eq : decoded.crate.externalCrates = .ofEntries crates
  index_eq : decoded.crate.index = indexOf (kept results)
  paths_eq : decoded.crate.paths = .ofEntries summaries
  tolerate_dropped : mode.tolerate (dropped results) = .ok ()
  tolerate_dangling : mode.tolerate decoded.crate.danglingReferences = .ok ()
  checkRoot : decoded.crate.checkRoot = .ok ()
  diagnostics_eq : decoded.diagnostics = dropped results ++ decoded.crate.danglingReferences

end Decode

theorem decode_eq_ok :
    decode mode document = .ok decoded ↔
      ∃ (r : Record document) (crates : _) (results : _) (summaries : _),
        Decode.Succeeds mode r crates results summaries decoded := by
  simp only [decode, bind_eq_ok, pure_eq_ok, Decode.liftM_eq_ok]
  constructor
  · intro h
    rcases h with ⟨r, -, formatVersion, hversion, _, hpresence, root, hroot, includesPrivate,
      hprivate, version, hcrateVersion, externalCrates, hcrates, results, hresults, _, hdropped,
      paths, hpaths, _, hdangling, _, hcheck, rfl⟩
    exact ⟨r, externalCrates, results, paths, hversion, hpresence, hroot, hprivate, hcrateVersion,
      hcrates, hresults, hpaths, rfl, rfl, rfl, hdropped, hdangling, hcheck, rfl⟩
  · intro h
    rcases h with ⟨r, externalCrates, results, paths, h⟩
    obtain ⟨crate, diagnostics⟩ := decoded
    obtain ⟨root, version, includesPrivate, index, pathTable, crateTable, formatVersion⟩ := crate
    obtain ⟨hversion, hpresence, hroot, hprivate, hcrateVersion, hcrates, hresults, hpaths,
      hcrates', hindex, hpaths', hdropped, hdangling, hcheck, hdiagnostics⟩ := h
    dsimp only at *
    subst hcrates' hindex hpaths' hdiagnostics
    exact ⟨r, Json.asRecord_eq_ok.2 r.eq_obj, _, hversion, _, hpresence, _, hroot, _, hprivate, _,
      hcrateVersion, _, hcrates, _, hresults, _, hdropped, _, hpaths, _, hdangling, _, hcheck, rfl⟩

/-- A text is decoded as its bytes are. -/
theorem decodeBytes_toUTF8 (mode : Mode) (text : String) :
    decodeBytes mode text.toUTF8 = decodeText mode text := by
  have htext : String.fromUTF8? text.toUTF8 = some text := dif_pos text.isValidUTF8
  rw [decodeBytes, decodeText, Json.ofBytes?, htext]
  rfl

/-- Whether a crate has the supported version, its items stand under their identifiers and its root
is a module. -/
structure Crate.WellFormed (crate : Crate) : Prop where
  formatVersion_eq : crate.formatVersion = Crate.supportedVersion
  id_eq : ∀ {id : ItemId} {item : Item}, crate.index[id]? = some item → item.id = id
  root_isModule : ∃ item content,
    crate.index[crate.root]? = some item ∧ item.payload = .module content

theorem Crate.checkRoot_eq_ok {crate : Crate} :
    crate.checkRoot = .ok () ↔
      ∃ item content, crate.index[crate.root]? = some item ∧ item.payload = .module content := by
  unfold checkRoot
  constructor
  · intro h
    split at h
    · rename_i item hitem
      split at h
      · rename_i content hpayload
        exact ⟨item, content, hitem, hpayload⟩
      · cases h
    · cases h
  · intro h
    rcases h with ⟨item, content, hitem, hpayload⟩
    simp only [hitem, hpayload]

theorem Decode.version_eq_ok {r : Record document} {formatVersion : UInt32} :
    version r = .ok formatVersion ↔
      formatVersion = Crate.supportedVersion ∧
        Json.HasField r.members "format_version" (.ofNat Crate.supportedVersion.toNat) := by
  rw [Json.hasField_iff_contains (by simp) (by simp [Json.ofNat])]
  simp only [version, bind_eq_ok, liftM_eq_ok, Record.required_eq_ok, Json.ofNat,
    Json.contains_num]
  constructor
  · intro h
    rcases h with ⟨value, hvalue, h⟩
    split at h
    · rename_i number hnumber
      split at h
      · rename_i heq
        cases h
        exact ⟨rfl, value.val, hvalue, by rw [hnumber, heq]⟩
      · cases h
    · cases h
  · intro h
    rcases h with ⟨rfl, w, hw, rfl⟩
    obtain ⟨part, hpart⟩ := Record.exists_part hw
    refine ⟨part, hpart ▸ hw, ?_⟩
    rw [hpart]
    exact if_pos rfl

theorem Decode.Succeeds.wellFormed {r : Record document} {crates : List (UInt32 × ExternalCrate)}
    {results : List (Except DecodeError Item)} {summaries : List (ItemId × ItemSummary)}
    (h : Succeeds mode r crates results summaries decoded) : decoded.crate.WellFormed where
  formatVersion_eq := (version_eq_ok.1 h.version).1
  id_eq hitem := (mem_of_getElem?_indexOf (h.index_eq ▸ hitem)).2
  root_isModule := Crate.checkRoot_eq_ok.1 h.checkRoot

/-- Every decoding ends in a well-formed crate. -/
theorem wellFormed_of_decode (h : decode mode document = .ok decoded) :
    decoded.crate.WellFormed := by
  obtain ⟨r, crates, results, summaries, h⟩ := decode_eq_ok.1 h
  exact h.wellFormed

/-- The reports of a decoding are those of broken entries, then the dangling references. -/
theorem diagnostics_of_decode (h : decode mode document = .ok decoded) :
    ∃ problems, decoded.diagnostics = problems ++ decoded.crate.danglingReferences ∧
      ∀ id referrer, .danglingReference id referrer ∉ problems := by
  obtain ⟨r, crates, results, summaries, h⟩ := decode_eq_ok.1 h
  exact ⟨_, h.diagnostics_eq, Decode.danglingReference_notMem_dropped h.entries⟩

end CrateDocs
