import Mathlib.Data.List.Induction
import CrateDocs.Proofs.Crate.Agreement
import CrateDocs.Proofs.Crate.Isolation

/-!
# The earliest failure decides the error

Two documents that agree on all that is looked at up to the first failure of one of them fail in the
same way, whatever stands in the rest of them. The last two checks look at the crate that has been
put together, but of this no more than what the checks before them have seen, and the entry of the
root.
-/

namespace CrateDocs

open Json Reading

namespace Decode

variable {mode : Mode} {v w document other : Json} {r : Record v} {r' : Record w}

theorem readIndex_concat (members : List (String × Json)) (m : String × Json) :
    readIndex (members ++ [m]) =
      match entry m.1 m.2 with
      | .ok item => (readIndex members).insert item.id item
      | .error _ => readIndex members := by
  unfold readIndex indexOf
  rw [kept_map_result, kept_map_result, List.filterMap_append, List.map_append]
  cases hm : entry m.1 m.2 with
  | ok item =>
    rw [List.filterMap_cons_some (by rw [hm]; rfl), List.filterMap_nil]
    exact Table.ofEntries_concat _ _ _
  | error error =>
    rw [List.filterMap_cons_none (by rw [hm]; rfl), List.filterMap_nil, List.map_nil,
      List.append_nil]

/-- Which item stands under an identifier depends on the members with that key. -/
theorem getElem?_readIndex_filter (members : List (String × Json)) (id : ItemId) :
    (readIndex (members.filter fun m => m.1 = id.text))[id]? = (readIndex members)[id]? := by
  induction members using List.reverseRecOn with
  | nil => rfl
  | append_singleton members m ih =>
    rw [List.filter_append, readIndex_concat]
    by_cases hkey : m.1 = id.text
    · rw [List.filter_cons_of_pos (by simpa using hkey), List.filter_nil, readIndex_concat]
      cases entry m.1 m.2 with
      | ok item => rw [Std.ExtTreeMap.getElem?_insert, Std.ExtTreeMap.getElem?_insert, ih]
      | error error => exact ih
    · rw [List.filter_cons_of_neg (by simpa using hkey), List.filter_nil, List.append_nil, ih]
      cases hm : entry m.1 m.2 with
      | error error => rfl
      | ok item =>
        have hne : compare item.id id ≠ .eq := by
          rw [id_of_entry hm]
          intro heq
          exact hkey (congrArg ItemId.text (Std.LawfulEqOrd.eq_of_compare heq))
        rw [Std.ExtTreeMap.getElem?_insert, if_neg hne]

/-- The check of the root looks at the item that stands under its identifier. -/
theorem checkRoot_congr (crate : Crate) {index other : Table ItemId Item}
    (h : index[crate.root]? = other[crate.root]?) :
    { crate with index }.checkRoot = { crate with index := other }.checkRoot := by
  unfold Crate.checkRoot
  rw [h]

/-- The checks of the fields from which a crate is put together. -/
def fieldChecks : List Check :=
  [.version, .root, .includesPrivate, .crateVersion, .externalCrates, .index, .paths]

theorem forall_of_tolerate_strict {members : List (String × Json)}
    (h : Mode.strict.tolerate (dropped (members.map result)) = .ok ()) :
    ∀ m ∈ members, ∃ item, entry m.1 m.2 = .ok item := by
  have hnone : dropped (members.map result) = [] := by
    cases hdropped : dropped (members.map result) with
    | nil => rfl
    | cons problem problems =>
      rw [hdropped] at h
      cases h
  intro m hm
  cases hentry : entry m.1 m.2 with
  | ok item => exact ⟨item, rfl⟩
  | error error =>
    have hmem : (error.within (.key m.1)).within (.key "index") ∈ dropped (members.map result) := by
      rw [mem_dropped]
      refine List.mem_map.2 ⟨m, hm, ?_⟩
      rw [result, hentry]
      rfl
    rw [hnone] at hmem
    cases hmem

/-- An index that passes its check is an object in a document that agrees, too, and the same one if
it has been seen as a whole. -/
theorem exists_others (r' : Record w) {members : List (String × Json)}
    (hmember : member? r.members "index" = some (.obj members))
    (htolerate : mode.tolerate (dropped (members.map result)) = .ok ())
    (h : Check.index.Agree mode v w) :
    ∃ others, member? r'.members "index" = some (.obj others) ∧
      (mode = .strict → members = others) := by
  cases mode with
  | lenient =>
    rw [Check.Agree, field?_eq r, field?_eq r', hmember, Option.map_some, eq_comm,
      Option.map_eq_some_iff] at h
    obtain ⟨other, hother, hkind⟩ := h
    obtain ⟨others, rfl⟩ := exists_members_of_kind hkind
    refine ⟨others, hother, ?_⟩
    intro hstrict
    cases hstrict
  | strict =>
    rw [Check.Agree, field?_eq r, field?_eq r', hmember, Option.map_some, eq_comm,
      Option.map_eq_some_iff] at h
    obtain ⟨other, hother, hseen⟩ := h
    rw [eq_of_glimpse_eq (forall_of_tolerate_strict htolerate) hseen.symm] at hother
    exact ⟨members, hother, fun _ => rfl⟩

theorem member?_of_id_eq_ok {key : String} {id : ItemId} (h : r.id key = .ok id) :
    member? r.members key = some (.str id.text) := by
  have hfield := Record.field_eq_ok_iff_exists (r := r) (p := fun w id => w.asId = .ok id)
    (fun _ _ => Iff.rfl) |>.1 h
  obtain ⟨value, hvalue, hid⟩ := hfield
  rw [hvalue, contains_str.1 (asId_eq_ok.1 hid)]

/-- If the fields of a document are in order, and another document agrees with it on them, the
crates that are put together from the two differ in the index at most, and in the strict mode not
even there. -/
theorem exists_assembled (r : Record v) (r' : Record w)
    (hpass : ∀ check ∈ fieldChecks, check.ofRecord mode r = .ok ())
    (hagree : ∀ check ∈ fieldChecks, check.Agree mode v w) :
    ∃ (crate : Crate) (members others : List (String × Json)),
      member? r.members "root" = some (.str crate.root.text) ∧
      member? r.members "index" = some (.obj members) ∧
      member? r'.members "index" = some (.obj others) ∧
      assemble r = .ok { crate with index := readIndex members } ∧
      assemble r' = .ok { crate with index := readIndex others } ∧
      (mode = .strict → members = others) := by
  obtain ⟨formatVersion, hversion⟩ := outcome_eq_ok.1 (hpass .version (by decide))
  obtain ⟨root, hroot⟩ := outcome_eq_ok.1 (hpass .root (by decide))
  obtain ⟨includesPrivate, hprivate⟩ := outcome_eq_ok.1 (hpass .includesPrivate (by decide))
  obtain ⟨version, hcrateVersion⟩ := outcome_eq_ok.1 (hpass .crateVersion (by decide))
  obtain ⟨crates, hcrates⟩ := outcome_eq_ok.1 (hpass .externalCrates (by decide))
  obtain ⟨summaries, hsummaries⟩ := outcome_eq_ok.1 (hpass .paths (by decide))
  obtain ⟨results, hresults, htolerate⟩ := bind_eq_ok.1 (hpass .index (by decide))
  obtain ⟨members, hmember, rfl⟩ := entries_eq_ok.1 (liftM_eq_ok.1 hresults)
  -- What the other document has in the same fields.
  have halike {key : String} (h : field? v key = field? w key) : r.Alike [(key, .whole)] r' :=
    alike_whole (by rwa [field?_eq r, field?_eq r'] at h)
  have hversion' : Decode.version r' = .ok formatVersion :=
    (version_congr (halike (hagree .version (by decide))) rfl).symm.trans hversion
  have hroot' : r'.id "root" = .ok root :=
    ((halike (hagree .root (by decide))).id rfl).symm.trans (liftM_eq_ok.1 hroot)
  have hprivate' : r'.bool "includes_private" = .ok includesPrivate :=
    ((halike (hagree .includesPrivate (by decide))).bool rfl).symm.trans (liftM_eq_ok.1 hprivate)
  have hcrateVersion' : r'.string? "crate_version" = .ok version :=
    ((halike (hagree .crateVersion (by decide))).string? rfl).symm.trans
      (liftM_eq_ok.1 hcrateVersion)
  have hcrates' : r'.entries "external_crates" (ExternalCrate.readEntry · ·) = .ok crates := by
    apply entries_eq_ok_of_agree (liftM_eq_ok.1 hcrates)
    rw [← field?_eq r, ← field?_eq r']
    exact hagree .externalCrates (by decide)
  have hsummaries' : r'.entries "paths" (ItemSummary.readEntry · ·) = .ok summaries := by
    apply entries_eq_ok_of_agree (liftM_eq_ok.1 hsummaries)
    rw [← field?_eq r, ← field?_eq r']
    exact hagree .paths (by decide)
  obtain ⟨others, hother, hstrict⟩ :=
    exists_others r' hmember htolerate (hagree .index (by decide))
  have hentries' : entries r' = .ok (others.map result) := entries_eq_ok.2 ⟨others, hother, rfl⟩
  have hrootMember := member?_of_id_eq_ok (liftM_eq_ok.1 hroot)
  refine ⟨⟨root, version, includesPrivate, ∅, .ofEntries summaries, .ofEntries crates,
    formatVersion⟩, members, others, hrootMember, hmember, hother, ?_, ?_, hstrict⟩
  · unfold assemble
    rw [hversion, hroot, hprivate, hcrateVersion, hcrates, hresults, hsummaries]
    rfl
  · unfold assemble
    rw [hversion', hroot', hprivate', hcrateVersion', hcrates', hentries', hsummaries']
    rfl

theorem rootMembers_eq (r : Record v) {root : String} {members : List (String × Json)}
    (hroot : member? r.members "root" = some (.str root))
    (hindex : member? r.members "index" = some (.obj members)) :
    rootMembers v = members.filter fun m => m.1 = root := by
  unfold rootMembers
  rw [field?_eq r, field?_eq r, hroot, hindex]

namespace Check

/-- A check gives the same for two documents that agree on it and on what comes before it. -/
theorem ofRecord_congr (check : Check) (r : Record v) (r' : Record w)
    (hpass : ∀ c ∈ check.earlier, c.ofRecord mode r = .ok ())
    (hagree : ∀ c ∈ check.earlier, c.Agree mode v w) (h : check.Agree mode v w) :
    check.ofRecord mode r' = check.ofRecord mode r := by
  have halike {key : String} (h : field? v key = field? w key) : r.Alike [(key, .whole)] r' :=
    alike_whole (by rwa [field?_eq r, field?_eq r'] at h)
  cases check with
  | object => rfl
  | version => rw [ofRecord, ofRecord, version_congr (halike h) rfl]
  | presence field =>
    rw [Agree, field?_eq r, field?_eq r'] at h
    exact (outcome_required_congr h).symm
  | root => rw [ofRecord, ofRecord, (halike h).id rfl]
  | includesPrivate => rw [ofRecord, ofRecord, (halike h).bool rfl]
  | crateVersion => rw [ofRecord, ofRecord, (halike h).string? rfl]
  | externalCrates =>
    rw [Agree, field?_eq r, field?_eq r'] at h
    exact (outcome_entries_congr ExternalCrate.readEntry h).symm
  | index => exact (index_congr h).symm
  | paths =>
    rw [Agree, field?_eq r, field?_eq r'] at h
    exact (outcome_entries_congr ItemSummary.readEntry h).symm
  | references =>
    have hfields : fieldChecks ⊆ references.earlier := by decide
    obtain ⟨crate, members, others, -, -, -, hcrate, hcrate', hstrict⟩ :=
      exists_assembled r r' (fun c hc => hpass c (hfields hc)) fun c hc => hagree c (hfields hc)
    rw [ofRecord, ofRecord, hcrate, hcrate']
    cases mode with
    | lenient => rfl
    | strict => rw [hstrict rfl]
  | rootModule =>
    have hfields : fieldChecks ⊆ rootModule.earlier := by decide
    obtain ⟨crate, members, others, hroot, hindex, hindex', hcrate, hcrate', -⟩ :=
      exists_assembled r r' (fun c hc => hpass c (hfields hc)) fun c hc => hagree c (hfields hc)
    have hroot' : member? r'.members "root" = some (.str crate.root.text) := by
      have hsame := hagree .root (by decide)
      rwa [Agree, field?_eq r, field?_eq r', hroot, eq_comm] at hsame
    rw [Agree, rootMembers_eq r hroot hindex, rootMembers_eq r' hroot' hindex'] at h
    rw [ofRecord, ofRecord, hcrate, hcrate']
    apply checkRoot_congr crate
    rw [← getElem?_readIndex_filter others, ← h, getElem?_readIndex_filter members]

theorem run_congr (check : Check) (hpass : ∀ c ∈ check.earlier, c.run mode v = .ok ())
    (hagree : ∀ c ∈ check.earlier, c.Agree mode v w) (h : check.Agree mode v w) :
    check.run mode w = check.run mode v := by
  have hkind : v.kind = w.kind := by
    by_cases hobject : check = object
    · rw [hobject] at h
      exact h
    · apply hagree object
      unfold earlier checks
      rw [List.takeWhile_cons_of_pos (by simpa using Ne.symm hobject)]
      exact List.mem_cons_self
  rcases obj_or_kind_ne hkind with ⟨members, others, rfl, rfl⟩ | ⟨hv, hw⟩
  · exact check.ofRecord_congr ⟨members, rfl⟩ ⟨others, rfl⟩ hpass hagree h
  · rw [run, run, asRecord_of_kind_ne hv, asRecord_of_kind_ne hw, hkind]
    rfl

/-- The first failure is the same in a document that agrees up to there. -/
theorem IsFirstFailure.of_agree {check : Check} {error : DecodeError}
    (h : check.IsFirstFailure mode document error)
    (hagree : ∀ c ∈ check.earlier, c.Agree mode document other)
    (hcheck : check.Agree mode document other) : check.IsFirstFailure mode other error where
  mem := h.mem
  earlier c hc := by
    have hsubset := earlier_subset hc
    have hpass := fun c' hc' => h.earlier c' (hsubset hc')
    rw [run_congr c hpass (fun c' hc' => hagree c' (hsubset hc')) (hagree c hc)]
    exact h.earlier c hc
  run := by
    rw [run_congr check h.earlier hagree hcheck]
    exact h.run

end Check

end Decode

/-- A decoding fails exactly if one of its checks does, with the error of the first that fails. Any
document that agrees with the given one on this check and on those before it, up to nulls and what
is not read, comes to the same error. In particular a wrong version is reported whatever else there
is. -/
theorem error_of_earliest {mode : Mode} :
    (∀ document error, decode mode document = .error error ↔
      ∃ check : Decode.Check, check.IsFirstFailure mode document error) ∧
    (∀ (document : Json) (error : DecodeError) (check : Decode.Check),
      check.IsFirstFailure mode document error →
      ∀ same other, (∀ c ∈ check.earlier, c.Agree mode document same) →
        check.Agree mode document same → Alike (.record .crate) same other →
        decode mode other = .error error) ∧
    ∀ (members : List (String × Json)) (number : Int),
      member? members "format_version" = some (.num (.integer number)) → number ≠ 17 →
      decode mode (.obj members) = .error (.unsupportedVersion number) := by
  refine ⟨fun document error => decode_eq_error_iff, ?_, ?_⟩
  · intro document error check hfirst same other hagree hcheck halike
    have hsame := decode_eq_error_iff.2 ⟨check, hfirst.of_agree hagree hcheck⟩
    exact (decode_congr halike).symm.trans hsame
  · intro members number hmember hnumber
    refine decode_eq_error_iff.2 ⟨.version, by decide, ?_, ?_⟩
    · intro c hc
      rw [List.mem_singleton.1 (show c ∈ [Decode.Check.object] from hc)]
      rfl
    · rw [Decode.Check.run_eq_ofRecord mode ⟨members, rfl⟩, Decode.Check.ofRecord,
        Decode.version_eq_error hmember hnumber]
      rfl

/-- A crate whose index has an entry that is no record, followed by other entries. -/
def brokenEntry (version : Int) (later : List (String × Json)) (paths root : Json) : Json :=
  BareCrate.document { version, paths, root, index := ("0", .bool true) :: later }

theorem error_of_brokenEntry :
    decode .strict (brokenEntry 17 [("1", .null)] (.bool false) (.str "0")) =
        .error (.fault ⟨[.key "index", .key "0"], .mismatch .object .boolean⟩) ∧
      decode .lenient (brokenEntry 16 [] .null .null) = .error (.unsupportedVersion 16) := by
  have hfirst : Decode.Check.index.IsFirstFailure .strict (brokenEntry 17 [] (.obj []) (.str "0"))
      (.fault ⟨[.key "index", .key "0"], .mismatch .object .boolean⟩) := by
    refine ⟨by decide, ?_, rfl⟩
    change ∀ c ∈ [Decode.Check.object, .version, _, _, _, _, _, _, _, _, _], _
    simp only [List.forall_mem_cons]
    exact ⟨rfl, rfl, rfl, rfl, rfl, rfl, rfl, rfl, rfl, rfl, rfl, nofun⟩
  constructor
  · refine error_of_earliest.2.1 _ _ _ hfirst _ _ ?_ ?_ (.refl _ _)
    · change ∀ c ∈ [Decode.Check.object, .version, _, _, _, _, _, _, _, _, _], _
      simp only [List.forall_mem_cons]
      exact ⟨rfl, rfl, rfl, rfl, rfl, rfl, rfl, rfl, rfl, rfl, rfl, nofun⟩
    · rfl
  · exact error_of_earliest.2.2 _ 16 rfl (by decide)

end CrateDocs
