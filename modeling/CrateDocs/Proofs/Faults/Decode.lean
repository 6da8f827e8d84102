import CrateDocs.Proofs.Crate.Bare
import CrateDocs.Proofs.Crate.Decode
import CrateDocs.Proofs.Faults.Item

/-!
# Faults of a decoding

Every fault that ends a decoding, or that a decoding tolerates and reports, points into the
document. The one exception is a key of the external crates that is no number: what is wrong there
is not a value.
-/

namespace CrateDocs

open Reading

variable {document : Json} {mode : Mode}

/-- Whether there is a culprit for a fault in a document: its location leads there to a value that
is at fault, or to the entry of an external crate whose key is no number. -/
def Fault.HasCulprit (document : Json) (fault : Fault) : Prop :=
  fault.PointsInto document ∨
    ∃ key w, fault = ⟨[.key "external_crates", .key key], .nonNumericKey⟩ ∧
      document.HoldsAt fault.location w ∧ Unsigned.ofText? UInt32.size key = none

/-- Whether a fault is one of a document, and shows where: its path is a dollar sign and the
spelling of a location that leads there to a culprit. -/
structure Fault.IsOf (document : Json) (fault : Fault) : Prop where
  hasCulprit : fault.HasCulprit document
  path_eq : ∃ text, fault.path = "$" ++ text ∧ fault.location.SpelledBy text

theorem Fault.isOf_iff {fault : Fault} : fault.IsOf document ↔ fault.HasCulprit document := by
  constructor
  · intro h
    exact h.hasCulprit
  · intro h
    exact ⟨h, fault.exists_path_eq⟩

/-- Whether an error is one of a document, as far as it is a fault. -/
def DecodeError.FaultIsOf (document : Json) (error : DecodeError) : Prop :=
  ∀ fault, error = .fault fault → fault.IsOf document

namespace Decode

theorem faultIsOf_fault {fault : Fault} :
    (DecodeError.fault fault).FaultIsOf document ↔ fault.HasCulprit document := by
  simp [DecodeError.FaultIsOf, Fault.isOf_iff]

@[simp] theorem failsOnly_liftM {α : Type} {p : DecodeError → Prop} {reading : Reading α} :
    FailsOnly p (liftM reading : Except DecodeError α) ↔
      FailsOnly (fun fault => p (.fault fault)) reading :=
  failsOnly_mapError

/-- A reading of the document itself. -/
theorem failsOnly_of_located {α : Type} {reading : Reading α} (h : Located document reading) :
    FailsOnly (DecodeError.FaultIsOf document) (liftM reading : Except DecodeError α) :=
  failsOnly_liftM.2 (h.imp fun _ hfault => faultIsOf_fault.2 (.inl hfault))

variable {r : Record document}

theorem failsOnly_version : FailsOnly (DecodeError.FaultIsOf document) (version r) := by
  unfold version
  refine failsOnly_bind.2 ⟨failsOnly_of_located Record.located_required, fun value hvalue => ?_⟩
  have hmember := Record.required_eq_ok.1 (liftM_eq_ok.1 hvalue)
  split
  · split
    · exact failsOnly_pure
    · exact failsOnly_error.2 nofun
  · rename_i hinteger
    have hfault : Located value.val
        (.error (.mismatch .integer value.val) : Reading Unit) :=
      failsOnly_error.2 (Fault.pointsInto_mismatch fun hfits => hinteger _ hfits.choose_spec)
    have hwithin : Fault.PointsInto document _ :=
      failsOnly_error.1 (Record.located_within_key hmember hfault)
    exact failsOnly_error.2 (faultIsOf_fault.2 (.inl hwithin))

theorem located_presence : Located document (presence r) := by
  unfold presence
  induction requiredFields with
  | nil => exact failsOnly_pure
  | cons field fields ih =>
    rw [List.forM]
    refine failsOnly_bind.2 ⟨?_, fun _ _ => ih⟩
    exact failsOnly_bind.2 ⟨Record.located_required, fun _ _ => failsOnly_pure⟩

/-- An entry of the external crates has a key that is no number, or a value at fault. -/
theorem failsOnly_externalCrates :
    FailsOnly (fun fault => (DecodeError.fault fault).FaultIsOf document)
      (r.entries "external_crates" (ExternalCrate.readEntry · ·)) := by
  refine failsOnly_bind.2 ⟨?_, fun w hw => failsOnly_mapError.2 ?_⟩
  · exact Record.located_required.imp fun _ hfault => faultIsOf_fault.2 (.inl hfault)
  have hmember := Json.mem_of_member? (Record.required_eq_ok.1 hw)
  obtain ⟨v, hv⟩ := w
  cases v with
  | obj members =>
    refine failsOnly_mapM fun m hm => failsOnly_mapError.2 ?_
    have hentry := Json.mem_of_mem_memberParts hm
    obtain ⟨members', rfl⟩ := r
    unfold ExternalCrate.readEntry
    dsimp only
    split
    · refine failsOnly_bind.2 ⟨?_, fun _ _ => failsOnly_pure⟩
      refine ExternalCrate.located_read.imp fun fault hfault => faultIsOf_fault.2 (.inl ?_)
      exact (hfault.within_key hentry).within_key hmember
    · rename_i hnone
      refine failsOnly_error.2 (faultIsOf_fault.2 (.inr ⟨m.1, m.2.val, rfl, ?_, hnone⟩))
      exact .key hmember (.key hentry (.here _))
  | _ =>
    obtain ⟨members', rfl⟩ := r
    refine failsOnly_error.2 (faultIsOf_fault.2 (.inl ?_))
    refine (Fault.pointsInto_mismatch ?_).within_key hmember
    rintro ⟨members, hmembers⟩
    cases hmembers

theorem located_entries : Located document (entries r) := by
  have hindex : Located document
      (r.field "index" fun index => return (← index.val.asRecord).members) :=
    Record.located_field fun index => by simp
  exact failsOnly_bind.2 ⟨hindex, fun _ _ => failsOnly_pure⟩

theorem failsOnly_tolerate {p : DecodeError → Prop} {problems : List DecodeError}
    (h : ∀ problem ∈ problems, p problem) : FailsOnly p (mode.tolerate problems) := by
  unfold Mode.tolerate
  split
  · exact failsOnly_error.2 (h _ List.mem_cons_self)
  · exact failsOnly_ok

theorem failsOnly_checkRoot (crate : Crate) :
    FailsOnly (DecodeError.FaultIsOf document) crate.checkRoot := by
  unfold Crate.checkRoot
  split
  · split
    · exact failsOnly_ok
    · exact failsOnly_error.2 nofun
  · exact failsOnly_error.2 nofun

/-- A broken entry is reported by a fault that points into it, or by its wrong key. -/
theorem pointsInto_of_entry_eq_error {key : String} {v : Json} {error : DecodeError}
    (h : entry key v = .error error) :
    (∃ fault, error = .fault fault ∧ fault.PointsInto v) ∨ ∃ id, error = .keyMismatch ⟨key⟩ id := by
  rcases eq_of_entry_eq_error h with ⟨fault, rfl, hfault⟩ | ⟨id, rfl⟩
  · refine .inl ⟨fault, rfl, ?_⟩
    rcases hfault with hfault | ⟨r, hfault | ⟨id, hfault⟩⟩
    · exact Json.located_asRecord fault hfault
    · exact Record.located_id fault hfault
    · exact Item.located_ofRecord fault hfault
  · exact .inr ⟨id, rfl⟩

theorem faultIsOf_of_mem_dropped {results : List (Except DecodeError Item)}
    (h : entries r = .ok results) :
    ∀ error ∈ dropped results, error.FaultIsOf document := by
  obtain ⟨members, hindex, rfl⟩ := entries_eq_ok.1 h
  intro error herror
  obtain ⟨m, hm, heq⟩ := List.mem_map.1 (mem_dropped.1 herror)
  obtain ⟨inner, hinner, rfl⟩ := mapError_eq_error.1 heq
  rcases pointsInto_of_entry_eq_error hinner with ⟨fault, rfl, hfault⟩ | ⟨id, rfl⟩
  · have hwithin := (hfault.within_key hm).within_key (Json.mem_of_member? hindex)
    rw [← r.eq_obj] at hwithin
    exact faultIsOf_fault.2 (.inl hwithin)
  · exact nofun

theorem faultIsOf_of_mem_danglingReferences (crate : Crate) :
    ∀ error ∈ crate.danglingReferences, error.FaultIsOf document := by
  intro error herror
  obtain ⟨mention, -, rfl⟩ := List.mem_map.1 herror
  exact nofun

/-- A decoding fails only with faults of the document. -/
theorem failsOnly_decode : FailsOnly (DecodeError.FaultIsOf document) (decode mode document) := by
  unfold decode
  refine failsOnly_bind.2 ⟨failsOnly_of_located Json.located_asRecord, fun r _ => ?_⟩
  refine failsOnly_bind.2 ⟨failsOnly_version, fun _ _ => ?_⟩
  refine failsOnly_bind.2 ⟨failsOnly_of_located located_presence, fun _ _ => ?_⟩
  refine failsOnly_bind.2 ⟨failsOnly_of_located Record.located_id, fun root _ => ?_⟩
  refine failsOnly_bind.2 ⟨failsOnly_of_located Record.located_bool, fun _ _ => ?_⟩
  refine failsOnly_bind.2 ⟨failsOnly_of_located Record.located_string?, fun _ _ => ?_⟩
  refine failsOnly_bind.2 ⟨failsOnly_liftM.2 failsOnly_externalCrates, fun _ _ => ?_⟩
  refine failsOnly_bind.2 ⟨failsOnly_of_located located_entries, fun results hresults => ?_⟩
  have hdropped := faultIsOf_of_mem_dropped (liftM_eq_ok.1 hresults)
  refine failsOnly_bind.2 ⟨failsOnly_tolerate hdropped, fun _ _ => ?_⟩
  have hsummaries : Located document (r.entries "paths" (ItemSummary.readEntry · ·)) :=
    Record.located_entries fun _ _ => ItemSummary.located_readEntry
  refine failsOnly_bind.2 ⟨failsOnly_of_located hsummaries, fun _ _ => ?_⟩
  have hdangling (crate : Crate) : ∀ error ∈ crate.danglingReferences, error.FaultIsOf document :=
    faultIsOf_of_mem_danglingReferences crate
  refine failsOnly_bind.2 ⟨failsOnly_tolerate (hdangling _), fun _ _ => ?_⟩
  exact failsOnly_bind.2 ⟨failsOnly_checkRoot _, fun _ _ => failsOnly_pure⟩

end Decode

/-- A crate whose root has an attribute that is no text, and whose external crate is no number. -/
def numericAttribute (crateKey : String) : Json :=
  BareCrate.document {
    externalCrates := [(crateKey, .obj [("name", .str "core")])]
    index := [BareItem.entry {
      id := "0"
      inner := [("tag", .str "ForeignType")]
      attrs := [.str "#[a]", .num (.integer 1)] }] }

end CrateDocs
