import CrateDocs.Proofs.Crate.Bare
import CrateDocs.Proofs.Crate.Decode
import CrateDocs.Proofs.Indifference.Item

/-!
# Decodings of documents that look alike

Every phase of a decoding looks at the document through its layout. Hence a document may be edited
in all that does not count, at any depth, and still comes to the same crate with the same reports,
or to the same error.
-/

namespace CrateDocs

open Json Reading

variable {v w : Json} {r : Record v} {r' : Record w}

theorem ItemSummary.respects_read : Respects (.record .summary) ItemSummary.read := by
  intro v w h
  apply Record.Alike.asRecord_bind h
  intro r r' h
  rw [h.uint32 rfl, h.strings rfl, h.variant rfl]

theorem ItemSummary.respects_readEntry (key : String) :
    Respects (.record .summary) (ItemSummary.readEntry key) := by
  intro v w h
  unfold ItemSummary.readEntry
  rw [ItemSummary.respects_read h]

theorem ExternalCrate.respects_read : Respects (.record .externalCrate) ExternalCrate.read := by
  intro v w h
  apply Record.Alike.asRecord_bind h
  intro r r' h
  rw [h.string rfl, h.string? rfl]

theorem ExternalCrate.respects_readEntry (key : String) :
    Respects (.record .externalCrate) (ExternalCrate.readEntry key) := by
  intro v w h
  unfold ExternalCrate.readEntry
  rw [ExternalCrate.respects_read h]

namespace Decode

variable {α : Type}

theorem liftM_ok_bind {a : α} {β : Type} {f : α → Except DecodeError β} :
    (liftM (.ok a : Reading α) >>= f) = f a :=
  rfl

theorem liftM_error_bind {fault : Fault} {β : Type} {f : α → Except DecodeError β} :
    (liftM (.error fault : Reading α) >>= f) = .error (.fault fault) :=
  rfl

theorem entry_congr (key : String) (h : Alike (.record .item) v w) :
    entry key v = entry key w := by
  unfold entry
  rcases Record.Alike.asRecord h with ⟨fault, hv, hw⟩ | ⟨r, r', hv, hw, hr⟩
  · rw [hv, hw, liftM_error_bind, liftM_error_bind]
  · have hitem (id : ItemId) : Item.ofRecord id r = Item.ofRecord id r' :=
      Item.ofRecord_congr id hr
    rw [hv, hw, liftM_ok_bind, liftM_ok_bind, hr.id rfl]
    simp only [hitem]

/-- What the members of an index come to. -/
def readResults (v : Json) : Reading (List (Except DecodeError Item)) := do
  let record ← v.asRecord
  return record.members.map result

theorem entries_eq (r : Record v) : entries r = r.field "index" (readResults ·) := by
  unfold entries Record.field
  cases r.required "index" with
  | error fault => rfl
  | ok index =>
    change (do
        let members ← within (.key "index") do
          let record ← index.val.asRecord
          return record.members
        return members.map result) =
      within (.key "index") (readResults index.val)
    unfold readResults
    cases index.val.asRecord <;> rfl

theorem respects_readResults : Respects (.table (.record .item)) readResults := by
  intro v w h
  cases h with
  | refl => rfl
  | @table _ members others length_eq keys values =>
    have hresults : members.map result = others.map result := by
      rw [← List.forall₂_eq_eq_eq, List.forall₂_map_left_iff, List.forall₂_map_right_iff]
      refine (Alike.table length_eq keys values).forall₂_members.imp fun m m' hm => ?_
      rw [result, result, entry_congr m.1 hm.2, hm.1]
    exact congrArg Except.ok hresults

theorem version_congr {fields : Fields} (h : r.Alike fields r')
    (hkey : fields.lookup "format_version" = some .whole) : version r = version r' := by
  unfold version Record.required
  rcases h.get? hkey with ⟨hx, hy⟩ | ⟨x, y, hx, hy, hxy⟩
  · rw [hx, hy]
    rfl
  · rw [hx, hy, liftM_ok_bind, liftM_ok_bind, hxy.eq_of_whole]

section

variable (h : r.Alike (RecordType.fields none .crate) r')
include h

theorem entries_congr : entries r = entries r' := by
  rw [entries_eq, entries_eq]
  exact h.read rfl respects_readResults

theorem presence_congr : presence r = presence r' := by
  have hrequired {key : String} {layout : Layout}
      (hkey : (RecordType.fields none .crate).lookup key = some layout) :
      (do let _ ← r.required key; return () : Reading Unit) =
        (do let _ ← r'.required key; return ()) := by
    unfold Record.required
    rcases h.get? hkey with ⟨hx, hy⟩ | ⟨x, y, hx, hy, -⟩ <;> rw [hx, hy] <;> rfl
  unfold presence requiredFields
  simp only [List.forM]
  rw [hrequired rfl, hrequired rfl, hrequired rfl, hrequired rfl, hrequired rfl]

end

end Decode

theorem decode_congr {mode : Mode} (h : Alike (.record .crate) v w) :
    decode mode v = decode mode w := by
  unfold decode
  rcases Record.Alike.asRecord h with ⟨fault, hv, hw⟩ | ⟨r, r', hv, hw, hr⟩
  · rw [hv, hw, Decode.liftM_error_bind, Decode.liftM_error_bind]
  · have hcrates : r.entries "external_crates" (ExternalCrate.readEntry · ·) =
        r'.entries "external_crates" (ExternalCrate.readEntry · ·) :=
      hr.entries rfl fun name => agreeOn_of_respects (ExternalCrate.respects_readEntry name)
    have hpaths : r.entries "paths" (ItemSummary.readEntry · ·) =
        r'.entries "paths" (ItemSummary.readEntry · ·) :=
      hr.entries rfl fun name => agreeOn_of_respects (ItemSummary.respects_readEntry name)
    rw [hv, hw, Decode.liftM_ok_bind, Decode.liftM_ok_bind, Decode.version_congr hr rfl,
      Decode.presence_congr hr, hr.id rfl, hr.bool rfl, hr.string? rfl, hcrates,
      Decode.entries_congr hr, hpaths]

/-- Nulls may be removed from the records of a document and added to them, and whatever is not read
of a record of its type and tag may be changed, any number of times and at any depth: what comes of
the document stays the same, be it a crate with its reports or an error. -/
theorem decode_of_edits {mode : Mode} {document edited : Json}
    (h : Relation.ReflTransGen (Edit (.record .crate)) document edited) :
    decode mode edited = decode mode document := by
  induction h with
  | refl => rfl
  | @tail before after _ hedit ih =>
    have hstep : decode mode before = decode mode after := decode_congr hedit.alike
    exact hstep.symm.trans ih

/-- A crate of one module, with more members in its own record, in that of the module and in that of
its payload. -/
def annotatedModule (ofCrate ofItem ofPayload : List (String × Json)) : Json :=
  .obj (ofCrate ++ BareCrate.members {
    index := [("0", .obj (ofItem ++ BareItem.members {
      id := "0"
      inner := ofPayload ++ bareModule [] }))] })

theorem decode_annotatedModule :
    ∃ decoded, decode .strict (annotatedModule [] [("docs", .null)] []) = .ok decoded ∧
      decode .strict (annotatedModule [("crate_version", .null)] [] [("impls", .str "none")]) =
        .ok decoded := by
  have hcrate : Edit (.record .crate) (annotatedModule [] [("docs", .null)] [])
      (annotatedModule [("crate_version", .null)] [("docs", .null)] []) :=
    .record (@Retouch.addNull _ [] _ _ (by decide))
  have hitem : Edit (.record .crate)
      (annotatedModule [("crate_version", .null)] [("docs", .null)] [])
      (annotatedModule [("crate_version", .null)] [] []) := by
    refine @Edit.field .crate _ [_, _, _, _] _ "index" _ _ (by decide) rfl ?_
    refine @Edit.entry _ [] _ _ _ _ ?_
    exact .record (@Retouch.removeNull _ [] _ _ (by decide))
  have hpayload : Edit (.record .crate) (annotatedModule [("crate_version", .null)] [] [])
      (annotatedModule [("crate_version", .null)] [] [("impls", .str "none")]) := by
    refine @Edit.field .crate _ [_, _, _, _] _ "index" _ _ (by decide) rfl ?_
    refine @Edit.entry _ [] _ _ _ _ ?_
    refine @Edit.field .item _ [_, _, _] _ "inner" _ _ (by decide) rfl ?_
    apply Edit.record
    apply Retouch.unread
    intro key hkey
    have hne : key ≠ "impls" := by
      rintro rfl
      cases hkey
    rw [List.cons_append, List.lookup_cons, beq_eq_false_iff_ne.2 hne]
  have hedits := ((Relation.ReflTransGen.single hcrate).tail hitem).tail hpayload
  refine ⟨_, rfl, ?_⟩
  rw [decode_of_edits hedits]
  rfl

end CrateDocs
