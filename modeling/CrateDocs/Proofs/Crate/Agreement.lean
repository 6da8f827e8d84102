import CrateDocs.Proofs.Crate.Checks

/-!
# What the checks of a decoding look at

Each check looks at a part of the document only: at one field, at whether a field is there, or at
the entries of a table up to the first that is broken. Where two documents agree in this part, the
check comes to the same in both.
-/

namespace CrateDocs

open Json Reading

namespace Decode

variable {mode : Mode} {v w : Json} {r : Record v} {r' : Record w}

section

variable {ε α : Type}

/-- The members of a table up to the first that is not read. -/
def upToBroken (read : String → Json → Except ε α) : List (String × Json) → List (String × Json)
  | [] => []
  | m :: rest =>
    match read m.1 m.2 with
    | .ok _ => m :: upToBroken read rest
    | .error _ => [m]

/-- What is seen of a table by someone who stops at the first member that is not read. -/
def glimpse (read : String → Json → Except ε α) : Json → Json.Kind × List (String × Json)
  | .obj members => (.object, upToBroken read members)
  | v => (v.kind, [])

end

/-- The value of a field of a document. -/
def field? (document : Json) (key : String) : Option Json :=
  match document with
  | .obj members => member? members key
  | _ => none

/-- The members of the index that stand under the identifier of the root. -/
def rootMembers (document : Json) : List (String × Json) :=
  match field? document "root", field? document "index" with
  | some (.str root), some (.obj members) => members.filter fun m => m.1 = root
  | _, _ => []

/-- Whether two documents are the same in what a check looks at, over and above what the checks
before it have seen. -/
def Check.Agree (mode : Mode) (document other : Json) : Check → Prop
  | object => document.kind = other.kind
  | version => field? document "format_version" = field? other "format_version"
  | presence field => (field? document field).isSome = (field? other field).isSome
  | root => field? document "root" = field? other "root"
  | includesPrivate => field? document "includes_private" = field? other "includes_private"
  | crateVersion => field? document "crate_version" = field? other "crate_version"
  | externalCrates =>
    (field? document "external_crates").map (glimpse ExternalCrate.readEntry) =
      (field? other "external_crates").map (glimpse ExternalCrate.readEntry)
  | index =>
    match mode with
    | .strict => (field? document "index").map (glimpse entry) =
        (field? other "index").map (glimpse entry)
    | .lenient => (field? document "index").map Json.kind = (field? other "index").map Json.kind
  | paths =>
    (field? document "paths").map (glimpse ItemSummary.readEntry) =
      (field? other "paths").map (glimpse ItemSummary.readEntry)
  | references => True
  | rootModule => rootMembers document = rootMembers other

theorem field?_eq (r : Record v) (key : String) : field? v key = member? r.members key := by
  obtain ⟨members, rfl⟩ := r
  rfl

section

variable {ε α : Type} {read : String → Json → Except ε α} {members others : List (String × Json)}

theorem upToBroken_eq_self (h : ∀ m ∈ members, ∃ a, read m.1 m.2 = .ok a) :
    upToBroken read members = members := by
  induction members with
  | nil => rfl
  | cons m rest ih =>
    obtain ⟨⟨a, ha⟩, hrest⟩ := List.forall_mem_cons.1 h
    simp only [upToBroken, ha, ih hrest]

theorem eq_self_of_upToBroken (h : ∀ m ∈ upToBroken read members, ∃ a, read m.1 m.2 = .ok a) :
    upToBroken read members = members := by
  induction members with
  | nil => rfl
  | cons m rest ih =>
    unfold upToBroken at h ⊢
    cases hm : read m.1 m.2 with
    | ok a =>
      rw [hm] at h
      exact congrArg (m :: ·) (ih (List.forall_mem_cons.1 h).2)
    | error error =>
      rw [hm] at h
      obtain ⟨a, ha⟩ := h m List.mem_cons_self
      rw [hm] at ha
      cases ha

/-- Whoever has seen a whole table knows it. -/
theorem eq_of_glimpse_eq (hall : ∀ m ∈ members, ∃ a, read m.1 m.2 = .ok a)
    (h : glimpse read (.obj members) = glimpse read w) : w = .obj members := by
  cases w with
  | obj others =>
    have hseen : upToBroken read members = upToBroken read others := congrArg Prod.snd h
    rw [upToBroken_eq_self hall] at hseen
    rw [hseen] at hall
    rw [hseen, eq_self_of_upToBroken hall]
  | _ =>
    have hkind := congrArg Prod.fst h
    cases hkind

/-- The first fault of a table is that of the first member that is not read. -/
theorem outcome_mapM_upToBroken {read : String → Json → Reading α} :
    outcome ((upToBroken read members).mapM fun m => (read m.1 m.2).within (.key m.1)) =
      outcome (members.mapM fun m => (read m.1 m.2).within (.key m.1)) := by
  induction members with
  | nil => rfl
  | cons m rest ih =>
    unfold upToBroken
    cases hm : read m.1 m.2 with
    | ok a => rw [outcome_mapM_cons, outcome_mapM_cons, ih]
    | error fault =>
      rw [outcome_mapM_cons, outcome_mapM_cons, hm]
      rfl

/-- A strict decoding ends at the first entry of the index that is broken. -/
theorem tolerate_dropped_upToBroken :
    Mode.strict.tolerate (dropped ((upToBroken entry members).map result)) =
      Mode.strict.tolerate (dropped (members.map result)) := by
  induction members with
  | nil => rfl
  | cons m rest ih =>
    unfold upToBroken
    cases hm : entry m.1 m.2 with
    | ok item =>
      have hresult : result m = .ok item := by rw [result, hm]; rfl
      simpa [dropped, hresult] using ih
    | error error =>
      have hresult : result m = .error ((error.within (.key m.1)).within (.key "index")) := by
        rw [result, hm]
        rfl
      simp [dropped, hresult, Mode.tolerate]

end

section

variable {α : Type} {key : String}

theorem alike_whole (h : member? r.members key = member? r'.members key) :
    r.Alike [(key, .whole)] r' := by
  apply Record.Alike.of_member?_eq
  intro name layout hname
  by_cases heq : name = key
  · rw [heq, h]
  · rw [List.lookup_cons, beq_eq_false_iff_ne.2 heq] at hname
    cases hname

theorem outcome_required_congr
    (h : (member? r.members key).isSome = (member? r'.members key).isSome) :
    outcome (liftM (r.required key) : Except DecodeError _) =
      outcome (liftM (r'.required key)) := by
  unfold Record.required
  cases hx : r.get? key with
  | none =>
    rw [Record.get?_eq_none.1 hx, Option.isSome_none, eq_comm, Option.isSome_eq_false_iff,
      Option.isNone_iff_eq_none] at h
    rw [Record.get?_eq_none.2 h]
    rfl
  | some x =>
    rw [Record.get?_eq_some.1 hx, Option.isSome_some, eq_comm, Option.isSome_iff_exists] at h
    obtain ⟨y, hy⟩ := h
    obtain ⟨part, rfl⟩ := Record.exists_part hy
    rw [Record.get?_eq_some.2 hy]
    rfl

/-- What comes of a field depends on what its reader sees in the value. -/
theorem field_bind_congr {γ : Type} (see : Json → γ) (read : Json → Reading α)
    {next : α → Except DecodeError Unit}
    (h : (member? r.members key).map see = (member? r'.members key).map see)
    (hread : ∀ v w, see v = see w →
      (liftM ((read v).within (.key key)) >>= next) =
        (liftM ((read w).within (.key key)) >>= next)) :
    (liftM (r.field key (read ·)) >>= next) = (liftM (r'.field key (read ·)) >>= next) := by
  unfold Record.field Record.required
  cases hx : r.get? key with
  | none =>
    rw [Record.get?_eq_none.1 hx, Option.map_none, eq_comm, Option.map_eq_none_iff] at h
    rw [Record.get?_eq_none.2 h]
    rfl
  | some x =>
    rw [Record.get?_eq_some.1 hx, Option.map_some, eq_comm, Option.map_eq_some_iff] at h
    obtain ⟨y, hy, hsee⟩ := h
    obtain ⟨part, rfl⟩ := Record.exists_part hy
    rw [Record.get?_eq_some.2 hy]
    exact hread x.val part.val hsee.symm

theorem readEntries_obj (read : String → Json → Reading α) (members : List (String × Json)) :
    (Json.obj members).readEntries (read · ·) =
      members.mapM fun m => (read m.1 m.2).within (.key m.1) := by
  have hmembers : List.Forall₂ (fun m m' : String × Json =>
      (read m.1 m.2).within (.key m.1) = (read m'.1 m'.2).within (.key m'.1)) members members :=
    List.forall₂_same.2 fun _ _ => rfl
  exact mapM_congr (forall₂_memberParts.2 hmembers)

theorem exists_members_of_kind (h : v.kind = .object) : ∃ members, v = .obj members := by
  cases v with
  | obj members => exact ⟨members, rfl⟩
  | _ => cases h

/-- Of two values of one kind both are objects, or neither is one. -/
theorem obj_or_kind_ne (h : v.kind = w.kind) :
    (∃ members others, v = .obj members ∧ w = .obj others) ∨
      v.kind ≠ .object ∧ w.kind ≠ .object := by
  by_cases hv : v.kind = .object
  · obtain ⟨members, rfl⟩ := exists_members_of_kind hv
    obtain ⟨others, rfl⟩ := exists_members_of_kind (h.symm.trans hv)
    exact .inl ⟨members, others, rfl, rfl⟩
  · exact .inr ⟨hv, h ▸ hv⟩

theorem asRecord_of_kind_ne (h : v.kind ≠ .object) :
    v.asRecord = .error ⟨[], .mismatch .object v.kind⟩ := by
  cases v with
  | obj members => exact absurd rfl h
  | _ => rfl

theorem readEntries_of_kind_ne {read : String → v.Part → Reading α} (h : v.kind ≠ .object) :
    v.readEntries read = .error ⟨[], .mismatch .object v.kind⟩ := by
  cases v with
  | obj members => exact absurd rfl h
  | _ => rfl

theorem kind_eq_of_glimpse_eq {ε : Type} {read : String → Json → Except ε α}
    (h : glimpse read v = glimpse read w) : v.kind = w.kind := by
  have hkind (v : Json) : (glimpse read v).1 = v.kind := by cases v <;> rfl
  rw [← hkind v, h, hkind]

theorem outcome_readEntries_congr {read : String → Json → Reading α}
    (h : glimpse read v = glimpse read w) :
    outcome (v.readEntries (read · ·)) = outcome (w.readEntries (read · ·)) := by
  have hkind := kind_eq_of_glimpse_eq h
  rcases obj_or_kind_ne hkind with ⟨members, others, rfl, rfl⟩ | ⟨hv, hw⟩
  · have hseen : upToBroken read members = upToBroken read others := congrArg Prod.snd h
    rw [readEntries_obj, readEntries_obj, ← outcome_mapM_upToBroken, hseen,
      outcome_mapM_upToBroken]
  · rw [readEntries_of_kind_ne hv, readEntries_of_kind_ne hw, hkind]

theorem outcome_entries_congr (read : String → Json → Reading α)
    (h : (member? r.members key).map (glimpse read) =
      (member? r'.members key).map (glimpse read)) :
    outcome (liftM (r.entries key (read · ·)) : Except DecodeError _) =
      outcome (liftM (r'.entries key (read · ·))) := by
  have hbind (x : Except DecodeError (List α)) : outcome x = x >>= fun _ => .ok () := by
    cases x <;> rfl
  rw [hbind, hbind]
  apply field_bind_congr (glimpse read) (fun v => v.readEntries (read · ·)) h
  intro v w hvw
  have houtcome := outcome_readEntries_congr hvw
  cases hv : v.readEntries (read · ·) with
  | error fault =>
    rw [hv, eq_comm] at houtcome
    rw [outcome_eq_error.1 houtcome]
  | ok as =>
    rw [hv, eq_comm] at houtcome
    obtain ⟨bs, hw⟩ := outcome_eq_ok.1 houtcome
    rw [hw]
    rfl

theorem readResults_of_kind_ne (h : v.kind ≠ .object) :
    readResults v = .error ⟨[], .mismatch .object v.kind⟩ := by
  rw [readResults, asRecord_of_kind_ne h]
  rfl

/-- What comes of the check of an index depends on its kind, and in the strict mode on its members
up to the first that is broken. -/
theorem index_congr (h : Check.index.Agree mode v w) :
    Check.index.ofRecord mode r = Check.index.ofRecord mode r' := by
  rw [Check.ofRecord, Check.ofRecord, entries_eq, entries_eq]
  cases mode with
  | lenient =>
    rw [Check.Agree, field?_eq r, field?_eq r'] at h
    apply field_bind_congr Json.kind readResults h
    intro v w hkind
    rcases obj_or_kind_ne hkind with ⟨members, others, rfl, rfl⟩ | ⟨hv, hw⟩
    · rfl
    · rw [readResults_of_kind_ne hv, readResults_of_kind_ne hw, hkind]
  | strict =>
    rw [Check.Agree, field?_eq r, field?_eq r'] at h
    apply field_bind_congr (glimpse entry) readResults h
    intro v w hvw
    have hkind := kind_eq_of_glimpse_eq hvw
    rcases obj_or_kind_ne hkind with ⟨members, others, rfl, rfl⟩ | ⟨hv, hw⟩
    · have hseen : upToBroken entry members = upToBroken entry others := congrArg Prod.snd hvw
      change Mode.strict.tolerate (dropped (members.map result)) =
        Mode.strict.tolerate (dropped (others.map result))
      rw [← tolerate_dropped_upToBroken, hseen, tolerate_dropped_upToBroken]
    · rw [readResults_of_kind_ne hv, readResults_of_kind_ne hw, hkind]

/-- A table of which all members are read is known from what has been seen of it. -/
theorem entries_eq_ok_of_agree {read : String → Json → Reading α} {as : List α}
    (hread : r.entries key (read · ·) = .ok as)
    (h : (member? r.members key).map (glimpse read) =
      (member? r'.members key).map (glimpse read)) :
    r'.entries key (read · ·) = .ok as := by
  have hentries := Record.entries_eq_ok (r := r) (p := fun m a => read m.1 m.2 = .ok a)
    (fun _ _ _ => Iff.rfl) |>.1 hread
  obtain ⟨members, hmember, hmembers⟩ := hentries
  rw [hmember, Option.map_some, eq_comm, Option.map_eq_some_iff] at h
  obtain ⟨other, hother, hseen⟩ := h
  have hall : ∀ m ∈ members, ∃ a, read m.1 m.2 = .ok a := by
    intro m hm
    obtain ⟨i, hi, rfl⟩ := List.getElem_of_mem hm
    have hlength := hmembers.length_eq
    exact ⟨as[i], hmembers.get hi (hlength ▸ hi)⟩
  rw [eq_of_glimpse_eq hall hseen.symm] at hother
  exact (Record.entries_eq_ok fun _ _ _ => Iff.rfl).2 ⟨members, hother, hmembers⟩

end

end Decode

end CrateDocs
